import Raml.Calendar.Formats
import Raml.Validation.Engines
import Raml.Validation.Requirement

/-! # Values of scalar types

What a value has to satisfy for each scalar kind. The kind of the value is
checked first, then the bounds in their usual order, then the enumeration.
Null, files and documents with a schema are not compared with an enumeration.
-/

namespace Raml

namespace Validation

variable [Engines]

/-! ## Texts -/

/-- The requirement that a regular expression, if there is one, occurs in a text. -/
def requirePattern (subject : String) (pattern : Option String) (s : String) :
    Except Fault Unit :=
  match pattern with
  | none => .ok ()
  | some source => do require subject (← Engines.occurs source s) (.pattern source)

def checkText (c : Common) (f : TextFacets) (v : Value) : Except Fault Unit :=
  match v with
  | .text s => do
      requireBound c.name f.minLength (fun n => n ≤ s.length) .minLength
      requireBound c.name f.maxLength (fun n => s.length ≤ n) .maxLength
      requirePattern c.name f.pattern s
      requireMember c v
  | _ => .error (.violation c.name .isText)

/-! ## Numbers -/

/-- How far a remainder may be from zero or from the divisor, as a share of either. -/
def relativeTolerance : Binary64 := .ofDecimal false 1 (-9)

/-- How far a remainder may be from zero or from the divisor. -/
def absoluteTolerance : Binary64 := .ofDecimal false 1 (-9)

/-- Whether a divisor goes into a number: in binary64 arithmetic, the remainder is close to zero
or to the divisor. -/
def divides (divisor n : Number) : Except Fault Bool :=
  match n.toBinary64?, divisor.toBinary64? with
  | some x, some m =>
      match x.remainder? m with
      | some r =>
          let close := Binary64.isClose relativeTolerance absoluteTolerance
          .ok (close r (.finite false 0) || close r.abs m.abs)
      | none => .error .badValue
  | _, _ => .error .overflow

/-- The requirement that a divisor, if there is one other than zero, goes into a number. -/
def requireMultiple (subject : String) (divisor : Option Number) (n : Number) :
    Except Fault Unit :=
  match divisor with
  | none => .ok ()
  | some m =>
      -- a divisor of zero counts as none, and nothing is divided by it
      if m.isZero then .ok ()
      else do require subject (← divides m n) (.multipleOf m)

def checkBounds (subject : String) (f : NumberFacets) (n : Number) : Except Fault Unit := do
  -- what is no number is not less than any bound, so it keeps both
  requireBound subject f.minimum (fun m => !n.less m) .minimum
  requireBound subject f.maximum (fun m => !m.less n) .maximum
  requireMultiple subject f.multipleOf n

def checkNumber (c : Common) (f : NumberFacets) (v : Value) : Except Fault Unit :=
  match Json.number? v with
  | some n => do
      checkBounds c.name f n
      requireMember c v
  | none => .error (.violation c.name .isNumber)

def formatWidth? : String → Option Nat
  | "int8" => some 8
  | "int16" => some 16
  | "int32" | "int" => some 32
  | "int64" | "long" => some 64
  | _ => none

def fits (width : Nat) (n : Int) : Bool :=
  let size := Int.ofNat (Nat.pow 2 (width - 1))
  decide (-size ≤ n ∧ n < size)

def requireFormat (subject : String) (format : Option String) (n : Int) : Except Fault Unit :=
  match format with
  | none => .ok ()
  | some word => requireBound subject (formatWidth? word) (fits · n) fun _ => .integerFormat word

def checkInteger (c : Common) (f : NumberFacets) (v : Value) : Except Fault Unit :=
  match v with
  | .int n => do
      requireFormat c.name f.format n
      checkBounds c.name f (.int n)
      requireMember c v
  | _ => .error (.violation c.name .isInteger)

/-! ## Other kinds -/

def checkTruth (c : Common) (v : Value) : Except Fault Unit :=
  match v with
  | .bool _ => requireMember c v
  | _ => .error (.violation c.name .isBoolean)

def checkFile (c : Common) (f : FileFacets) (v : Value) : Except Fault Unit :=
  match v with
  | .bytes content => do
      requireBound c.name f.minLength (fun n => n ≤ content.length) .minSize
      requireBound c.name f.maxLength (fun n => content.length ≤ n) .maxSize
  | _ => .error (.violation c.name .isFile)

/-- The format of a kind of date or time; a timestamp may name one of its own. -/
def formatOf (kind : TemporalKind) (format : Option String) : TemporalFormat :=
  match kind with
  | .dateOnly => .date
  | .timeOnly => .time
  | .dateTimeOnly => .rfc3339
  | .dateTime =>
      if (format.getD "").toList.map Char.toLower = "rfc2616".toList then .rfc2616 else .rfc3339

def checkTemporal (c : Common) (kind : TemporalKind) (format : Option String) (v : Value) :
    Except Fault Unit := do
  let format := formatOf kind format
  let conforms := match v with
    | .text s => format.accepts s
    | _ => false
  require c.name conforms (.temporalFormat format.label)
  requireMember c v

/-- The JSON document that a text writes; other values are documents as they stand. -/
def decodeJson (subject : String) (v : Value) : Except Fault Engines.Document :=
  match v with
  | .text s =>
      match Engines.decode s with
      | .ok document => .ok document
      | .error (.malformed message) => .error (.violation subject (.isJson message))
      | .error (.failed fault) => .error fault
  | v => .ok (Engines.ofValue v)

def checkJson (c : Common) (schema : Mapping) (v : Value) : Except Fault Unit := do
  let document ← decodeJson c.name v
  match Engines.verdict schema document with
  | .satisfied => .ok ()
  | .broken message => .error (.violation c.name (.jsonSchema message))
  | .noSchema => .error (.schemaRules c.name)
  | .failed fault => .error fault

/-- The requirements on an XML document: it is well formed. -/
def checkXml (c : Common) (v : Value) : Except Fault Unit :=
  match v with
  | .text s => do require c.name (← Engines.isXml s) .wellFormedXml
  | _ => .error (.violation c.name .isXml)

def checkScalar (c : Common) (s : Scalar) (v : Value) : Except Fault Unit :=
  match s with
  | .any => requireMember c v
  | .string f => checkText c f v
  | .number f => checkNumber c f v
  | .integer f => checkInteger c f v
  | .boolean => checkTruth c v
  | .nil => require c.name v.isNull .isNull
  | .file f => checkFile c f v
  | .json schema => checkJson c schema v
  | .xml _ => checkXml c v
  | .temporal kind format => checkTemporal c kind format v

end Validation

end Raml
