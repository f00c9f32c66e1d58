import Raml.Fault

/-! # Data types

A data type is one of the scalar kinds, an object, an array, a union, or a
reference to a type by its name. Every type keeps the declaration it was built
from. A reference holds no copy of its target: it is looked up in the registry
each time, provided that the reference is bound to one.
-/

namespace Raml

structure Common where
  name : String
  required : Bool
  default : Value
  sample : Value
  samples : Value
  displayName : Option String
  description : Option String
  enum : Option (List Value)
  parent : Option String
  declaration : Mapping

structure TextFacets where
  pattern : Option String
  minLength : Option Int
  maxLength : Option Int

structure NumberFacets where
  minimum : Option Number
  maximum : Option Number
  multipleOf : Option Number
  format : Option String

structure FileFacets where
  fileTypes : Option (List String)
  minLength : Option Int
  maxLength : Option Int

/-- Bounds on an object; `properties` are not part of them. -/
structure ObjectFacets where
  minProperties : Option Int
  maxProperties : Option Int
  additionalProperties : Bool
  discriminator : Option String
  discriminatorValue : Value

/-- Bounds on an array; the type of its items is not part of them. -/
structure ArrayFacets where
  minItems : Option Int
  maxItems : Option Int
  uniqueItems : Bool

inductive TemporalKind
  | dateOnly
  | timeOnly
  | dateTimeOnly
  | dateTime
deriving DecidableEq

/-- The kinds of types that no other type is nested in. -/
inductive Scalar
  | any
  | string (f : TextFacets)
  | number (f : NumberFacets)
  | integer (f : NumberFacets)
  | boolean
  | nil
  | file (f : FileFacets)
  | json (schema : Mapping)
  | xml (schema : String)
  | temporal (kind : TemporalKind) (format : Option String)

inductive DataType
  | scalar (c : Common) (s : Scalar)
  | object (c : Common) (f : ObjectFacets) (properties : List (String × DataType))
  | array (c : Common) (f : ArrayFacets) (items : Option DataType)
  | union (c : Common) (members : List DataType)
  /-- The type named `target`; `bound` says whether there is a registry to look it up in. -/
  | reference (c : Common) (target : String) (bound : Bool)

inductive Kind
  | any
  | string
  | number
  | integer
  | boolean
  | nil
  | file
  | object
  | array
  | union
  | json
  | xml
  | reference
  | temporal (kind : TemporalKind)
deriving DecidableEq

def TemporalKind.text : TemporalKind → String
  | .dateOnly => "date-only"
  | .timeOnly => "time-only"
  | .dateTimeOnly => "datetime-only"
  | .dateTime => "datetime"

def Kind.text : Kind → String
  | .any => "any"
  | .string => "string"
  | .number => "number"
  | .integer => "integer"
  | .boolean => "boolean"
  | .nil => "nil"
  | .file => "file"
  | .object => "object"
  | .array => "array"
  | .union => "union"
  | .json => "json"
  | .xml => "xml"
  | .reference => "reference"
  | .temporal kind => kind.text

def Scalar.kind : Scalar → Kind
  | .any => .any
  | .string _ => .string
  | .number _ => .number
  | .integer _ => .integer
  | .boolean => .boolean
  | .nil => .nil
  | .file _ => .file
  | .json _ => .json
  | .xml _ => .xml
  | .temporal kind _ => .temporal kind

namespace DataType

def common : DataType → Common
  | .scalar c _ | .object c _ _ | .array c _ _ | .union c _ | .reference c _ _ => c

def name (t : DataType) : String := t.common.name

def required (t : DataType) : Bool := t.common.required

def declaration (t : DataType) : Mapping := t.common.declaration

def parent (t : DataType) : Option String := t.common.parent

def kind : DataType → Kind
  | .scalar _ s => s.kind
  | .object _ _ _ => .object
  | .array _ _ _ => .array
  | .union _ _ => .union
  | .reference _ _ _ => .reference

def nested : DataType → List DataType
  | .object _ _ properties => properties.map (·.2)
  | .array _ _ items => items.toList
  | .union _ members => members
  | .scalar _ _ | .reference _ _ _ => []

def target? : DataType → Option String
  | .reference _ target _ => some target
  | _ => none

def mapCommon (f : Common → Common) : DataType → DataType
  | .scalar c s => .scalar (f c) s
  | .object c facets properties => .object (f c) facets properties
  | .array c facets items => .array (f c) facets items
  | .union c members => .union (f c) members
  | .reference c target bound => .reference (f c) target bound

def withParent (parent : String) (t : DataType) : DataType :=
  t.mapCommon fun c => { c with parent := some parent }

def withBinding (bound : Bool) : DataType → DataType
  | .reference c target _ => .reference c target bound
  | t => t

mutual

/-- The types nested in this one at any depth, each before those nested in it. -/
def descendants : DataType → List DataType
  | .object _ _ properties => ofProperties properties
  | .array _ _ items => ofItems items
  | .union _ members => ofMembers members
  | .scalar _ _ | .reference _ _ _ => []
termination_by structural t => t

def ofProperties : List (String × DataType) → List DataType
  | [] => []
  | p :: rest => ofProperty p ++ ofProperties rest
termination_by structural ps => ps

def ofProperty : String × DataType → List DataType
  | (_, t) => t :: descendants t
termination_by structural p => p

def ofItems : Option DataType → List DataType
  | none => []
  | some t => t :: descendants t
termination_by structural o => o

def ofMembers : List DataType → List DataType
  | [] => []
  | t :: rest => (t :: descendants t) ++ ofMembers rest
termination_by structural ts => ts

end

end DataType

end Raml
