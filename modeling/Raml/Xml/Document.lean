import Raml.Xml.DocumentType

/-! # Well-formed XML documents

A document is an optional declaration, an optional document type, and one root
element, with comments and instructions around it. Tags are nested, the
attributes of an element differ, and every prefix is bound to a namespace by the
element itself or one around it.
-/

namespace Raml.Xml

/-- The namespaces that prefixes are bound to, the innermost first; the empty prefix stands for
names without one. -/
abbrev Bindings := List (List Char × List Char)

def xmlNamespace : List Char := "http://www.w3.org/XML/1998/namespace".toList

def xmlnsNamespace : List Char := "http://www.w3.org/2000/xmlns/".toList

def mayBind (pre uri : List Char) : Bool :=
  let isXml := pre = "xml".toList
  pre ≠ "xmlns".toList && (pre.isEmpty || !uri.isEmpty) && !uri.contains '}' &&
    uri ≠ xmlnsNamespace && (isXml == (uri == xmlNamespace))

def boundPrefix? (name : List Char) : Option (List Char) :=
  match splitPrefix name with
  | (none, own) => if own = "xmlns".toList then some [] else none
  | (some p, own) => if p = "xmlns".toList then some own else none

def expanded? (bindings : Bindings) (name : List Char) : Option (List Char × List Char) :=
  match splitPrefix name with
  | (none, own) => some ([], own)
  | (some p, own) => (bindings.lookup p).map (·, own)

def allDiffer {α : Type} [BEq α] : List α → Bool
  | [] => true
  | a :: rest => !rest.contains a && allDiffer rest

def bindingsOf (outer : Bindings) (name : List Char) (attributes : List (List Char × List Char)) :
    Option Bindings := do
  let own := attributes.filterMap fun a => (boundPrefix? a.1).map (·, a.2)
  if !(own.all fun b => mayBind b.1 b.2) || !allDiffer (attributes.map (·.1)) then none
  let inner := own ++ outer
  let plain := attributes.filter fun a => (boundPrefix? a.1).isNone
  let names ← plain.mapM fun a => expanded? inner a.1
  let _ ← expanded? inner name
  if allDiffer names then some inner else none

/-- The attributes of an element's start tag and what follows them: the tag's end. -/
def readAttributes (d : DocumentType) (element : List Char) : Nat → List Char →
    Option (List (List Char × List Char) × List Char)
  | 0, _ => none
  | fuel + 1, cs =>
      match skipSpace cs with
      | '>' :: rest => some ([], '>' :: rest)
      | '/' :: rest => some ([], '/' :: rest)
      | _ => do
          let (name, rest) ← readQualified (← needSpace cs)
          let rest ← after "=" (skipSpace rest)
          let (written, rest) ← readQuoted (skipSpace rest)
          let declared := d.attributes.lookup (element, name)
          let value ← d.value? (declared.all (·.isText)) written
          let (more, rest) ← readAttributes d element fuel rest
          some ((name, value) :: more, rest)

def defaultsOf (d : DocumentType) (element : List Char) (written : List (List Char)) :
    List (List Char × List Char) :=
  let own := d.attributes.filter fun a => a.1.1 == element && !written.contains a.1.2
  -- the first declaration of an attribute counts, whether it has a default or not
  let names := (own.map (·.1.2)).eraseDups
  names.filterMap fun name =>
    ((d.attributes.lookup (element, name)).bind (·.fallback)).map (name, ·)

/-- An element that is not closed yet: its name and the bindings around it. -/
structure OpenElement where
  name : List Char
  outer : Bindings

/-- A place inside a document: the bindings in force and the elements not closed yet. -/
structure Place where
  bindings : Bindings
  unclosed : List OpenElement

namespace Place

/-- The place after a start tag, whose bracket is read already, and what follows. -/
def start (p : Place) (d : DocumentType) (cs : List Char) : Option (Place × List Char) := do
  let (name, rest) ← readQualified cs
  let (written, rest) ← readAttributes d name (rest.length + 1) rest
  let inner ← bindingsOf p.bindings name (written ++ defaultsOf d name (written.map (·.1)))
  match rest with
  | '>' :: rest => some (⟨inner, ⟨name, p.bindings⟩ :: p.unclosed⟩, rest)
  | '/' :: '>' :: rest => some (p, rest)
  | _ => none

/-- The place after an end tag, whose start is read already, and what follows. -/
def stop (p : Place) (cs : List Char) : Option (Place × List Char) :=
  match p.unclosed with
  | [] => none
  | e :: rest =>
      if e.name.isPrefixOf cs then
        (afterClose (cs.drop e.name.length)).map (⟨e.outer, rest⟩, ·)
      else none

end Place

/-- What follows the content of the open elements, none of which is left open. An entity's text
is content of its own; in it nothing may follow, and nothing need be open. -/
def afterContent (d : DocumentType) (depth fuel : Nat) (inEntity : Bool) (p : Place)
    (cs : List Char) : Option (List Char) :=
  match fuel with
  | 0 => none
  | fuel + 1 =>
      if !inEntity && p.unclosed.isEmpty then some cs
      else
        let next (p : Place) (rest : Option (List Char)) : Option (List Char) :=
          rest.bind fun rest => afterContent d depth fuel inEntity p rest
        match cs with
        | [] => if inEntity && p.unclosed.isEmpty then some [] else none
        | '<' :: '!' :: '-' :: '-' :: rest => next p (afterComment rest)
        | '<' :: '!' :: rest =>
            next p (((after "[CDATA[" rest).bind (upTo "]]>".toList)).map (·.2))
        | '<' :: '?' :: rest => next p (afterInstruction rest)
        | '<' :: '/' :: rest => (p.stop rest).bind fun q => next q.1 (some q.2)
        | '<' :: rest => (p.start d rest).bind fun q => next q.1 (some q.2)
        | '&' :: rest =>
            match readReference rest with
            | none => none
            | some (.character _, rest) => next p (some rest)
            | some (.entity name, rest) =>
                if (predefined.lookup name).isSome then next p (some rest)
                else
                  match depth, d.entities.lookup name with
                  | depth' + 1, some (.inner text) =>
                      match afterContent d depth' (text.length + 1) true ⟨p.bindings, []⟩ text with
                      | some [] => next p (some rest)
                      | _ => none
                  | _, _ => none
        | ']' :: ']' :: '>' :: _ => none
        | c :: rest => if isLegal c then next p (some rest) else none
termination_by (depth, fuel)

/-- What follows the root element, whose bracket is read already. -/
def afterRoot (d : DocumentType) (cs : List Char) : Option (List Char) := do
  let (p, rest) ← Place.start ⟨[("xml".toList, xmlNamespace)], []⟩ d cs
  afterContent d (d.entities.length + 1) (rest.length + 1) false p rest

def isBody (standsAlone : Bool) (cs : List Char) : Bool :=
  let result := do
    let cs ← skipMisc (cs.length + 1) cs
    let (d, cs) ← match after "<!DOCTYPE" cs with
      | some rest => do
          let (d, rest) ← DocumentType.read standsAlone rest
          let rest ← skipMisc (rest.length + 1) rest
          some (d, rest)
      | none => some (DocumentType.plain standsAlone, cs)
    let cs ← after "<" cs
    let cs ← afterRoot d cs
    skipMisc (cs.length + 1) cs
  result == some []

def isWellFormed (text : String) : Bool :=
  let cs := match text.toList with
    | '\uFEFF' :: rest => rest
    | cs => cs
  match after "<?xml" cs with
  | some rest =>
      if (rest.head?).any isNameChar then isBody false cs
      else
        match readDeclaration rest with
        | some (standsAlone, rest) => isBody standsAlone rest
        | none => false
  | none => isBody false cs

end Raml.Xml
