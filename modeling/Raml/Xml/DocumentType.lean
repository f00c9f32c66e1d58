import Raml.Xml.Token

/-! # Document types

A document may declare its type before the root element, with declarations in
brackets. Of these the entities matter for what follows, since a reference stands
for the text of the entity, and the attributes, which may have a default. After
a reference to a parameter entity, declarations are checked for their form and
ignored, unless the document stands alone.
-/

namespace Raml.Xml

inductive Entity
  | inner (text : List Char)
  | outer

/-- What is declared of an attribute. Its values are any text, or else tokens. -/
structure Attribute where
  isText : Bool
  fallback : Option (List Char)

structure DocumentType where
  entities : List (List Char × Entity)
  /-- The attributes, each under the names of its element and its own. -/
  attributes : List ((List Char × List Char) × Attribute)
  standsAlone : Bool
  /-- Whether there may be declarations that are not known. -/
  isOpen : Bool
  /-- Whether further declarations count. -/
  isRead : Bool

def DocumentType.plain (standsAlone : Bool) : DocumentType := ⟨[], [], standsAlone, false, true⟩

/-! ## Parts of declarations -/

/-- What follows the identifier of something outside the document. -/
def afterExternal (publicAlone : Bool) (cs : List Char) : Option (List Char) := do
  match after "SYSTEM" cs with
  | some cs => do
      let cs ← needSpace cs
      (readQuoted cs).map (·.2)
  | none => do
      let cs ← after "PUBLIC" cs
      let cs ← needSpace cs
      let (name, rest) ← readQuoted cs
      if !name.all isPublic then none
      match needSpace rest with
      | some cs =>
          match readQuoted cs with
          | some (_, rest) => some rest
          | none => if publicAlone then some rest else none
      | none => if publicAlone then some rest else none
where
  /-- Whether a public identifier may hold the character. -/
  isPublic (c : Char) : Bool :=
    c.isAlphanum || " \n\r-'()+,./:=?;!*#@$_%".toList.contains c

/-- The text of an entity: references to characters are replaced, others are left in place. -/
def entityText : Nat → List Char → Option (List Char)
  | _, [] => some []
  | 0, _ => none
  | _, '%' :: _ => none
  | fuel + 1, '&' :: rest =>
      match readReference rest with
      | some (.character c, rest) => (entityText fuel rest).map (c :: ·)
      | some (.entity name, rest) => (entityText fuel rest).map (('&' :: name ++ [';']) ++ ·)
      | none => none
  | fuel + 1, c :: rest => (entityText fuel rest).map (c :: ·)

/-- What follows a name list, each name separated by bars, in parentheses. -/
def afterNames (read : List Char → Option (List Char × List Char)) :
    Nat → List Char → Option (List Char)
  | 0, _ => none
  | fuel + 1, cs => do
      let (_, rest) ← read (skipSpace cs)
      match skipSpace rest with
      | ')' :: rest => some rest
      | '|' :: rest => afterNames read fuel rest
      | _ => none

def readToken (cs : List Char) : Option (List Char × List Char) :=
  let isPart (c : Char) : Bool := isNameChar c || c = ':'
  if (cs.head?).any isPart then some (cs.takeWhile isPart, cs.dropWhile isPart) else none

/-- What follows a mark of repetition, if there is one. -/
def afterRepeat : List Char → List Char
  | '?' :: rest => rest
  | '*' :: rest => rest
  | '+' :: rest => rest
  | cs => cs

/-- What follows a group of content particles, whose parenthesis is read already. -/
def afterGroup : Nat → Option Char → List Char → Option (List Char)
  | 0, _, _ => none
  | fuel + 1, separator, cs => do
      let cs := skipSpace cs
      let rest ← match cs with
        | '(' :: inner => afterGroup fuel none inner
        | cs => (readDeclared cs).map fun p => afterRepeat p.2
      match skipSpace rest with
      | ')' :: rest => some (afterRepeat rest)
      | c :: rest =>
          if c = ',' || c = '|' then
            if separator.all (· = c) then afterGroup fuel (some c) rest else none
          else none
      | [] => none

/-- What follows a mixed content model, whose start is read already. -/
def afterMixed (cs : List Char) : Option (List Char) :=
  match skipSpace cs with
  | ')' :: '*' :: rest => some rest
  | ')' :: rest => some rest
  | '|' :: rest =>
      match afterNames readDeclared rest.length rest with
      | some ('*' :: rest) => some rest
      | _ => none
  | _ => none

def afterModel (cs : List Char) : Option (List Char) :=
  match after "EMPTY" cs, after "ANY" cs, cs with
  | some rest, _, _ => some rest
  | _, some rest, _ => some rest
  | _, _, '(' :: inner =>
      match after "#PCDATA" (skipSpace inner) with
      | some rest => afterMixed rest
      | none => afterGroup (inner.length + 1) none inner
  | _, _, _ => none

/-- Whether an attribute's values are any text, and what follows its kind. -/
def readKind (cs : List Char) : Option (Bool × List Char) :=
  let words := ["CDATA", "IDREFS", "IDREF", "ID", "ENTITIES", "ENTITY", "NMTOKENS", "NMTOKEN"]
  match words.findSome? fun word => (after word cs).map (word == "CDATA", ·) with
  | some kind => some kind
  | none =>
      match after "NOTATION" cs, cs with
      | some rest, _ =>
          match needSpace rest with
          | some ('(' :: rest) => (afterNames readName rest.length rest).map (false, ·)
          | _ => none
      | _, '(' :: rest => (afterNames readToken rest.length rest).map (false, ·)
      | _, _ => none

def readFallback (cs : List Char) : Option (Option (List Char) × List Char) :=
  let quoted (cs : List Char) : Option (Option (List Char) × List Char) :=
    (readQuoted cs).map fun p => (some p.1, p.2)
  match after "#REQUIRED" cs, after "#IMPLIED" cs, after "#FIXED" cs with
  | some rest, _, _ => some (none, rest)
  | _, some rest, _ => some (none, rest)
  | _, _, some rest => (needSpace rest).bind quoted
  | _, _, _ => quoted cs

def afterClose (cs : List Char) : Option (List Char) :=
  after ">" (skipSpace cs)

/-! ## Declarations -/

namespace DocumentType

/-- Whether a reference may be to an entity that is not known. -/
def mayLack (d : DocumentType) : Bool :=
  d.isOpen && !d.standsAlone

/-- A text as part of an attribute's value: blanks are spaces, and references are replaced, with
those in entities followed `depth` deep. -/
def expandWithin (d : DocumentType) : Nat → Nat → List Char → Option (List Char)
  | _, _, [] => some []
  | _, 0, _ => none
  | depth, fuel + 1, c :: rest =>
      if c = '<' then none
      else if c = '&' then
        match readReference rest with
        | none => none
        | some (.character c, rest) => (expandWithin d depth fuel rest).map (c :: ·)
        | some (.entity name, rest) => do
            let text ← match predefined.lookup name, d.entities.lookup name, depth with
              | some c, _, _ => some [c]
              | none, some (.inner text), depth + 1 =>
                  let text := withLineFeeds text
                  expandWithin d depth text.length text
              | none, some _, _ => none
              | none, none, _ => if d.mayLack then some [] else none
            (expandWithin d depth fuel rest).map (text ++ ·)
      else (expandWithin d depth fuel rest).map ((if isSpace c then ' ' else c) :: ·)
termination_by depth fuel => (depth, fuel)

def tokens (cs : List Char) : List Char :=
  let joined := cs.foldr (fun c rest =>
    if c = ' ' && rest.head?.all (· = ' ') then rest else c :: rest) []
  joined.dropWhile (· = ' ')

def value? (d : DocumentType) (isText : Bool) (written : List Char) : Option (List Char) :=
  let cs := withLineFeeds written
  (d.expandWithin (d.entities.length + 1) cs.length cs).map fun value =>
    if isText then value else tokens value

/-- The declarations with one more entity; the first of several for one name counts. -/
def declare (d : DocumentType) (name : List Char) (e : Entity) : DocumentType :=
  if (predefined.lookup name).isSome then d
  else { d with entities := d.entities ++ [(name, e)] }

/-- The declarations with one more attribute of an element; the first of several counts. -/
def declareAttribute (d : DocumentType) (element name : List Char) (a : Attribute) : DocumentType :=
  { d with attributes := d.attributes ++ [((element, name), a)] }

def readAttributes (element : List Char) : Nat → DocumentType → List Char →
    Option (DocumentType × List Char)
  | 0, _, _ => none
  | fuel + 1, d, cs =>
      match skipSpace cs with
      | '>' :: rest => some (d, rest)
      | _ => do
          let (name, rest) ← readDeclared (← needSpace cs)
          let (isText, rest) ← readKind (← needSpace rest)
          let (written, rest) ← readFallback (← needSpace rest)
          if d.isRead then
            let fallback ← match written with
              | some written => (d.value? isText written).map some
              | none => some none
            readAttributes element fuel (d.declareAttribute element name ⟨isText, fallback⟩) rest
          else readAttributes element fuel d rest

/-- The declarations after one of an entity, whose start is read already, and what follows. -/
def readEntity (d : DocumentType) (cs : List Char) : Option (DocumentType × List Char) := do
  let cs ← needSpace cs
  let parameter := after "%" cs
  let cs ← match parameter with
    | some rest => needSpace rest
    | none => some cs
  let (name, rest) ← readName cs
  let cs ← needSpace rest
  match readQuoted cs with
  | some (value, rest) => do
      let rest ← afterClose rest
      if d.isRead then
        let text := withLineFeeds value
        let text ← entityText text.length text
        some (if parameter.isSome then d else d.declare name (.inner text), rest)
      else some (d, rest)
  | none => do
      let rest ← afterExternal false cs
      let unparsed := (needSpace rest).bind (after "NDATA")
      let rest ← match parameter, unparsed with
        | none, some rest => (readName (← needSpace rest)).map (·.2)
        | _, _ => some rest
      let rest ← afterClose rest
      some (if parameter.isSome || !d.isRead then d else d.declare name .outer, rest)

/-- The declarations in brackets, whose start is read already, and what follows. -/
def readSubset : Nat → DocumentType → List Char → Option (DocumentType × List Char)
  | 0, _, _ => none
  | fuel + 1, d, cs =>
      let cs := skipSpace cs
      let next (rest : Option (List Char)) : Option (DocumentType × List Char) :=
        rest.bind (readSubset fuel d)
      match after "]" cs, after "%" cs, after "<!--" cs, after "<?" cs with
      | some rest, _, _, _ => some (d, rest)
      | _, some rest, _, _ =>
          match readName rest with
          | some (_, ';' :: rest) =>
              readSubset fuel { d with isOpen := true, isRead := d.standsAlone } rest
          | _ => none
      | _, _, some rest, _ => next (afterComment rest)
      | _, _, _, some rest => next (afterInstruction rest)
      | _, _, _, _ =>
          match after "<!ENTITY" cs, after "<!ELEMENT" cs, after "<!ATTLIST" cs,
            after "<!NOTATION" cs with
          | some rest, _, _, _ => (d.readEntity rest).bind fun p => readSubset fuel p.1 p.2
          | _, some rest, _, _ => next do
              let (_, rest) ← readDeclared (← needSpace rest)
              afterClose (← afterModel (← needSpace rest))
          | _, _, some rest, _ => do
              let (element, rest) ← readDeclared (← needSpace rest)
              let (d, rest) ← readAttributes element rest.length d rest
              readSubset fuel d rest
          | _, _, _, some rest => next do
              let (_, rest) ← readName (← needSpace rest)
              afterClose (← afterExternal true (← needSpace rest))
          | _, _, _, _ => none

/-- The document type, whose start is read already, and what follows. -/
def read (standsAlone : Bool) (cs : List Char) : Option (DocumentType × List Char) := do
  let (_, rest) ← readDeclared (← needSpace cs)
  let named := (needSpace rest).bind (afterExternal false)
  let d : DocumentType := { plain standsAlone with isOpen := named.isSome }
  match skipSpace (named.getD rest) with
  | '[' :: inner => do
      let (d, rest) ← readSubset inner.length d inner
      (afterClose rest).map (d, ·)
  | rest => (afterClose rest).map (d, ·)

end DocumentType

end Raml.Xml
