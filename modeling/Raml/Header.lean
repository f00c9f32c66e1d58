import Raml.Fault
import Raml.Text.Blank
import Raml.Text.Digit

/-! # Document headers

The first line of a document is `#%RAML`, a version and, for version 1.0, the
kind of fragment the document holds. Blanks around the line are ignored; one
blank stands before the version and at most one before the kind. A kind that is
not known is read as the default one, and version 0.8 has no kinds.
-/

namespace Raml

inductive Version
  | v08
  | v10
deriving DecidableEq

def Version.text : Version → String
  | .v08 => "0.8"
  | .v10 => "1.0"

def Version.ofText (raw : String) : Except Fault Version :=
  if raw = "0.8" then .ok .v08
  else if raw = "1.0" then .ok .v10
  else .error (.version raw)

inductive Fragment
  | documentationItem
  | dataType
  | namedExample
  | resourceType
  | trait
  | annotationTypeDeclaration
  | library
  | overlay
  | extension
  | securityScheme
  | default
deriving DecidableEq

namespace Fragment

def text : Fragment → String
  | .documentationItem => "DocumentationItem"
  | .dataType => "DataType"
  | .namedExample => "NamedExample"
  | .resourceType => "ResourceType"
  | .trait => "Trait"
  | .annotationTypeDeclaration => "AnnotationTypeDeclaration"
  | .library => "Library"
  | .overlay => "Overlay"
  | .extension => "Extension"
  | .securityScheme => "SecurityScheme"
  | .default => "Default"

def all : List Fragment :=
  [.documentationItem, .dataType, .namedExample, .resourceType, .trait,
    .annotationTypeDeclaration, .library, .overlay, .extension, .securityScheme, .default]

/-- The kind with the given text, the default one if there is none. -/
def ofText (raw : String) : Fragment :=
  (all.find? fun f => f.text = raw).getD .default

end Fragment

/-- A document's version and the kind of fragment it holds. -/
structure Header where
  version : Version
  fragment : Option Fragment
deriving DecidableEq

namespace Header

def text (h : Header) : String :=
  "#%RAML " ++ h.version.text ++
    match h.fragment with
    | none => ""
    | some f => " " ++ f.text

/-- The version and the letters that a trimmed line holds after its marker. -/
def readParts? : List Char → Option (List Char × List Char)
  | '#' :: '%' :: 'R' :: 'A' :: 'M' :: 'L' :: blank :: major :: '.' :: minor :: rest =>
      let letters := match rest with
        | c :: more => if Text.isBlank c then more else rest
        | [] => []
      if Text.isBlank blank && Text.isDecimalDigit major && Text.isDecimalDigit minor &&
          letters.all Char.isAlpha then
        some ([major, '.', minor], letters)
      else none
  | _ => none

def ofLine (line : String) : Except Fault Header :=
  match readParts? (Text.trim line).toList with
  | none => .error (.header line)
  | some (version, letters) => do
      let v ← Version.ofText (String.ofList version)
      if v = .v08 || letters.isEmpty then .ok ⟨v, none⟩
      else .ok ⟨v, some (.ofText (String.ofList letters))⟩

end Header

end Raml
