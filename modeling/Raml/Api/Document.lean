import Raml.Api.Build
import Raml.Yaml.Meaning

/-! # Documents

A document is a header line and a YAML mapping with a title, from which the API
definition is built. Fragments of other kinds are not API definitions.
-/

namespace Raml

/-- A document that is decoded but not yet an API. -/
structure Document where
  version : Version
  title : String
  entries : Mapping

namespace Document

def checkFragment (h : Header) : Except Fault Unit :=
  match h.fragment with
  | none | some .default => .ok ()
  | some f => .error (.fragment f.text)

def ofText (text : String) : Except Fault Document := do
  let header ← Header.ofLine (Text.before '\n' text)
  checkFragment header
  match ← Yaml.read text with
  | .map entries =>
      let title := Mapping.field entries "title"
      if title.isEmpty then .error .untitled
      else .ok ⟨header.version, title.shown, entries⟩
  | _ => .error .rootNotMapping

end Document

namespace Api

def ofDocument (d : Document) : Traced Api :=
  let change := ofDefinition (.text d.title) (.map d.entries) []
  ⟨change.events, change.outcome.map fun a => { a with ramlVersion := some d.version }⟩

def ofText (text : String) : Traced Api := do
  let d ← (Document.ofText text : Except Fault Document)
  ofDocument d

end Api

end Raml
