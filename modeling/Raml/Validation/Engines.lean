import Raml.Json.Reader
import Raml.Json.Schema.Checker
import Raml.Xml.Document

/-! # Engines

What checks of values ask others for: whether a regular expression occurs in a
text, what a JSON text decodes to and what a schema says of it, and whether a
text is an XML document. The checks take any engines; the standard ones are
those of this library.
-/

namespace Raml

namespace Validation

/-- Why a text is not decoded. -/
inductive Undecoded
  | malformed (message : String)
  | failed (fault : Fault)

class Engines where
  occurs : (pattern text : String) → Except Fault Bool
  /-- A JSON document once it is decoded. -/
  Document : Type
  decode : String → Except Undecoded Document
  ofValue : Value → Document
  verdict : (schema : Mapping) → Document → Json.Verdict
  isXml : String → Except Fault Bool

def decodeText (s : String) : Except Undecoded Value :=
  match Json.read s with
  | .ok v => .ok v
  | .error (.malformed problem _) => .error (.malformed problem.message)
  | .error .tooManyDigits => .error (.failed .badValue)

/-- Whether a text is an XML document; one with half of a surrogate pair cannot be encoded. -/
def readsXml (s : String) : Except Fault Bool :=
  if s.toList.any Text.isStandIn then .error .badValue else .ok (Xml.isWellFormed s)

instance Engines.standard : Engines where
  occurs pattern text := (Json.Assertion.patternOf pattern).map fun node => node.search text
  Document := Value
  decode := decodeText
  ofValue v := v
  verdict := Json.verdict
  isXml := readsXml

end Validation

end Raml
