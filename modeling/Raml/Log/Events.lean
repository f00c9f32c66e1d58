import Raml.Event
import Raml.Log.Basic

/-! # Records of events

The wording and the levels of what is told while a document is read.
-/

namespace Raml

def Event.record : Event → Log.Record
  | .mention name target =>
      ⟨"raml_parser.typesystem.determine", Log.debug,
        "Type '" ++ name ++ "' refers to '" ++ target ++ "', resolving lazily"⟩
  | .registered key kind =>
      ⟨"raml_parser.typesystem.registry", Log.debug,
        "Registering type '" ++ key ++ "' (" ++ kind.text ++ ")"⟩
  | .inherited name parent =>
      ⟨"raml_parser.typesystem.registry", Log.debug,
        "Resolved type '" ++ name ++ "' from parent '" ++ parent ++ "'"⟩
  | .resource uri methods =>
      ⟨"raml_parser.model.resource", Log.debug,
        "Parsed resource '" ++ uri ++ "' (" ++ toString methods ++ " methods)"⟩
  | .api title types resources =>
      ⟨"raml_parser.model.api_definition", Log.debug,
        "Parsed API '" ++ title ++ "': " ++ toString types ++ " types, " ++ toString resources ++
          " top-level resources"⟩
  | .loaded path title routes =>
      ⟨"raml_parser.loader", Log.info,
        "Loaded " ++ path ++ ": '" ++ title ++ "' with " ++ toString routes ++ " routes"⟩

end Raml
