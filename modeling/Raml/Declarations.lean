import Raml.Annotation
import Raml.Security

/-! # Declarations of an API

What an API declares once and its resources refer to: types, annotation types,
security schemes, and what holds for every resource that does not say
otherwise.
-/

namespace Raml

structure Declarations where
  types : Registry
  /-- The media type of bodies that do not name one; any value may stand there. -/
  mediaType : Value
  baseUriParameters : Parameters
  annotationTypes : AnnotationTypes
  securitySchemes : SecuritySchemes
  securedBy : SecuritySchemes

namespace Declarations

def empty : Declarations := ⟨[], .null, [], [], [], []⟩

/-- The parameters of an optional mapping, their types being declared ones. -/
def parameters (d : Declarations) (required : Bool) (v : Value) : Traced Parameters :=
  Parameter.ofOptional (some d.types) required v

end Declarations

end Raml
