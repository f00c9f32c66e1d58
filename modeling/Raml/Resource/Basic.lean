import Raml.Method
import Raml.Resource.Template
import Raml.Validation.DataType

/-! # Resources

A resource has a URI that extends its parent's, methods by their verbs, and
resources nested in it. What it matches and what it inherits follows from its
place in the tree.
-/

namespace Raml

structure Resource where
  uri : String
  relativeUri : String
  displayName : String
  description : Option String
  baseUriParameters : Parameters
  uriParameters : Parameters
  securitySchemes : SecuritySchemes
  annotations : Annotations
  methods : Table String Method
  resources : List (String × Resource)

def withoutQuery (uri : String) : String :=
  Text.before '?' uri

namespace Resource

/-- The method of a verb, which may be written in any case. -/
def method (r : Resource) (verb : String) : Except Fault Method :=
  match r.methods.get? (Text.upper verb) with
  | some m => .ok m
  | none => .error (.methodNotFound verb)

def uriPattern (r : Resource) : String :=
  Template.pattern r.uriParameters (Template.ofUri r.uri)

/-- Whether a URI is one of the resource's; its query does not matter. -/
def matchesUri (r : Resource) (uri : String) : Except Fault Bool := do
  let node ← Json.Assertion.patternOf r.uriPattern
  .ok (node.matchesStart (withoutQuery uri))

mutual

def preorder : Resource → List Resource
  | ⟨a, b, c, d, e, f, g, h, i, resources⟩ =>
      ⟨a, b, c, d, e, f, g, h, i, resources⟩ :: preorderAll resources
termination_by structural r => r

def preorderAll : List (String × Resource) → List Resource
  | [] => []
  | r :: rest => preorderOne r ++ preorderAll rest
termination_by structural rs => rs

def preorderOne : String × Resource → List Resource
  | (_, r) => preorder r
termination_by structural r => r

end

end Resource

end Raml
