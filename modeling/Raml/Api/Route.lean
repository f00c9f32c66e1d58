import Raml.Api.Basic

/-! # Routes

The tree of resources flattened: one route for each method of each resource,
known by its verb and path. Of several routes for one verb and path the last
one counts, in the place of the first.
-/

namespace Raml

structure Route where
  baseUrl : Option String
  path : String
  protocols : List Protocol
  verb : String
  uriParameters : Parameters
  method : Method

def Route.key (r : Route) : String :=
  r.verb ++ " " ++ r.path

namespace Api

/-- The base URL that routes have; it has to be a text. -/
def routeBase (a : Api) : Except Fault (Option String) := do
  let url ← a.baseUrl
  (Field.given "base_url" url (Field.optional Field.text?)).toExcept .route

def routesOf (a : Api) (baseUrl : Option String) (r : Resource) : List Route :=
  r.methods.map fun e =>
    { baseUrl, path := r.uri, protocols := a.protocols, verb := e.1,
      uriParameters := r.uriParameters, method := e.2 }

def hasMethods (a : Api) : Bool :=
  a.allResources.any fun r => !r.methods.isEmpty

def routes (a : Api) : Except Fault (Table String Route) :=
  if a.hasMethods then do
    let baseUrl ← a.routeBase
    .ok (Table.ofList ((a.allResources.flatMap (a.routesOf baseUrl)).map fun r => (r.key, r)))
  else .ok []

end Api

end Raml
