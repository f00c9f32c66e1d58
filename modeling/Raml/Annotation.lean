import Raml.DataType.Mentions
import Raml.Validation.DataType
import Raml.Value.Reading

/-! # Annotations

An annotation stands under a key in parentheses. The annotation type of that
name has to be declared and may restrict the nodes that it is used on. Values of
annotations are kept as they are; the annotation type can check them.
-/

namespace Raml

inductive AnnotationTarget
  | api
  | documentationItem
  | resource
  | method
  | response
  | requestBody
  | responseBody
  | typeDeclaration
  | sample
  | resourceType
  | trait
  | securityScheme
  | securitySchemeSettings
  | annotationType
  | library
  | overlay
  | extension
deriving DecidableEq

namespace AnnotationTarget

def text : AnnotationTarget → String
  | .api => "API"
  | .documentationItem => "DocumentationItem"
  | .resource => "Resource"
  | .method => "Method"
  | .response => "Response"
  | .requestBody => "RequestBody"
  | .responseBody => "ResponseBody"
  | .typeDeclaration => "TypeDeclaration"
  | .sample => "Example"
  | .resourceType => "ResourceType"
  | .trait => "Trait"
  | .securityScheme => "SecurityScheme"
  | .securitySchemeSettings => "SecuritySchemeSettings"
  | .annotationType => "AnnotationType"
  | .library => "Library"
  | .overlay => "Overlay"
  | .extension => "Extension"

def all : List AnnotationTarget :=
  [.api, .documentationItem, .resource, .method, .response, .requestBody, .responseBody,
    .typeDeclaration, .sample, .resourceType, .trait, .securityScheme, .securitySchemeSettings,
    .annotationType, .library, .overlay, .extension]

def ofText? (word : String) : Option AnnotationTarget :=
  all.find? fun t => t.text == word

def ofValue (v : Value) : Except Fault AnnotationTarget :=
  match v.text?.bind ofText? with
  | some target => .ok target
  | none => .error (.unknownTarget v.shown)

end AnnotationTarget

structure AnnotationType where
  key : String
  displayName : Option String
  description : Option String
  allowedTargets : List AnnotationTarget
  valueType : Option DataType

abbrev AnnotationTypes := Table String AnnotationType

namespace AnnotationType

/-- The facets of an annotation type that do not belong to the type of its values. -/
def ownFacets : List String := ["allowedTargets", "displayName", "description"]

def declaration (definition : Value) : Except Fault Mapping :=
  match definition with
  | .null => .ok []
  | .text expression => .ok [(.text "type", .text expression)]
  | .map d => .ok d
  | _ => .error .notMapping

/-- The targets that a declaration allows: one, or several. -/
def targetsOf (v : Value) : Except Fault (List Value) :=
  match v with
  | .text word => .ok (if word.isEmpty then [] else [.text word])
  | v => v.optionalElements

def valueFacets (d : Mapping) : Mapping :=
  d.filter fun e => !ownFacets.any fun facet => e.1 == .text facet

def read (key : Value) (d : Mapping) (targets : List AnnotationTarget)
    (valueType : Option DataType) : Checked AnnotationType :=
  AnnotationType.mk
  <$> Field.given "key" key Field.text?
  <*> Field.given "display_name" ((d.field? "displayName").getD key) (Field.optional Field.text?)
  <*> Field.given "description" (d.field "description") (Field.optional Field.text?)
  <*> Checked.ok targets
  <*> Checked.ok valueType

def ofDefinition (registry : Option Registry) (key definition : Value) :
    Traced AnnotationType := do
  let d ← (declaration definition : Except Fault Mapping)
  let words ← (targetsOf (d.field "allowedTargets") : Except Fault (List Value))
  let targets ← (words.mapM AnnotationTarget.ofValue : Except Fault (List AnnotationTarget))
  let facets := valueFacets d
  let valueType ←
    if facets.isEmpty then pure none
    else some <$> DataType.tracedNamed registry.isSome key (.map facets)
  Traced.ofExcept ((read key d targets valueType).toExcept .annotationType)

def allows (t : AnnotationType) (target : AnnotationTarget) : Bool :=
  t.allowedTargets.isEmpty || t.allowedTargets.contains target

def validate (r : Registry) (t : AnnotationType) (v : Value) : Except Fault Unit :=
  match t.valueType with
  | some t => t.validate r v
  | none => .ok ()

end AnnotationType

structure Annotation where
  key : String
  value : Value

abbrev Annotations := Table String Annotation

namespace Annotation

/-- The name between the parentheses of an annotation's key: no line feed, and at least one
character. One line feed may follow the parentheses. -/
def nameOf? (key : String) : Option String :=
  match key.toList with
  | '(' :: rest =>
      -- only the last line feed may follow; one further in makes the key no annotation
      let rest := if rest.getLast? = some '\n' then rest.dropLast else rest
      if rest.getLast? = some ')' then
        let name := rest.dropLast
        if name.isEmpty || name.contains '\n' then none else some (String.ofList name)
      else none
  | _ => none

def ofUse (types : AnnotationTypes) (target : AnnotationTarget) (key : String) (v : Value) :
    Except Fault Annotation :=
  match types.get? key with
  | none => .error (.undefinedAnnotationType key)
  | some t => if t.allows target then .ok ⟨key, v⟩ else .error (.forbiddenTarget key target.text)

end Annotation

def Annotations.ofEntries (types : AnnotationTypes) (target : AnnotationTarget) (entries : Mapping) :
    Except Fault Annotations := do
  -- keys without parentheses are facets of the node and are read elsewhere
  let named := entries.filterMap fun e => Annotation.nameOf? e.1.shown |>.map (·, e.2)
  let found ← named.mapM fun e => Annotation.ofUse types target e.1 e.2
  .ok (Table.ofList (found.map fun a => (a.key, a)))

end Raml
