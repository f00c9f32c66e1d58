import Raml.Constraint

/-! # Faults

Everything that can end an operation without a result, by its cause. Faults of
the documented families carry a message; the others stop an operation on data
of a shape it was not made for, and only their cause is known.
-/

namespace Raml

/-- The records whose fields are checked when they are built. -/
inductive Record
  | anyType
  | stringType
  | numberType
  | integerType
  | booleanType
  | nilType
  | fileType
  | objectType
  | arrayType
  | unionType
  | jsonType
  | xmlType
  | referenceType
  | dateOnlyType
  | timeOnlyType
  | dateTimeOnlyType
  | dateTimeType
  | parameter
  | securityScheme
  | securityDescription
  | annotationType
  | annotationUse
  | body
  | response
  | method
  | resource
  | api
  | route
deriving DecidableEq

/-- A mapping that was expected where a definition has something else. -/
inductive Misplaced
  | parameter (key : String)
  | securityScheme (key : String)
  | method (verb : String)
  | resource (uri : String)
  | body (name : String)

/-- Why an operation has no result. -/
inductive Fault
  /-- The first line is not a header. -/
  | header (line : String)
  /-- The header names a version that is not supported. -/
  | version (raw : String)
  /-- The document is a fragment and not an API definition. -/
  | fragment (name : String)
  /-- The text is not a YAML document. -/
  | yaml
  | rootNotMapping
  | untitled
  | typeName (name : Value)
  | typeExpression (name : String) (expression : Value)
  | typeDefinition (definition : Value)
  | properties (name : String)
  | misplaced (what : Misplaced)
  | parameterType (key : String)
  /-- A parameter's type names a type while no types are known. -/
  | parameterReference (target key : String)
  | documentation
  | documentationItem
  /-- A resource's key does not start with a slash. -/
  | uri (uri : Value)
  | protocol (text : String)
  /-- Both `schemas` and `types` are declared. -/
  | exclusive
  | schemas
  | schemaCollection
  | schemaDefinition (name : String)
  /-- The text of a JSON schema is not JSON. -/
  | schemaText (name problem : String)
  /-- A JSON schema breaks the rules of its draft. -/
  | schemaRules (name : String)
  | unknownTarget (target : String)
  | forbiddenTarget (key target : String)
  | undefinedScheme (key : String)
  | undefinedAnnotationType (key : String)
  | unresolvedType (target : String) (referencedBy : Option String)
  | inheritanceCycle (chain : List String)
  /-- A value breaks a constraint; `subject` is the name it is reported under. -/
  | violation (subject : String) (constraint : Constraint)
  | resourceNotFound (uri : String)
  | methodNotFound (verb : String)
  /-- A record was built from fields of the wrong kind. -/
  | badFields (record : Record) (fields : List String)
  /-- A regular expression cannot be read. -/
  | badPattern
  /-- A reference inside a JSON schema leads nowhere. -/
  | schemaReference
  /-- A mapping was asked for where there is none. -/
  | notMapping
  /-- A value of the wrong kind was used. -/
  | wrongKind
  /-- A value of the right kind is out of its domain. -/
  | badValue
  /-- A number is too large. -/
  | overflow
  /-- A key that has to be there is not. -/
  | missingKey
  /-- A text ends before a character that has to be there. -/
  | beyondEnd
  /-- A text has not the form that it is said to have. -/
  | formless
  /-- The bytes of a document are not UTF-8. -/
  | undecodable
  /-- A document's path names a directory. -/
  | directory
  /-- Checking a value came back to the same value and type. -/
  | endless

inductive Fault.Family
  | parser
  | definition
  | uri
  | protocol
  | exclusive
  | schema
  | annotationTarget
  | undefinedScheme
  | undefinedAnnotationType
  | unresolvedType
  | inheritanceCycle
  | validation
  | resourceNotFound
  | methodNotFound
  /-- Not one of the documented families. -/
  | other
deriving DecidableEq

namespace Fault

def family : Fault → Family
  | .header _ | .version _ | .fragment _ | .yaml => .parser
  | .rootNotMapping | .untitled | .typeName _ | .typeExpression _ _ | .typeDefinition _
  | .properties _ | .misplaced _ | .parameterType _ | .parameterReference _ _
  | .documentation | .documentationItem => .definition
  | .uri _ => .uri
  | .protocol _ => .protocol
  | .exclusive => .exclusive
  | .schemas | .schemaCollection | .schemaDefinition _ | .schemaText _ _ | .schemaRules _ => .schema
  | .unknownTarget _ | .forbiddenTarget _ _ => .annotationTarget
  | .undefinedScheme _ => .undefinedScheme
  | .undefinedAnnotationType _ => .undefinedAnnotationType
  | .unresolvedType _ _ => .unresolvedType
  | .inheritanceCycle _ => .inheritanceCycle
  | .violation _ _ => .validation
  | .resourceNotFound _ => .resourceNotFound
  | .methodNotFound _ => .methodNotFound
  | .badFields _ _ | .badPattern | .schemaReference | .notMapping | .wrongKind | .badValue
  | .overflow | .missingKey | .beyondEnd | .formless | .undecodable | .directory | .endless => .other

def isDocumented (f : Fault) : Bool :=
  f.family != .other

/-- Whether a query had no result. -/
def isNotFound (f : Fault) : Bool :=
  f.family == .resourceNotFound || f.family == .methodNotFound

def misplacedMessage : Misplaced → String
  | .parameter key => "Invalid definition for parameter '" ++ key ++ "'"
  | .securityScheme key => "Invalid definition for security scheme '" ++ key ++ "'"
  | .method verb => "Invalid definition for method '" ++ verb ++ "'"
  | .resource u => "Invalid definition for resource '" ++ u ++ "'"
  | .body name => "Invalid body definition for '" ++ name ++ "'"

def message : Fault → String
  | .header line => "Invalid RAML header: " ++ Text.quoted line
  | .version raw => "Invalid RAML version: " ++ raw
  | .fragment name => "A " ++ name ++ " fragment is not an API definition"
  | .yaml => "Invalid RAML document"
  | .rootNotMapping => "The RAML document root must be a mapping"
  | .untitled => "The RAML document has no title"
  | .typeName name =>
      "Type name must be a string, got " ++ name.kindWord ++ ": " ++ name.inspected
  | .typeExpression name expression =>
      "Type expression of '" ++ name ++ "' must be a string, got " ++ expression.kindWord
  | .typeDefinition definition =>
      "Invalid datatype for type definition: " ++ definition.kindWord
  | .properties name => "Properties of '" ++ name ++ "' must be a mapping"
  | .misplaced what => misplacedMessage what
  | .parameterType key => "Type of parameter '" ++ key ++ "' must be a type expression"
  | .parameterReference target key =>
      "'" ++ target ++ "' is not a valid type for parameter '" ++ key ++ "'"
  | .documentation => "'documentation' must be a list of title/content items"
  | .documentationItem => "Each documentation item needs a title"
  | .uri v => "URI must begin with a /: " ++ v.inspected
  | .protocol text => "\"" ++ text ++ "\" is not a valid protocol"
  | .exclusive => "'schemas' and 'types' are mutually exclusive"
  | .schemas => "'schemas' must be a list or a mapping"
  | .schemaCollection => "Each schema collection must be a mapping"
  | .schemaDefinition name => "Invalid schema definition for '" ++ name ++ "'"
  | .schemaText name problem => "Invalid JSON schema for '" ++ name ++ "': " ++ problem
  | .schemaRules name => "Invalid JSON schema for '" ++ name ++ "'"
  | .unknownTarget target =>
      "The '" ++ target ++ "' target is not a valid target for annotations."
  | .forbiddenTarget key target =>
      "The '" ++ key ++ "' annotation type cannot be used at this location (" ++ target ++ ")."
  | .undefinedScheme key => "There is no security scheme named '" ++ key ++ "'"
  | .undefinedAnnotationType key =>
      "There is no annotationType defined for a '" ++ key ++ "' annotation"
  | .unresolvedType target referencedBy =>
      "Type '" ++ target ++ "' is not declared" ++
        match referencedBy with
        | some name => if name.isEmpty then "" else " (referenced by '" ++ name ++ "')"
        | none => ""
  | .inheritanceCycle chain => "Cyclic type inheritance: " ++ " -> ".intercalate chain
  | .violation subject constraint => subject ++ ": " ++ constraint.message
  | .resourceNotFound u => "Resource not found for uri '" ++ u ++ "'"
  | .methodNotFound verb => "Method not found: '" ++ verb ++ "'"
  | .badFields _ _ | .badPattern | .schemaReference | .notMapping | .wrongKind | .badValue
  | .overflow | .missingKey | .beyondEnd | .formless | .undecodable | .directory | .endless => ""

end Fault

end Raml
