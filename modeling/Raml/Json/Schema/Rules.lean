import Raml.Json.Schema.Basic
import Raml.Pattern.Reader

/-! # Well-formed JSON schemas

Each draft says what may stand under each keyword of a schema. A schema is
checked against the rules of the draft that it declares, its subschemas by the
same rules; keywords without a rule may hold anything.
-/

namespace Raml

namespace Json

inductive Rule
  | text
  /-- A text that is a regular expression. -/
  | pattern
  | anchor (colon : Bool)
  | identifier
  | boolean
  | number
  | positive
  | count
  | list
  /-- A list of values, not empty and without repetition if `strict`. -/
  | members (strict : Bool)
  /-- A list of texts without repetition, not empty if so required. -/
  | texts (nonEmpty : Bool)
  | typeWords
  | schema
  | schemas
  /-- A mapping to schemas, its keys being regular expressions if so required. -/
  | schemaMap (patternKeys : Bool)
  | schemaOrSchemas
  | schemaOrBoolean
  | dependencies
  | textsMap
  | booleanMap
  /-- The rules of the oldest draft. -/
  | oldType
  | oldExtends
  | oldDependencies
  | free
deriving DecidableEq

/-- The rule of a keyword that the drafts from the second-oldest on share. -/
def commonRule : String → Rule
  | "$schema" | "title" | "description" | "format" => .text
  | "multipleOf" => .positive
  | "maximum" | "minimum" => .number
  | "maxLength" | "minLength" | "maxItems" | "minItems" | "maxProperties" | "minProperties" =>
      .count
  | "pattern" => .pattern
  | "uniqueItems" => .boolean
  | "type" => .typeWords
  | "allOf" | "anyOf" | "oneOf" => .schemas
  | "not" => .schema
  | "definitions" | "properties" => .schemaMap false
  | "dependencies" => .dependencies
  | _ => .free

def ruleD3 : String → Rule
  | "type" | "disallow" => .oldType
  | "extends" => .oldExtends
  | "dependencies" => .oldDependencies
  | "properties" | "patternProperties" => .schemaMap false
  | "additionalProperties" | "additionalItems" => .schemaOrBoolean
  | "items" => .schemaOrSchemas
  | "required" | "uniqueItems" | "exclusiveMinimum" | "exclusiveMaximum" => .boolean
  | "minimum" | "maximum" => .number
  | "divisibleBy" => .positive
  | "minItems" | "maxItems" | "minLength" => .count
  | "pattern" => .pattern
  | "enum" => .members true
  | "title" | "description" | "format" | "id" | "$ref" | "$schema" => .text
  | _ => .free

def ruleD4 : String → Rule
  | "id" => .text
  | "exclusiveMaximum" | "exclusiveMinimum" => .boolean
  | "additionalItems" | "additionalProperties" => .schemaOrBoolean
  | "items" => .schemaOrSchemas
  | "patternProperties" => .schemaMap false
  | "required" => .texts true
  | "enum" => .members true
  | key => commonRule key

/-- The rules that drafts 6 and 7 and both later ones share. -/
def ruleFromD6 : String → Rule
  | "$ref" | "$comment" | "contentMediaType" | "contentEncoding" => .text
  | "readOnly" | "writeOnly" => .boolean
  | "examples" => .list
  | "exclusiveMaximum" | "exclusiveMinimum" => .number
  | "additionalProperties" | "contains" | "propertyNames" => .schema
  | "patternProperties" => .schemaMap true
  | "required" => .texts false
  | "enum" => .members false
  | key => commonRule key

def ruleD6 : String → Rule
  | "$id" => .text
  | "$comment" | "contentMediaType" | "contentEncoding" | "readOnly" | "writeOnly" => .free
  | "additionalItems" => .schema
  | "items" => .schemaOrSchemas
  | key => ruleFromD6 key

def ruleD7 : String → Rule
  | "$id" => .text
  | "additionalItems" | "if" | "then" | "else" => .schema
  | "items" => .schemaOrSchemas
  | key => ruleFromD6 key

/-- The rules that the drafts of 2019 and 2020 share. -/
def ruleFrom2019 : String → Rule
  | "$id" => .identifier
  | "$vocabulary" => .booleanMap
  | "$defs" | "dependentSchemas" => .schemaMap false
  | "dependentRequired" => .textsMap
  | "maxContains" | "minContains" => .count
  | "deprecated" => .boolean
  | "if" | "then" | "else" | "unevaluatedItems" | "unevaluatedProperties" | "contentSchema" =>
      .schema
  | key => ruleFromD6 key

def rule2019 : String → Rule
  | "$anchor" => .anchor true
  | "$recursiveRef" => .text
  | "$recursiveAnchor" => .boolean
  | "additionalItems" => .schema
  | "items" => .schemaOrSchemas
  | key => ruleFrom2019 key

def rule2020 : String → Rule
  | "$anchor" | "$dynamicAnchor" | "$recursiveAnchor" => .anchor false
  | "$dynamicRef" | "$recursiveRef" => .text
  | "prefixItems" => .schemas
  | "items" => .schema
  | key => ruleFrom2019 key

def Draft.rule : Draft → String → Rule
  | .d3 => ruleD3
  | .d4 => ruleD4
  | .d6 => ruleD6
  | .d7 => ruleD7
  | .d2019 => rule2019
  | .d2020 => rule2020

/-! ## Values without subschemas -/

def isPattern (source : String) : Bool :=
  match Pattern.read source with
  | .ok _ => true
  | .error _ => false

/-- Whether a text is an anchor: a letter or an underscore, then letters, digits and marks. Up to
2019 a colon is a mark and the first character is a letter. -/
def isAnchor (colon : Bool) (text : String) : Bool :=
  match text.toList with
  | [] => false
  | c :: rest =>
      (c.isAlpha || (!colon && c = '_')) &&
        rest.all fun c => c.isAlphanum || c = '-' || c = '_' || c = '.' || (colon && c = ':')

/-- Whether a text has no fragment but an empty one. -/
def isIdentifier (text : String) : Bool :=
  let rest := text.toList.dropWhile (· ≠ '#')
  rest.length ≤ 1

/-- Whether a value is a number of at least zero that stands for an integer. -/
def isCount (draft : Draft) (v : Value) : Bool :=
  hasType draft "integer" v &&
    match number? v with
    | some n => !n.less (.int 0)
    | none => false

def isTexts (nonEmpty : Bool) : Value → Bool
  | .list items =>
      items.all (·.text?.isSome) && allDistinct items && !(nonEmpty && items.isEmpty)
  | _ => false

def isTypeWords : Value → Bool
  | .text word => isTypeWord word
  | .list items =>
      !items.isEmpty && allDistinct items &&
        items.all fun item =>
          match item with
          | .text word => isTypeWord word
          | _ => false
  | _ => false

/-- Whether a value that holds no subschemas follows a rule. -/
def Rule.admits (draft : Draft) (rule : Rule) (v : Value) : Bool :=
  match rule, v with
  | .text, v => v.text?.isSome
  | .pattern, .text source => isPattern source
  | .anchor colon, .text t => isAnchor colon t
  | .identifier, .text t => isIdentifier t
  | .boolean, .bool _ => true
  | .number, v => (number? v).isSome
  | .positive, v =>
      match number? v with
      | some n => !(n.less (.int 0) || n.isZero)
      | none => false
  | .count, v => isCount draft v
  | .list, .list _ => true
  | .members strict, .list items => !strict || (!items.isEmpty && allDistinct items)
  | .texts nonEmpty, v => isTexts nonEmpty v
  | .typeWords, v => isTypeWords v
  | .textsMap, .map entries => entries.all fun e => isTexts false e.2
  | .booleanMap, .map entries =>
      entries.all fun e => e.1.text?.isSome && hasType draft "boolean" e.2
  | .free, _ => true
  | _, _ => false

def havePatternKeys (entries : List (Value × Value)) : Bool :=
  entries.all fun e =>
    match e.1 with
    | .text source => isPattern source
    | _ => true

/-- Whether the keywords of draft 3 and 4 that need another one have it. -/
def haveCompanions (draft : Draft) (schema : Mapping) : Bool :=
  draft.isFrom .d6 ||
    ((!schema.hasField "exclusiveMinimum" || schema.hasField "minimum") &&
      (!schema.hasField "exclusiveMaximum" || schema.hasField "maximum"))

/-! ## Schemas -/

mutual

def isSchema (draft : Draft) : Value → Bool
  | .bool _ => draft.isFrom .d6
  | .map entries => haveCompanions draft entries && areKeywords draft entries
  | _ => false
termination_by structural v => v

def areKeywords (draft : Draft) : List (Value × Value) → Bool
  | [] => true
  | e :: rest => isKeyword draft e && areKeywords draft rest
termination_by structural es => es

def isKeyword (draft : Draft) : Value × Value → Bool
  | (k, v) =>
      match k with
      | .text key => follows draft (draft.rule key) v
      | _ => true
termination_by structural e => e

def follows (draft : Draft) (rule : Rule) : Value → Bool
  | .bool b =>
      match rule with
      | .schema | .schemaOrSchemas => draft.isFrom .d6
      | .schemaOrBoolean => true
      | rule => rule.admits draft (.bool b)
  | .map entries =>
      match rule with
      | .schema | .schemaOrSchemas | .schemaOrBoolean | .oldExtends =>
          haveCompanions draft entries && areKeywords draft entries
      | .schemaMap patternKeys =>
          areSchemaValues draft entries && (!patternKeys || havePatternKeys entries)
      | .dependencies => areDependencies draft false entries
      | .oldDependencies => areDependencies draft true entries
      | rule => rule.admits draft (.map entries)
  | .list items =>
      match rule with
      | .schemas => !items.isEmpty && areSchemas draft items
      | .schemaOrSchemas => (draft = .d3 || !items.isEmpty) && areSchemas draft items
      | .oldExtends => areSchemas draft items
      | .oldType => areOldTypes draft items && allDistinct items
      | rule => rule.admits draft (.list items)
  | .text s =>
      match rule with
      | .oldType => true
      | rule => rule.admits draft (.text s)
  | v => rule.admits draft v
termination_by structural v => v

def areSchemas (draft : Draft) : List Value → Bool
  | [] => true
  | v :: rest => isSchema draft v && areSchemas draft rest
termination_by structural vs => vs

/-- Whether all values are type words of draft 3: texts or schemas. -/
def areOldTypes (draft : Draft) : List Value → Bool
  | [] => true
  | v :: rest => (v.text?.isSome || isSchema draft v) && areOldTypes draft rest
termination_by structural vs => vs

def areSchemaValues (draft : Draft) : List (Value × Value) → Bool
  | [] => true
  | e :: rest => isSchemaValue draft e && areSchemaValues draft rest
termination_by structural es => es

def isSchemaValue (draft : Draft) : Value × Value → Bool
  | (_, v) => isSchema draft v
termination_by structural e => e

/-- Whether a mapping maps to schemas or lists of property names, in draft 3 also to single
names. -/
def areDependencies (draft : Draft) (old : Bool) : List (Value × Value) → Bool
  | [] => true
  | e :: rest => isDependency draft old e && areDependencies draft old rest
termination_by structural es => es

def isDependency (draft : Draft) (old : Bool) : Value × Value → Bool
  | (_, v) =>
      isSchema draft v ||
        (if old then
          match v with
          | .text _ => true
          | .list items => items.all (·.text?.isSome)
          | _ => false
        else isTexts (draft = .d4) v)
termination_by structural e => e

end

end Json

end Raml
