import Raml.Value.Text

/-! # Constraints

What a value has to satisfy, as the message of a violation names it.
-/

namespace Raml

inductive Constraint
  | memberOf (members : List Value)
  | isText
  | minLength (n : Int)
  | maxLength (n : Int)
  | pattern (source : String)
  | isNumber
  | isInteger
  | minimum (n : Number)
  | maximum (n : Number)
  | multipleOf (n : Number)
  | integerFormat (format : String)
  | isBoolean
  | isNull
  | isFile
  | minSize (n : Int)
  | maxSize (n : Int)
  | isObject
  | minProperties (n : Int)
  | maxProperties (n : Int)
  | requiredProperty
  | noProperties (keys : List Value)
  | isArray
  | minItems (n : Int)
  | maxItems (n : Int)
  | uniqueItems
  | someMember (names : List String)
  | temporalFormat (label : String)
  | isJson (problem : String)
  | jsonSchema (message : String)
  | isXml
  | wellFormedXml
  | requiredParameter
  | parameterPattern (source : String)

def Constraint.message : Constraint → String
  | .memberOf members => "Value must be one of: " ++ ", ".intercalate (members.map Value.shown) ++ "."
  | .isText => "Value is not a string."
  | .minLength n => "Minimum allowed length: " ++ toString n ++ "."
  | .maxLength n => "Maximum allowed length: " ++ toString n ++ "."
  | .pattern source => "String does not match required pattern: " ++ source ++ "."
  | .isNumber => "Value is not a number."
  | .isInteger => "Value is not an integer."
  | .minimum n => "Minimum allowed value: " ++ n.text ++ "."
  | .maximum n => "Maximum allowed value: " ++ n.text ++ "."
  | .multipleOf n => "Value must be a multiple of " ++ n.text ++ "."
  | .integerFormat format => "Value is out of range for format " ++ format ++ "."
  | .isBoolean => "Value is not a boolean."
  | .isNull => "Value is not null."
  | .isFile => "Value is not file content."
  | .minSize n => "Minimum allowed file size: " ++ toString n ++ " bytes."
  | .maxSize n => "Maximum allowed file size: " ++ toString n ++ " bytes."
  | .isObject => "Value is not an object."
  | .minProperties n => "Minimum allowed number of properties: " ++ toString n ++ "."
  | .maxProperties n => "Maximum allowed number of properties: " ++ toString n ++ "."
  | .requiredProperty => "Property is required."
  | .noProperties keys =>
      "Additional properties are not allowed: " ++ ", ".intercalate (keys.map Value.shown) ++ "."
  | .isArray => "Value is not an array."
  | .minItems n => "Minimum allowed number of items: " ++ toString n ++ "."
  | .maxItems n => "Maximum allowed number of items: " ++ toString n ++ "."
  | .uniqueItems => "Array items must be unique."
  | .someMember names =>
      "Value does not match any of the union types: " ++ ", ".intercalate names ++ "."
  | .temporalFormat label => "Value is not conform format: " ++ label ++ "."
  | .isJson problem => "Invalid JSON: " ++ problem ++ "."
  | .jsonSchema message => message
  | .isXml => "Value is not an XML document."
  | .wellFormedXml => "Invalid XML"
  | .requiredParameter => "Parameter is required."
  | .parameterPattern source => "Value does not match pattern: " ++ source ++ "."

end Raml
