import Raml.DataType.Basic

/-! # Parameters

A parameter of a URI, a query or a header. Values of the usual scalar types are
checked by the parameter itself; for any other type expression the parameter
holds the type that checks them.
-/

namespace Raml

structure Parameter where
  key : String
  type : String
  displayName : Option String
  description : Option String
  enum : Option (List Value)
  pattern : Option String
  minLength : Option Int
  maxLength : Option Int
  minimum : Option Number
  maximum : Option Number
  sample : Value
  repeats : Bool
  required : Bool
  default : Value
  valueType : Option DataType

namespace Parameter

def ownTypes : List String :=
  ["string", "number", "integer", "date", "boolean", "file", "date-only", "time-only",
    "datetime-only", "datetime", "any"]

end Parameter

abbrev Parameters := Table String Parameter

end Raml
