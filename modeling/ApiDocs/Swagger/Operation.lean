/-
  ApiDocs.Swagger.Operation

  Operations: one documented endpoint, its parameters and its responses.
-/

import ApiDocs.Swagger.Model

namespace ApiDocs.Swagger

/-- A parameter of an operation. -/
structure Parameter where
  /-- Where the parameter is taken from, such as the path or the query. -/
  location : String
  name : String
  description : String := ""
  dataType : String
  typeName : String
  format : Option String := none
  items : Option Items := none
  allowMultiple : Bool
  required : Bool
  deriving DecidableEq, Repr, Inhabited

/-- A response that an operation may give. -/
structure ResponseMessage where
  code : UInt16
  message : String
  responseModel : Option String := none
  deriving DecidableEq, Repr, Inhabited

/-- A documented endpoint. The last four fields are not part of its document. -/
structure Operation where
  method : String := ""
  nickname : String := ""
  typeName : String := ""
  items : Option Items := none
  summary : String := ""
  notes : String := ""
  parameters : List Parameter := []
  responseMessages : List ResponseMessage := []
  consumes : List String := []
  produces : List String := []
  /-- The route as written. -/
  path : String := ""
  /-- A resource that was named, in place of the one that the path gives. -/
  resourceName : Option String := none
  /-- The package in which type names are looked up. -/
  package : String := ""
  /-- The models that the operation mentions, by id. -/
  models : Dict Model := ∅
  deriving DecidableEq, Inhabited

namespace Operation

/-- The method of an operation whose route names none. -/
def defaultMethod : String := "GET"

/-- An operation of a package about which nothing has been said. -/
def ofPackage (package : String) : Operation :=
  { method := defaultMethod, typeName := "void", package }

end Operation
end ApiDocs.Swagger
