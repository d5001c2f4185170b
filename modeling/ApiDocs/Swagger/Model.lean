/-
  ApiDocs.Swagger.Model

  Models: what a Swagger 1.2 document says about a struct type and its properties.
-/

import ApiDocs.Dict

namespace ApiDocs.Swagger

/-- The element type of an array: a type name or a model's id. -/
structure Items where
  typeName : Option String := none
  reference : Option String := none
  deriving DecidableEq, Repr, Inhabited

/-- A property of a model. -/
structure Property where
  typeName : Option String := none
  format : Option String := none
  reference : Option String := none
  items : Option Items := none
  description : Option String := none
  deriving DecidableEq, Repr, Inhabited

/-- A model, known by its id. -/
structure Model where
  id : String
  description : Option String := none
  properties : Dict Property := ∅
  deriving DecidableEq, Inhabited

/-- The id of the model for a type of a package: the package's path and the type's name,
joined by points. -/
def modelId (package typeName : String) : String :=
  String.ofList (package.toList.map fun c => if c = '/' then '.' else c) ++ "." ++ typeName

end ApiDocs.Swagger
