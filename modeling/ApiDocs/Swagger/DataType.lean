/-
  ApiDocs.Swagger.DataType

  Data types: how a Go type appears in a document, and the Go types that need no
  declaration to be known.
-/

import ApiDocs.Swagger.Model

namespace ApiDocs.Swagger

/-- How a type is represented in a document. -/
inductive DataType where
  | primitive (typeName : String) (format : Option String)
  /-- The model with this id. -/
  | model (id : String)
  | array (element : DataType)
  | object
  deriving DecidableEq, Repr, Inhabited

namespace DataType

/-- The type as the element type of an array. Nested arrays are given as objects. -/
def toItems : DataType → Items
  | primitive typeName _ => { typeName := some typeName }
  | model id => { reference := some id }
  | array _ | object => { typeName := some "object" }

/-- The type as a property without a description. -/
def toProperty : DataType → Property
  | primitive typeName format => { typeName := some typeName, format }
  | model id => { reference := some id }
  | array element => { typeName := some "array", items := some element.toItems }
  | object => { typeName := some "object" }

/-- The type's name where an operation or a parameter gives it: a model's is its id. -/
def typeName : DataType → String
  | primitive typeName _ => typeName
  | model id => id
  | array _ => "array"
  | object => "object"

/-- The format that goes with the type's name. -/
def format? : DataType → Option String
  | primitive _ format => format
  | _ => none

/-- The element type of an array. -/
def items? : DataType → Option Items
  | array element => some element.toItems
  | _ => none

/-- The model that the type is, or is an array of. -/
def modelId? : DataType → Option String
  | model id => some id
  | array (model id) => some id
  | _ => none

end DataType

/-- The data types of Go's predeclared types. -/
def predeclared? (name : String) : Option DataType :=
  match name with
  | "bool" => some (.primitive "boolean" none)
  | "int" | "int8" | "int16" | "int32" | "uint" | "uint8" | "uint16" | "uint32" | "rune" | "byte" =>
    some (.primitive "integer" (some "int32"))
  | "int64" | "uint64" | "uintptr" => some (.primitive "integer" (some "int64"))
  | "float32" => some (.primitive "number" (some "float"))
  | "float64" => some (.primitive "number" (some "double"))
  | "string" | "complex64" | "complex128" => some (.primitive "string" none)
  | _ => none

/-- The data types of library types that are not described by their declaration. -/
def wellKnown? (qualifier name : String) : Option DataType :=
  if qualifier = "time" ∧ name = "Time" then
    some (.primitive "string" (some "date-time"))
  else
    none

end ApiDocs.Swagger
