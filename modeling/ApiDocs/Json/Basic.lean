/-
  ApiDocs.Json.Basic

  JSON values. Objects keep the order and the repetitions of their members, because
  documents fix the order of fields and readers have to see repeated ones.
-/

namespace ApiDocs

/-- A JSON value. -/
inductive Json where
  | null
  | bool (b : Bool)
  /-- A number written with digits only. -/
  | natural (n : Nat)
  /-- Any other number, as written. -/
  | decimal (text : String)
  | string (s : String)
  | array (items : List Json)
  | object (members : List (String × Json))
  /-- A string that denotes no text, because an escape in it is half of a surrogate pair,
  or an object with such a string as a key. -/
  | garbled
  deriving Inhabited

namespace Json

/-- The member that a field with an optional value adds to an object. -/
def member? (key : String) (value : Option Json) : List (String × Json) :=
  value.toList.map (key, ·)

/-- The member that a text field adds to an object which leaves empty texts out. -/
def text? (key value : String) : List (String × Json) :=
  if value.isEmpty then [] else [(key, string value)]

/-- The member that a list field adds to an object which leaves empty lists out. -/
def items? (key : String) (items : List Json) : List (String × Json) :=
  if items.isEmpty then [] else [(key, array items)]

end Json
end ApiDocs
