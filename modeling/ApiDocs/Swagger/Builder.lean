/-
  ApiDocs.Swagger.Builder

  Describing types: from a type's name or expression to its data type, with the models of
  all structs that are met on the way.

  Declarations may refer to each other in circles. A struct is entered once, because it has
  a model from then on; any other declaration, and an embedded struct, is not entered again
  while it is being unwrapped. So the number of declarations bounds how deep the walk goes.
-/

import ApiDocs.Package.Resolve
import ApiDocs.Swagger.DataType
import ApiDocs.Text.Uppercase

namespace ApiDocs.Swagger

open Source (TypeExpr Field TypeDecl)
open Package (Resolved)

/-- The session that types are looked up in, and the models collected so far. -/
structure Builder where
  session : Session
  models : Dict Model := ∅

/-- A computation that collects models. Those collected stay even if it fails. -/
abbrev BuilderM := EStateM Error Builder

namespace Builder

/-- Uses the session. -/
def ask {α : Type} (x : SessionM α) : BuilderM α :=
  Session.within Builder.session (fun b session => { b with session }) x

/-- Stores a model under its id. -/
def store (model : Model) : BuilderM Unit :=
  modify fun b => { b with models := b.models.insert model.id model }

/-! ## Names in types -/

/-- A name that other packages can use: it starts with a capital letter. -/
def isExported (name : String) : Bool :=
  name.toList.head?.any Text.isCapital

/-- A name with its qualifier, as a reference. -/
def reference (qualifier : Option String) (name : String) : String :=
  match qualifier with
  | some qualifier => qualifier ++ "." ++ name
  | none => name

/-- The data type of a name that needs no declaration. -/
def builtin? (qualifier : Option String) (name : String) : Option DataType :=
  match qualifier with
  | some qualifier => wellKnown? qualifier name
  | none => if name = "any" || name = "error" then some .object else predeclared? name

/-- The named type that an embedded field refers to, perhaps through pointers. -/
def embeddedName? : TypeExpr → Option String
  | .pointer target => embeddedName? target
  | .named qualifier name => some (reference qualifier name)
  | _ => none

/-- A doc comment's text, if it has any. -/
def docText (doc : Option Source.CommentGroup) : Option String :=
  (doc.map (·.text)).filter (· ≠ "")

/-! ## Fields -/

/-- The name that a field's tag gives to its property. -/
def jsonName? (field : Field) : Option String :=
  (field.tagValue? "json").bind fun tag => (Text.pieces ',' tag).head?.filter (· ≠ "")

/-- Adds the properties of a field that has names: one for each exported name. -/
def addProperties (field : Field) (exported : List String) (type : DataType)
    (properties : Dict Property) : Dict Property :=
  let property := { type.toProperty with description := docText field.doc }
  exported.foldl (fun properties name =>
    properties.insert ((jsonName? field).getD name) property) properties

/-- The ways in which a walk through declarations goes on. -/
structure Walk where
  /-- The data type of a declaration; `unwrapping` are the ids being unwrapped. -/
  describe : (unwrapping : List String) → Resolved → BuilderM DataType
  /-- Adds the properties of an embedded declaration. -/
  flatten : (unwrapping : List String) → Resolved → Dict Property → BuilderM (Dict Property)

/-- The data type of a type expression in a package; none if values of the type are not
represented at all. -/
def describeExpr (w : Workspace) (walk : Walk) (unwrapping : List String) (package : String) :
    TypeExpr → BuilderM (Option DataType)
  | .named qualifier name =>
    match builtin? qualifier name with
    | some type => return some type
    | none => do
      let resolved ← ask (Session.findModel w (reference qualifier name) package)
      return some (← walk.describe unwrapping resolved)
  | .pointer target => describeExpr w walk unwrapping package target
  | .slice element | .array element => do
    return (← describeExpr w walk unwrapping package element).map .array
  | .map .. | .struct _ | .interface => return some .object
  | .channel _ | .function | .unknown _ => return none

/-- Adds the properties of one field line. A line tagged `-` or without exported names adds
none; an embedded type adds its own. -/
def collectField (w : Workspace) (walk : Walk) (unwrapping : List String) (package : String)
    (properties : Dict Property) (field : Field) : BuilderM (Dict Property) := do
  if field.tagValue? "json" = some "-" then
    return properties
  else if field.isEmbedded then
    match embeddedName? field.type with
    | none => return properties
    | some name =>
      let resolved ← ask (Session.findModel w name package)
      walk.flatten unwrapping resolved properties
  else
    let exported := field.names.filter isExported
    if exported.isEmpty then
      return properties
    else
      match ← describeExpr w walk unwrapping package field.type with
      | none => return properties
      | some type => return addProperties field exported type properties

/-- Adds the properties of field lines, one after the other. -/
def collectFields (w : Workspace) (walk : Walk) (unwrapping : List String) (package : String)
    (fields : List Field) (properties : Dict Property) : BuilderM (Dict Property) :=
  fields.foldlM (collectField w walk unwrapping package) properties

/-! ## Declarations -/

/-- The model id of a declaration. -/
def idOf (r : Resolved) : String :=
  modelId r.package r.decl.name

/-- The data type of a declaration. A struct is a model, which is stored without properties
before its fields are read; any other declaration is what its type expression is. -/
def describeDecl (w : Workspace) (walk : Walk) (unwrapping : List String) (r : Resolved) :
    BuilderM DataType := do
  let id := idOf r
  match r.decl.type with
  | .struct fields =>
    if (← get).models.contains id then
      return .model id
    else
      let description := docText r.decl.doc
      store { id, description }
      let properties ← collectFields w walk unwrapping r.package fields ∅
      store { id, description, properties }
      return .model id
  | type =>
    if unwrapping.contains id then
      return .object
    else
      return (← describeExpr w walk (id :: unwrapping) r.package type).getD .object

/-- Adds the properties of an embedded declaration, if it is a struct that is not being
flattened already. -/
def flattenDecl (w : Workspace) (walk : Walk) (unwrapping : List String) (r : Resolved)
    (properties : Dict Property) : BuilderM (Dict Property) :=
  let id := idOf r
  match r.decl.type with
  | .struct fields =>
    if unwrapping.contains id then
      return properties
    else
      collectFields w walk (id :: unwrapping) r.package fields properties
  | _ => return properties

/-- The walk that enters at most `depth` declarations one inside the other. -/
def walkWithin (w : Workspace) : Nat → Walk
  | 0 => { describe := fun _ _ => return .object, flatten := fun _ _ properties => return properties }
  | depth + 1 => {
      describe := fun unwrapping r => describeDecl w (walkWithin w depth) unwrapping r
      flatten := fun unwrapping r properties =>
        flattenDecl w (walkWithin w depth) unwrapping r properties }

/-! ## How deep the walk can go -/

/-- The name under the pointers, slices and arrays of a type expression. -/
def leafName? : TypeExpr → Option (Option String × String)
  | .pointer inner | .slice inner | .array inner => leafName? inner
  | .named qualifier name => some (qualifier, name)
  | _ => none

/-- The names that a declaration mentions. -/
def mentioned (decl : TypeDecl) : List (Option String × String) :=
  match decl.type with
  | .struct fields => fields.filterMap (leafName? ·.type)
  | type => (leafName? type).toList

/-- All declarations that have been collected. -/
def declarations (s : Session) : List TypeDecl :=
  (Dict.contents s.symbols).flatMap Dict.contents

/-- More than the number of model ids that a walk can meet, counted twice: once to be a
model and once to be unwrapped. A package is named by the walk's start, by an import or by
a qualifier. -/
def depthBound (s : Session) : Nat :=
  let decls := declarations s
  let owners := ((Dict.contents s.imports).flatMap Dict.contents).length + (decls.flatMap mentioned).length + 2
  2 * (owners * decls.length) + 1

/-! ## Written types -/

/-- The data type that a name in a document refers to. -/
def describeName (w : Workspace) (package written : String) : BuilderM DataType := do
  let parts := Text.pieces '.' written
  match predeclared? written, wellKnown? (".".intercalate parts.dropLast) (parts.getLastD "") with
  | some type, _ => return type
  | none, some type => return type
  | none, none =>
    let resolved ← ask (Session.findModel w written package)
    (walkWithin w (depthBound (← get).session)).describe [] resolved

/-- The data type of a written type: `[]` before it makes it an array. -/
def describeWritten (w : Workspace) (package : String) : List Char → BuilderM DataType
  | '[' :: ']' :: element => do
    return .array (← describeWritten w package element)
  | written => describeName w package (String.ofList written)

/-- The data type of a type written in the context of a package. -/
def describe (w : Workspace) (package written : String) : BuilderM DataType :=
  describeWritten w package written.toList

/-- The data type of a written type, and the models that it mentions. -/
def run (w : Workspace) (package written : String) : SessionM (DataType × Dict Model) := fun s =>
  match describe w package written { session := s } with
  | .ok type b => .ok (type, b.models) b.session
  | .error e b => .error e b.session

end Builder
end ApiDocs.Swagger
