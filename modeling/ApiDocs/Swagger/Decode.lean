/-
  ApiDocs.Swagger.Decode

  Reading documents from their JSON form. Unknown members are passed over, a repeated
  known one is refused. A record may also be given as an array of its fields in order.
-/

import ApiDocs.Json.Basic
import ApiDocs.Swagger.Listing

namespace ApiDocs.Swagger

/-! ## Simple values -/

/-- A text. -/
def textOf? : Json → Option String
  | .string s => some s
  | _ => none

/-- A truth value. -/
def boolOf? : Json → Option Bool
  | .bool b => some b
  | _ => none

/-- A number that fits sixteen bits. -/
def codeOf? : Json → Option UInt16
  | .natural n => if n < 65536 then some (UInt16.ofNat n) else none
  | _ => none

/-- A list whose items all decode. -/
def listOf? {α : Type} (decode : Json → Option α) : Json → Option (List α)
  | .array items => items.mapM decode
  | _ => none

/-- A dictionary; of two members with one key the later counts. -/
def dictOf? {α : Type} (decode : Json → Option α) : Json → Option (Dict α)
  | .object members =>
    (members.mapM fun member => (decode member.2).map (member.1, ·)).map Dict.ofEntries
  | _ => none

/-! ## Records -/

/-- A field of a record: its key, and whether an array of fields may end before it. -/
structure FieldSpec where
  key : String
  hasDefault : Bool := false

/-- The values of a record's fields, by key. -/
abbrev Fields := List (String × Json)

/-- The fields given by an object: its members with known keys, none of them repeated. -/
def fieldsOfMembers? (specs : List FieldSpec) (members : List (String × Json)) : Option Fields :=
  let known := members.filter fun (key, _) => specs.any (·.key = key)
  if (known.map (·.1)).Nodup then some known else none

/-- The fields given by an array: as many as there are items. The fields left over must
have defaults, and no item may be left over. -/
def fieldsOfItems? : List FieldSpec → List Json → Option Fields
  | [], [] => some []
  | [], _ :: _ => none
  | spec :: specs, [] => if spec.hasDefault then fieldsOfItems? specs [] else none
  | spec :: specs, item :: items => (fieldsOfItems? specs items).map ((spec.key, item) :: ·)

/-- The fields of a record. -/
def fields? (specs : List FieldSpec) : Json → Option Fields
  | .object members => fieldsOfMembers? specs members
  | .array items => fieldsOfItems? specs items
  | _ => none

namespace Fields

/-- A field that has to be given. -/
def required? {α : Type} (f : Fields) (key : String) (decode : Json → Option α) : Option α :=
  (f.lookup key).bind decode

/-- A field that may be missing or null. -/
def optional? {α : Type} (f : Fields) (key : String) (decode : Json → Option α) :
    Option (Option α) :=
  match f.lookup key with
  | none | some .null => some none
  | some value => (decode value).map some

/-- A field that may be missing but not null. -/
def withDefault? {α : Type} (f : Fields) (key : String) (default : α) (decode : Json → Option α) :
    Option α :=
  match f.lookup key with
  | none => some default
  | some value => decode value

/-- A text field that is empty when it is missing. -/
def text? (f : Fields) (key : String) : Option String :=
  f.withDefault? key "" textOf?

end Fields

/-! ## Documents -/

/-- Reads the items of an array. -/
def Items.ofJson? (j : Json) : Option Items := do
  let f ← fields? [⟨"type", false⟩, ⟨"$ref", false⟩] j
  return {
    typeName := ← f.optional? "type" textOf?
    reference := ← f.optional? "$ref" textOf? }

/-- Reads a property. -/
def Property.ofJson? (j : Json) : Option Property := do
  let f ← fields? [⟨"type", false⟩, ⟨"format", false⟩, ⟨"$ref", false⟩, ⟨"items", false⟩,
    ⟨"description", false⟩] j
  return {
    typeName := ← f.optional? "type" textOf?
    format := ← f.optional? "format" textOf?
    reference := ← f.optional? "$ref" textOf?
    items := ← f.optional? "items" Items.ofJson?
    description := ← f.optional? "description" textOf? }

/-- Reads a model. -/
def Model.ofJson? (j : Json) : Option Model := do
  let f ← fields? [⟨"id", false⟩, ⟨"description", true⟩, ⟨"properties", false⟩] j
  return {
    id := ← f.required? "id" textOf?
    description := ← f.optional? "description" textOf?
    properties := ← f.required? "properties" (dictOf? Property.ofJson?) }

/-- Reads a parameter. -/
def Parameter.ofJson? (j : Json) : Option Parameter := do
  let f ← fields? [⟨"paramType", false⟩, ⟨"name", false⟩, ⟨"description", true⟩,
    ⟨"dataType", false⟩, ⟨"type", false⟩, ⟨"format", false⟩, ⟨"items", false⟩,
    ⟨"allowMultiple", false⟩, ⟨"required", false⟩] j
  return {
    location := ← f.required? "paramType" textOf?
    name := ← f.required? "name" textOf?
    description := ← f.text? "description"
    dataType := ← f.required? "dataType" textOf?
    typeName := ← f.required? "type" textOf?
    format := ← f.optional? "format" textOf?
    items := ← f.optional? "items" Items.ofJson?
    allowMultiple := ← f.required? "allowMultiple" boolOf?
    required := ← f.required? "required" boolOf? }

/-- Reads a response. -/
def ResponseMessage.ofJson? (j : Json) : Option ResponseMessage := do
  let f ← fields? [⟨"code", false⟩, ⟨"message", false⟩, ⟨"responseModel", false⟩] j
  return {
    code := ← f.required? "code" codeOf?
    message := ← f.required? "message" textOf?
    responseModel := ← f.optional? "responseModel" textOf? }

/-- Reads an operation. -/
def Operation.ofJson? (j : Json) : Option Operation := do
  let f ← fields? [⟨"method", true⟩, ⟨"nickname", true⟩, ⟨"type", true⟩, ⟨"items", true⟩,
    ⟨"summary", true⟩, ⟨"notes", true⟩, ⟨"parameters", true⟩, ⟨"responseMessages", true⟩,
    ⟨"consumes", true⟩, ⟨"produces", true⟩] j
  return {
    method := ← f.text? "method"
    nickname := ← f.text? "nickname"
    typeName := ← f.text? "type"
    items := ← f.optional? "items" Items.ofJson?
    summary := ← f.text? "summary"
    notes := ← f.text? "notes"
    parameters := ← f.withDefault? "parameters" [] (listOf? Parameter.ofJson?)
    responseMessages := ← f.withDefault? "responseMessages" [] (listOf? ResponseMessage.ofJson?)
    consumes := ← f.withDefault? "consumes" [] (listOf? textOf?)
    produces := ← f.withDefault? "produces" [] (listOf? textOf?) }

/-- Reads the general information. -/
def Information.ofJson? (j : Json) : Option Information := do
  let f ← fields? [⟨"title", true⟩, ⟨"description", true⟩, ⟨"termsOfServiceUrl", true⟩,
    ⟨"contact", true⟩, ⟨"license", true⟩, ⟨"licenseUrl", true⟩] j
  return {
    title := ← f.text? "title"
    description := ← f.text? "description"
    termsOfServiceUrl := ← f.text? "termsOfServiceUrl"
    contact := ← f.text? "contact"
    license := ← f.text? "license"
    licenseUrl := ← f.text? "licenseUrl" }

/-- Reads a reference to a resource. -/
def ResourceRef.ofJson? (j : Json) : Option ResourceRef := do
  let f ← fields? [⟨"path", false⟩, ⟨"description", false⟩] j
  return {
    path := ← f.required? "path" textOf?
    description := ← f.required? "description" textOf? }

/-- Reads a listing. -/
def ResourceListing.ofJson? (j : Json) : Option ResourceListing := do
  let f ← fields? [⟨"apiVersion", false⟩, ⟨"swaggerVersion", false⟩, ⟨"apis", false⟩,
    ⟨"info", false⟩] j
  return {
    apiVersion := ← f.required? "apiVersion" textOf?
    swaggerVersion := ← f.required? "swaggerVersion" textOf?
    apis := ← f.required? "apis" (listOf? ResourceRef.ofJson?)
    info := ← f.required? "info" Information.ofJson? }

/-- Reads the operations of a path. -/
def Api.ofJson? (j : Json) : Option Api := do
  let f ← fields? [⟨"path", false⟩, ⟨"description", true⟩, ⟨"operations", false⟩] j
  return {
    path := ← f.required? "path" textOf?
    description := ← f.text? "description"
    operations := ← f.required? "operations" (listOf? Operation.ofJson?) }

/-- Reads the declaration of a resource. -/
def ApiDeclaration.ofJson? (j : Json) : Option ApiDeclaration := do
  let f ← fields? [⟨"apiVersion", false⟩, ⟨"swaggerVersion", false⟩, ⟨"basePath", false⟩,
    ⟨"resourcePath", false⟩, ⟨"apis", false⟩, ⟨"models", false⟩] j
  return {
    apiVersion := ← f.required? "apiVersion" textOf?
    swaggerVersion := ← f.required? "swaggerVersion" textOf?
    basePath := ← f.required? "basePath" textOf?
    resourcePath := ← f.required? "resourcePath" textOf?
    apis := ← f.required? "apis" (listOf? Api.ofJson?)
    models := ← f.required? "models" (dictOf? Model.ofJson?) }

end ApiDocs.Swagger
