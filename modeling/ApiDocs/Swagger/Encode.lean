/-
  ApiDocs.Swagger.Encode

  The JSON form of documents. The order of members is fixed; optional fields without a
  value and most empty texts and lists are left out.
-/

import ApiDocs.Json.Basic
import ApiDocs.Swagger.Listing

namespace ApiDocs.Swagger

open Json (member? text? items?)

/-- A dictionary as an object, its members in ascending order of their keys. -/
def dictJson {α : Type} (encode : α → Json) (d : Dict α) : Json :=
  .object (d.toList.map fun (key, value) => (key, encode value))

/-- The member that an optional text field adds. -/
def optionalText (key : String) (value : Option String) : List (String × Json) :=
  member? key (value.map .string)

/-- The JSON form of an element type. -/
def Items.toJson (i : Items) : Json :=
  .object (optionalText "type" i.typeName ++ optionalText "$ref" i.reference)

/-- The member that an optional element type adds. -/
def optionalItems (items : Option Items) : List (String × Json) :=
  member? "items" (items.map Items.toJson)

/-- The JSON form of a property. -/
def Property.toJson (p : Property) : Json :=
  .object <|
    optionalText "type" p.typeName ++
    optionalText "format" p.format ++
    optionalText "$ref" p.reference ++
    optionalItems p.items ++
    optionalText "description" p.description

/-- The JSON form of a model. -/
def Model.toJson (m : Model) : Json :=
  .object <|
    [("id", .string m.id)] ++
    optionalText "description" m.description ++
    [("properties", dictJson Property.toJson m.properties)]

/-- The JSON form of a parameter. -/
def Parameter.toJson (p : Parameter) : Json :=
  .object <|
    [("paramType", .string p.location), ("name", .string p.name)] ++
    text? "description" p.description ++
    [("dataType", .string p.dataType), ("type", .string p.typeName)] ++
    optionalText "format" p.format ++
    optionalItems p.items ++
    [("allowMultiple", .bool p.allowMultiple), ("required", .bool p.required)]

/-- The JSON form of a response. -/
def ResponseMessage.toJson (r : ResponseMessage) : Json :=
  .object <|
    [("code", .natural r.code.toNat), ("message", .string r.message)] ++
    optionalText "responseModel" r.responseModel

/-- The JSON form of an operation. -/
def Operation.toJson (o : Operation) : Json :=
  .object <|
    [("method", .string o.method), ("nickname", .string o.nickname), ("type", .string o.typeName)] ++
    optionalItems o.items ++
    text? "summary" o.summary ++
    text? "notes" o.notes ++
    [("parameters", .array (o.parameters.map Parameter.toJson))] ++
    items? "responseMessages" (o.responseMessages.map ResponseMessage.toJson) ++
    items? "consumes" (o.consumes.map .string) ++
    items? "produces" (o.produces.map .string)

/-- The JSON form of the general information. -/
def Information.toJson (i : Information) : Json :=
  .object <|
    text? "title" i.title ++
    text? "description" i.description ++
    text? "termsOfServiceUrl" i.termsOfServiceUrl ++
    text? "contact" i.contact ++
    text? "license" i.license ++
    text? "licenseUrl" i.licenseUrl

/-- The JSON form of a reference to a resource. -/
def ResourceRef.toJson (r : ResourceRef) : Json :=
  .object [("path", .string r.path), ("description", .string r.description)]

/-- The JSON form of a listing. -/
def ResourceListing.toJson (l : ResourceListing) : Json :=
  .object [
    ("apiVersion", .string l.apiVersion),
    ("swaggerVersion", .string l.swaggerVersion),
    ("apis", .array (l.apis.map ResourceRef.toJson)),
    ("info", l.info.toJson)]

/-- The JSON form of the operations of a path. -/
def Api.toJson (a : Api) : Json :=
  .object <|
    [("path", .string a.path)] ++
    text? "description" a.description ++
    [("operations", .array (a.operations.map Operation.toJson))]

/-- The JSON form of the declaration of a resource. -/
def ApiDeclaration.toJson (d : ApiDeclaration) : Json :=
  .object [
    ("apiVersion", .string d.apiVersion),
    ("swaggerVersion", .string d.swaggerVersion),
    ("basePath", .string d.basePath),
    ("resourcePath", .string d.resourcePath),
    ("apis", .array (d.apis.map Api.toJson)),
    ("models", dictJson Model.toJson d.models)]

/-- The JSON form of the documents of an API. -/
def Documentation.toJson (d : Documentation) : Json :=
  .object [
    ("resourceListing", d.listing.toJson),
    ("apis", dictJson ApiDeclaration.toJson d.resources)]

end ApiDocs.Swagger
