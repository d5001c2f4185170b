/-
  ApiDocs.Swagger.Catalog

  The catalog of an API: operations grouped by resource and path, and the listing of the
  resources in the order in which they first appeared.
-/

import ApiDocs.Swagger.Listing
import ApiDocs.Text.Basic

namespace ApiDocs.Swagger

/-- The resource that an operation belongs to: the one it names, else the first segment of
its path that is not blank. -/
def Operation.resource (operation : Operation) : String :=
  match operation.resourceName with
  | some resource => resource
  | none => (((Text.pieces '/' operation.path).map Text.trimmed).find? (· ≠ "")).getD ""

namespace ApiDeclaration

/-- The declaration of a resource without operations. -/
def ofResource (apiVersion basePath resource : String) : ApiDeclaration where
  apiVersion
  swaggerVersion := Swagger.swaggerVersion
  basePath
  resourcePath := "/" ++ resource
  apis := []
  models := ∅

/-- The operations by path with one more at the end of its path's list. A new path takes
its description from the operation. -/
def insertOperation (operation : Operation) : List Api → List Api
  | [] => [{ path := operation.path, description := operation.summary, operations := [operation] }]
  | api :: apis =>
    if api.path = operation.path then
      { api with operations := api.operations ++ [operation] } :: apis
    else
      api :: insertOperation operation apis

/-- Adds an operation. Its models become models of the declaration. -/
def add (declaration : ApiDeclaration) (operation : Operation) : ApiDeclaration :=
  { declaration with
    models := declaration.models.extend operation.models
    apis := insertOperation { operation with models := ∅ } declaration.apis }

end ApiDeclaration

/-- A listing under construction, with the declarations of its resources. -/
structure Catalog where
  listing : ResourceListing
  resources : Dict ApiDeclaration
  basePath : String
  deriving DecidableEq, Inhabited

namespace Catalog

/-- The catalog of an API without operations. -/
def ofBasePath (basePath : String) : Catalog where
  listing := { swaggerVersion := Swagger.swaggerVersion }
  resources := ∅
  basePath

/-- Adds an operation to its resource. A resource that appears for the first time is listed
under the operation's summary, and its declaration takes the version that the listing has
at this moment. -/
def add (catalog : Catalog) (operation : Operation) : Catalog :=
  let resource := operation.resource
  match catalog.resources[resource]? with
  | some declaration =>
    { catalog with resources := catalog.resources.insert resource (declaration.add operation) }
  | none =>
    let declaration := ApiDeclaration.ofResource catalog.listing.apiVersion catalog.basePath resource
    let reference := { path := declaration.resourcePath, description := operation.summary }
    { catalog with
      listing := { catalog.listing with apis := catalog.listing.apis ++ [reference] }
      resources := catalog.resources.insert resource (declaration.add operation) }

/-- The documents of the API. -/
def documentation (catalog : Catalog) : Documentation where
  listing := catalog.listing
  resources := catalog.resources

end Catalog
end ApiDocs.Swagger
