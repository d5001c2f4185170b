/-
  ApiDocs.Swagger.Listing

  The documents: the resource listing, which names the resources of an API, and the
  declaration of each resource.
-/

import ApiDocs.Swagger.Operation

namespace ApiDocs.Swagger

/-- The version of the document format. -/
def swaggerVersion : String := "1.2"

/-- General information about an API. -/
structure Information where
  title : String := ""
  description : String := ""
  termsOfServiceUrl : String := ""
  contact : String := ""
  license : String := ""
  licenseUrl : String := ""
  deriving DecidableEq, Repr, Inhabited

/-- A resource named in the listing. -/
structure ResourceRef where
  path : String
  description : String
  deriving DecidableEq, Repr, Inhabited

/-- The resources of an API, in the order in which they first appeared. -/
structure ResourceListing where
  apiVersion : String := ""
  swaggerVersion : String := ""
  apis : List ResourceRef := []
  info : Information := {}
  deriving DecidableEq, Repr, Inhabited

/-- The operations on one path. -/
structure Api where
  path : String
  description : String := ""
  operations : List Operation
  deriving DecidableEq, Inhabited

/-- The declaration of one resource: its operations by path and the models they mention. -/
structure ApiDeclaration where
  apiVersion : String
  swaggerVersion : String
  basePath : String
  resourcePath : String
  apis : List Api
  models : Dict Model
  deriving DecidableEq, Inhabited

/-- The listing together with every declaration, by the name of the resource. -/
structure Documentation where
  listing : ResourceListing
  resources : Dict ApiDeclaration
  deriving DecidableEq, Inhabited

end ApiDocs.Swagger
