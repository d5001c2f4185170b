/-
  ApiDocs.Document

  Documents as text: the two output formats, and the names of the files that hold a
  listing and its declarations.
-/

import ApiDocs.Json.Writer
import ApiDocs.Swagger.Encode
import ApiDocs.Text.Basic
import ApiDocs.Yaml.Writer

namespace ApiDocs

/-- The formats in which documents are written. -/
inductive OutputFormat where
  | json
  | yaml
  deriving DecidableEq, Repr, Inhabited

namespace OutputFormat

/-- The name of the format, which is also the extension of its files. -/
def name : OutputFormat → String
  | json => "json"
  | yaml => "yaml"

/-- The format with this name. -/
def ofName? : String → Option OutputFormat
  | "json" => some json
  | "yaml" => some yaml
  | _ => none

/-- The text of a value. -/
def render : OutputFormat → Json → String
  | json, value => Json.render value
  | yaml, value => Yaml.render value

end OutputFormat

/-- The name, without extension, of the file that holds the listing. -/
def listingStem : String := "index"

/-- The name, without extension, of the file that holds a resource. It has no slashes and
no two points in a row, so the file lies directly in the output directory. -/
def resourceStem (resource : String) : String :=
  if resource.isEmpty then
    "_root"
  else
    let flat := resource.toList.map fun c => if c = '/' || c = '\\' then '_' else c
    String.ofList (Text.replacePair '.' '.' ['_', '_'] flat)

/-- The files that document an API, each with its name and its text, the listing first. -/
def documentFiles (docs : Swagger.Documentation) (format : OutputFormat) : List (String × String) :=
  let file := fun stem value => (stem ++ "." ++ format.name, format.render value)
  file listingStem docs.listing.toJson ::
    docs.resources.toList.map fun (resource, declaration) =>
      file (resourceStem resource) declaration.toJson

end ApiDocs
