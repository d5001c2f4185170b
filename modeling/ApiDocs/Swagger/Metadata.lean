/-
  ApiDocs.Swagger.Metadata

  Directives about the API as a whole: the general information, one field per line, and
  the descriptions of resources, `@SubApi description [/path]`.
-/

import ApiDocs.Swagger.Listing
import ApiDocs.Text.Basic
import ApiDocs.Text.Word
import ApiDocs.Warning

namespace ApiDocs.Swagger

/-- The first word of a line and what follows it, without white space around it. -/
def splitDirective (cs : List Char) : List Char × List Char :=
  match Text.splitFirst Text.isBlank cs with
  | some (word, rest) => (word, Text.trim rest)
  | none => (cs, [])

/-! ## General information -/

/-- The listing with the field set that a directive names, in lower case. -/
def ResourceListing.set? (listing : ResourceListing) (directive value : String) :
    Option ResourceListing :=
  let info := listing.info
  match directive with
  | "@apiversion" => some { listing with apiVersion := value }
  | "@apititle" => some { listing with info := { info with title := value } }
  | "@apidescription" => some { listing with info := { info with description := value } }
  | "@termsofserviceurl" => some { listing with info := { info with termsOfServiceUrl := value } }
  | "@contact" => some { listing with info := { info with contact := value } }
  | "@licenseurl" => some { listing with info := { info with licenseUrl := value } }
  | "@license" => some { listing with info := { info with license := value } }
  | _ => none

/-- Applies a line of general information; none if the line holds no such directive. The
directive's case does not matter. -/
def ResourceListing.applyGlobal? (listing : ResourceListing) (line : String) :
    Option ResourceListing :=
  let (directive, value) := splitDirective (Text.trimStart line.toList)
  listing.set? (Text.lowered (String.ofList directive)) (String.ofList value)

/-! ## Descriptions of resources -/

/-- What a line that describes a resource starts with. -/
def subApiMarker : String := "@SubApi"

/-- A character of a resource's path between brackets. -/
def isPathChar (c : Char) : Bool :=
  Text.isWord c || c = '-' || c = '/'

/-- The first nonempty stretch without an opening bracket that is followed by a bracket
and a nonempty path, and that path. -/
def describedPath? : List (List Char) → Option (List Char × List Char)
  | description :: next :: rest =>
    let path := next.takeWhile isPathChar
    if description.isEmpty || path.isEmpty then
      describedPath? (next :: rest)
    else
      some (description, path)
  | _ => none

/-- Applies a line that describes a resource: every reference to the path that it names
gets its description. Other lines change nothing; a marked line of another form is
reported. -/
def ResourceListing.applySubApi (listing : ResourceListing) (line : String) :
    ResourceListing × List Warning :=
  match subApiMarker.toList.isPrefixOf? line.toList with
  | none => (listing, [])
  | some rest =>
    let rest := Text.trim rest
    match describedPath? (Text.splitOn '[' rest) with
    | none => (listing, [.subApi (String.ofList rest)])
    | some (description, path) =>
      let describe := fun (r : ResourceRef) =>
        if r.path = String.ofList path then
          { r with description := String.ofList (Text.trim description) }
        else
          r
      ({ listing with apis := listing.apis.map describe }, [])

end ApiDocs.Swagger
