/-
  ApiDocs.Error

  Everything that can go wrong while documentation is generated, with the causes kept
  apart and the wording of the messages in one place.
-/

import ApiDocs.Source.Unit
import ApiDocs.Text.Quoted
import ApiDocs.Workspace.OsError

namespace ApiDocs

/-- Why a model reference names no declared type. -/
inductive ModelFault where
  /-- A plain name that the package does not declare. -/
  | undeclared
  /-- A name with a package path whose package does not declare the type. -/
  | undeclaredAbsolute (typeName package : String)
  /-- The package has no imports that could give the qualifier a meaning. -/
  | noImports
  /-- The qualifier is none of the names that the package imports. -/
  | notImported (qualifier : String) (known : List String)
  /-- The imported package does not declare the type. -/
  | undeclaredIn (typeName package : String)
  deriving DecidableEq, Repr

/-- The fault as shown to the user. -/
def ModelFault.message : ModelFault → String
  | undeclared => "not declared in package"
  | undeclaredAbsolute typeName package =>
    "name looks absolute but " ++ typeName ++ " is not declared in package " ++ package
  | noImports => "package imports nothing"
  | notImported qualifier known =>
    qualifier ++ " is not imported (imports: " ++ Text.quotedList known ++ ")"
  | undeclaredIn typeName package => typeName ++ " is not declared in package " ++ package

/-- Why a directive cannot be applied. -/
inductive DirectiveFault where
  | emptyResource
  | noMimeTypes
  | parameterForm (written : String)
  | unknownLocation (location : String)
  | requiredFlag (written : String)
  | statusCode (written : String)
  | responseForm (written : String)
  | routerForm (written : String)
  deriving DecidableEq, Repr

/-- The fault as shown to the user. -/
def DirectiveFault.message : DirectiveFault → String
  | emptyResource => "resource name is empty"
  | noMimeTypes => "no MIME types given"
  | parameterForm written =>
    "expected `name paramType dataType required \"description\"`, got `" ++ written ++ "`"
  | unknownLocation location => "unknown parameter location " ++ location
  | requiredFlag written => "required must be true or false, got " ++ written
  | statusCode written => "invalid status code " ++ written
  | responseForm written =>
    "expected `code \x7bobject|array\x7d Type \"message\"`, got `" ++ written ++ "`"
  | routerForm written => "expected `/path [method]`, got `" ++ written ++ "`"

/-- An error. -/
inductive Error where
  /-- No search path is configured. -/
  | noSearchPath
  | packageNotFound (identifier : String)
  | modelNotFound (reference package : String) (fault : ModelFault)
  | syntaxError (path : String) (cause : Source.SyntaxError)
  /-- A directive, by its name as written. -/
  | directive (name : String) (fault : DirectiveFault)
  | file (path : String) (cause : Workspace.OsError)
  deriving DecidableEq, Repr

namespace Error

/-- The error as shown to the user. -/
def message : Error → String
  | noSearchPath => "configuration error: please set the $GOPATH environment variable"
  | packageNotFound identifier => "cannot find package " ++ identifier
  | modelNotFound reference package fault =>
    "cannot find definition of model " ++ reference ++ " (context package " ++ package ++ "): " ++
      fault.message
  | syntaxError path cause => "parse error in " ++ path ++ ": " ++ cause.message
  | directive name fault => "cannot parse " ++ name ++ " directive: " ++ fault.message
  | file path cause => "I/O error on " ++ path ++ ": " ++ cause.message

/-- The message of the error and those of its causes, outermost first. -/
def chain (e : Error) : List String :=
  match e with
  | file _ cause => [e.message, cause.message]
  | _ => [e.message]

/-- A malformed directive; generation goes on after it. -/
def isDirective : Error → Bool
  | directive .. => true
  | _ => false

end Error
end ApiDocs
