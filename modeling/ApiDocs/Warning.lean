/-
  ApiDocs.Warning

  What a run reports without failing.
-/

import ApiDocs.Error

namespace ApiDocs

/-- A warning. -/
inductive Warning where
  /-- A line that describes a resource has no path in brackets. -/
  | subApi (written : String)
  /-- A directive of a handler was skipped. -/
  | directive (function package : String) (error : Error)
  /-- A directory could not be walked. -/
  | unreadable (path : String) (cause : Workspace.OsError)
  | noOperations
  deriving DecidableEq, Repr

/-- The warning as shown to the user. -/
def Warning.message : Warning → String
  | subApi written => "Can not parse sub api description " ++ written ++ ", skipped"
  | directive function package error =>
    "Can not parse comment for function " ++ function ++ " in package " ++ package ++ ": " ++
      error.message
  | unreadable path cause =>
    "Failed to access path: IO error for operation on " ++ path ++ ": " ++ cause.message
  | noOperations => "No documented operations found"

end ApiDocs
