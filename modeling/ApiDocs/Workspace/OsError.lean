/-
  ApiDocs.Workspace.OsError

  The ways in which an operation on files can fail.
-/

namespace ApiDocs.Workspace

/-- Why an operation on files failed. -/
inductive OsError where
  | notFound
  | present
  | notDirectory
  | isDirectory
  | nameTooLong
  | linkLoop
  /-- The content of a file is not text in UTF-8. -/
  | notText
  deriving DecidableEq, Repr, Inhabited

/-- The error as shown to the user. -/
def OsError.message : OsError → String
  | notFound => "No such file or directory (os error 2)"
  | present => "File exists (os error 17)"
  | notDirectory => "Not a directory (os error 20)"
  | isDirectory => "Is a directory (os error 21)"
  | nameTooLong => "File name too long (os error 36)"
  | linkLoop => "Too many levels of symbolic links (os error 40)"
  | notText => "stream did not contain valid UTF-8"

end ApiDocs.Workspace
