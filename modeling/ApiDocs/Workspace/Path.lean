/-
  ApiDocs.Workspace.Path

  Paths as text: joining them, their names, and the directory they lie in.
-/

import ApiDocs.Text.Basic

namespace ApiDocs.Workspace.Path

/-- The path starts at the root of the file system. -/
def isAbsolute (path : String) : Bool :=
  path.toList.head? = some '/'

/-- The path `name` below `base`. An absolute `name` stands alone; otherwise a slash comes
between them unless `base` ends in one. -/
def join (base name : String) : String :=
  if isAbsolute name || base.isEmpty then
    name
  else if base.toList.getLast? = some '/' then
    base ++ name
  else
    base ++ "/" ++ name

/-- The names of a path that matter: neither empty nor a single point. -/
def names (path : String) : List String :=
  (Text.pieces '/' path).filter fun name => name ≠ "" && name ≠ "."

/-- The name of the file or directory that a path ends in. -/
def fileName? (path : String) : Option String :=
  (names path).getLast?.filter (· ≠ "..")

/-- Drops, in a reversed list of characters, slashes and names that are a single point. A
point that opens the path stays. -/
def dropIdle : List Char → List Char
  | '/' :: '.' :: '/' :: rest => dropIdle ('/' :: rest)
  | '/' :: rest => if rest.isEmpty then ['/'] else dropIdle rest
  | '.' :: '/' :: rest => dropIdle ('/' :: rest)
  | cs => cs
termination_by cs => cs.length

/-- The directory that a file of this path lies in, as text. -/
def parent (path : String) : String :=
  let reversed := path.toList.reverse
  String.ofList (dropIdle (reversed.dropWhile (· ≠ '/'))).reverse

end ApiDocs.Workspace.Path
