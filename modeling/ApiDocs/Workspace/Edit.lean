/-
  ApiDocs.Workspace.Edit

  Changing a workspace: creating directories, writing files, setting links and removing
  what a path names.
-/

import ApiDocs.Workspace.Basic

namespace ApiDocs.Workspace

/-- The workspace with an entry at a place. -/
def put (w : Workspace) (place : RealPath) (entry : Entry) : Workspace :=
  ⟨w.entries.insert place entry⟩

/-- Creates the directory that a path names; the directory it lies in must be there. -/
def createDirectory (w : Workspace) (path : String) : Except OsError Workspace :=
  match w.target .entry path with
  | .ok (.vacant place) => .ok (w.put place .directory)
  | .ok (.occupied _) => .error .present
  | .error e => .error e

/-- The path names a directory, perhaps through links. -/
def isDirectoryPath (w : Workspace) (path : String) : Bool :=
  match w.locate .reading path with
  | .ok place => w.isDirectory place
  | .error _ => false

/-- Creates a directory, and, when `levels` allows it, the missing ones above it. One that
is there already is no error. -/
def createTree (w : Workspace) (path : String) : Nat → Except OsError Workspace
  | 0 => .ok w
  | levels + 1 =>
    if path.isEmpty then
      .ok w
    else
      match w.createDirectory path with
      | .ok w => .ok w
      | .error .notFound =>
        match w.createTree (Path.parent path) levels with
        | .error e => .error e
        | .ok w =>
          match w.createDirectory path with
          | .ok w => .ok w
          | .error e => if w.isDirectoryPath path then .ok w else .error e
      | .error e => if w.isDirectoryPath path then .ok w else .error e

/-- Creates the directory that a path names and all missing ones above it. -/
def createDirectories (w : Workspace) (path : String) : Except OsError Workspace :=
  w.createTree path (path.length + 1)

/-- Writes a file, which may be there already; the directory it lies in must be there. -/
def writeFile (w : Workspace) (path : String) (content : ByteArray) : Except OsError Workspace :=
  match w.target .writing path with
  | .ok (.vacant place) => .ok (w.put place (.file content))
  | .ok (.occupied place) =>
    if w.isDirectory place then .error .isDirectory else .ok (w.put place (.file content))
  | .error e => .error e

/-- Sets a symbolic link; nothing may be there. -/
def writeLink (w : Workspace) (path linkTarget : String) : Except OsError Workspace :=
  match w.target .entry path with
  | .ok (.vacant place) => .ok (w.put place (.link linkTarget))
  | .ok (.occupied _) => .error .present
  | .error e => .error e

/-- Removes what a path names, a directory with everything in it. A link is removed, not
what it leads to. -/
def remove (w : Workspace) (path : String) : Except OsError Workspace := do
  let place ← w.locate .entry path
  return ⟨w.entries.filter fun there _ => !place.isPrefixOf there⟩

end ApiDocs.Workspace
