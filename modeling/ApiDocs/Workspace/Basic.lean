/-
  ApiDocs.Workspace.Basic

  A workspace: a finite tree of directories, files and symbolic links, in which all paths
  are relative to its root and nothing lies outside it. This module holds the tree, the
  way from a path to what it names, and reading.

  Names and paths are Unicode texts: entries whose names are not valid UTF-8 are left out.
-/

import ApiDocs.Workspace.OsError
import ApiDocs.Workspace.Path
import Std.Data.ExtTreeMap

namespace ApiDocs

/-- What a name in a directory stands for. -/
inductive Workspace.Entry where
  | directory
  | file (content : ByteArray)
  /-- A symbolic link to a path relative to the root. -/
  | link (target : String)
  deriving BEq, Inhabited

/-- A place in the tree: the names on the way to it, each a Unicode text. The root has no names. -/
abbrev Workspace.RealPath := List String

/-- A tree of directories, files and links. The root is a directory and is not listed; the
entries are in the order of a depth-first walk with the names of each directory sorted. -/
structure Workspace where
  entries : Std.ExtTreeMap Workspace.RealPath Workspace.Entry

namespace Workspace

/-- The workspace with nothing in it. -/
def empty : Workspace := ⟨∅⟩

/-- What stands at a place. -/
def entry? (w : Workspace) (place : RealPath) : Option Entry :=
  if place.isEmpty then some .directory else w.entries[place]?

/-- The place is a directory. -/
def isDirectory (w : Workspace) (place : RealPath) : Bool :=
  w.entry? place matches some .directory

/-! ## From paths to places -/

/-- Where a path leads: to a place that has an entry, or to one that could get one. -/
inductive Target where
  | occupied (place : RealPath)
  | vacant (place : RealPath)
  deriving DecidableEq, Repr

/-- The longest name that a directory can hold, in bytes. -/
def maxNameBytes : Nat := 255

/-- How many links may be followed on the way to one place. -/
def maxLinks : Nat := 40

/-- What a path is followed for. -/
inductive Purpose where
  /-- The entry at the path: a link that ends the path is not followed. -/
  | entry
  /-- What the path leads to. -/
  | reading
  /-- A file to be written: a last name with a slash behind it can only be a directory. -/
  | writing
  deriving DecidableEq, Repr

/-- A name that leads to a directory from any directory: nothing, one point or two. -/
def isDots (name : String) : Bool :=
  name = "" || name = "." || name = ".."

/-- Follows the names of a path from the directory `place`; `detour` follows the names of a
path from the root, which a link's target starts at. Above the workspace there are only
directories, none of which counts as a place. -/
def follow (w : Workspace) (purpose : Purpose) (detour : List String → Except OsError Target)
    (place : RealPath) (names : List String) : Except OsError Target :=
  match names with
  | [] => .ok (.occupied place)
  | name :: rest =>
    if !w.isDirectory place then
      .error .notDirectory
    else if name = "" || name = "." then
      follow w purpose detour place rest
    else if name = ".." then
      if place.isEmpty then
        .error (if rest.all isDots then .isDirectory else .notFound)
      else
        follow w purpose detour place.dropLast rest
    else if purpose = .writing && !rest.isEmpty && rest.all (· = "") then
      .error .isDirectory
    else if maxNameBytes < name.utf8ByteSize then
      .error .nameTooLong
    else
      let next := place ++ [name]
      match w.entry? next with
      | none => if rest.all (· = "") then .ok (.vacant next) else .error .notFound
      | some (.link target) =>
        if purpose = .entry && rest.isEmpty then
          .ok (.occupied next)
        else if Path.isAbsolute target then
          .error .notFound
        else
          detour (Text.pieces '/' target ++ rest)
      | some _ => follow w purpose detour next rest

/-- Follows the names of a path from the root; `links` bounds the number of links followed. -/
def descend (w : Workspace) (purpose : Purpose) : Nat → List String → Except OsError Target
  | 0 => follow w purpose (fun _ => .error .linkLoop) []
  | links + 1 => follow w purpose (descend w purpose links) []

/-- Where a path leads from the root of the workspace, which the empty path names. -/
def target (w : Workspace) (purpose : Purpose) (path : String) : Except OsError Target :=
  if Path.isAbsolute path then
    .error .notFound
  else
    descend w purpose maxLinks (Text.pieces '/' path)

/-- The place that a path names. -/
def locate (w : Workspace) (purpose : Purpose) (path : String) : Except OsError RealPath :=
  match w.target purpose path with
  | .ok (.occupied place) => .ok place
  | .ok (.vacant _) => .error .notFound
  | .error e => .error e

/-- A place as a path: its names joined by slashes; the root is written as `home`. -/
def RealPath.text (home : String) (place : RealPath) : String :=
  if place.isEmpty then home else "/".intercalate place

/-- The place, without links and detours, of what a path names. The empty path names
nothing. -/
def canonicalize? (w : Workspace) (path : String) : Option RealPath :=
  if path.isEmpty then none else (w.locate .reading path).toOption

/-- The paths of all places. -/
def paths (w : Workspace) (home : String) : List String :=
  home :: w.entries.keys.map (RealPath.text home)

/-! ## Reading -/

/-- The place of the directory that a path names. -/
def directory (w : Workspace) (path : String) : Except OsError RealPath := do
  let place ← w.locate .reading path
  if w.isDirectory place then return place else throw .notDirectory

/-- The names in a directory, sorted, each with what it stands for. -/
def children (w : Workspace) (place : RealPath) : List (String × Entry) :=
  w.entries.toList.filterMap fun (there, entry) =>
    there.getLast?.bind fun name => if there.dropLast = place then some (name, entry) else none

/-- The files in a directory, links left out, as paths below `path` sorted by name. -/
def listFiles (w : Workspace) (path : String) : Except OsError (List String) := do
  let place ← w.directory path
  return (w.children place).filterMap fun (name, entry) =>
    match entry with
    | .file _ => some (Path.join path name)
    | _ => none

/-- The text of a file. -/
def readText (w : Workspace) (path : String) : Except OsError String := do
  if path.isEmpty then
    throw .notFound
  else
    let place ← w.locate .reading path
    match w.entry? place with
    | some (.file content) =>
      match String.fromUTF8? content with
      | some text => return text
      | none => throw .notText
    | _ => throw .isDirectory

/-- The path names a file. -/
def isFile (w : Workspace) (path : String) : Bool :=
  match w.locate .reading path with
  | .ok place => !w.isDirectory place
  | .error _ => false

/-- The directories below a directory, in the order of a depth-first walk, each as the
names that lead to it from there. -/
def directoriesBelow (w : Workspace) (place : RealPath) : List (List String) :=
  w.entries.toList.filterMap fun (there, entry) =>
    match entry, place.isPrefixOf? there with
    | .directory, some (name :: names) => some (name :: names)
    | _, _ => none

end Workspace
end ApiDocs
