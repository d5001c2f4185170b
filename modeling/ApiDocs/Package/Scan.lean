/-
  ApiDocs.Package.Scan

  Scanning: which packages lie below given ones. A directory below a root package is named
  by its path from the first place where the root's identifier occurs in it.
-/

import ApiDocs.Package.Session
import ApiDocs.Warning

namespace ApiDocs

/-- A scan under way: the packages found so far, in order and without repetitions. -/
structure Scan where
  session : Session
  packages : List String := []
  warnings : List Warning := []

/-- A computation that scans. What was found stays even if it fails. -/
abbrev ScanM := EStateM Error Scan

namespace Scan

/-- Uses the session. -/
def ask {α : Type} (x : SessionM α) : ScanM α :=
  Session.within Scan.session (fun s session => { s with session }) x

/-- The directory of frozen dependencies, which is not scanned. -/
def frozenDirectory : String := "Godeps"

/-- The directories of the tree at a path, as paths. A path that has become a link is not
itself a directory, but the tree that it leads to is walked. -/
def directories (w : Workspace) (path : String) : Except Workspace.OsError (List String) := do
  let place ← w.locate .entry path
  match w.entry? place with
  | some .directory => return path :: below place
  | some (.link _) =>
    let place ← w.locate .reading path
    return below place
  | _ => return []
where
  /-- The scanned directories below a place, as paths below `path`. -/
  below (place : Workspace.RealPath) : List String :=
    ((w.directoriesBelow place).filter fun names => names.head? ≠ some frozenDirectory).map
      fun names => names.foldl Workspace.Path.join path

/-- Adds a package unless it is known. -/
def addPackage (package : String) : ScanM Unit :=
  modify fun s =>
    if s.packages.contains package then s else { s with packages := s.packages ++ [package] }

/-- The name of the package in a directory below a root package. -/
def nameBelow? (root path : String) : Option String :=
  (Text.suffixFrom? root.toList path.toList).map String.ofList

/-- Scans the tree of one root package, unless it was met before. -/
def scanRoot (w : Workspace) (root : String) : ScanM Unit := do
  if (← get).packages.contains root then
    return
  else
    addPackage root
    let path ← ask (Session.locate w root)
    match directories w path with
    | .error cause => modify fun s => { s with warnings := s.warnings ++ [.unreadable path cause] }
    | .ok paths => (paths.filterMap (nameBelow? root)).forM addPackage

/-- Scans the trees of several root packages. -/
def scanAll (w : Workspace) (roots : List String) : ScanM Unit :=
  roots.forM (scanRoot w)

end Scan
end ApiDocs
