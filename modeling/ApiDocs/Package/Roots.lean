/-
  ApiDocs.Package.Roots

  Search roots: the directories below which packages are looked for.
-/

import ApiDocs.Error
import ApiDocs.Workspace.Path

namespace ApiDocs.Package

/-- The directories below which packages are looked for. -/
structure SearchRoots where
  /-- Source directories of the configured workspaces, in order. -/
  packages : List String
  /-- The source directory of the toolchain, looked at last. -/
  toolchain : Option String
  deriving DecidableEq, Repr, Inhabited

namespace SearchRoots

/-- All roots in the order in which they are looked at. -/
def order (roots : SearchRoots) : List String :=
  roots.packages ++ roots.toolchain.toList

/-- The roots that the values of `GOPATH` and `GOROOT` give: the directory `src` of each
nonempty entry. Without entries in the first there is no configuration. -/
def ofVariables (gopath goroot : Option String) : Except Error SearchRoots :=
  match gopath.filter (· ≠ "") with
  | none => .error .noSearchPath
  | some entries =>
    let entries := (Text.pieces ':' entries).filter (· ≠ "")
    .ok {
      packages := entries.map (Workspace.Path.join · "src")
      toolchain := (goroot.filter (· ≠ "")).map (Workspace.Path.join · "src") }

end SearchRoots
end ApiDocs.Package
