/-
  ApiDocs.Package.Symbols

  Collecting the types that packages declare and the packages that they import, for one
  package and for everything it imports.
-/

import ApiDocs.Package.Session

namespace ApiDocs.Session

/-- Imports that name no directory. -/
def isVirtual (identifier : String) : Bool :=
  ["C", "appengine/cloudsql", "appengine/datastore"].contains identifier

/-- Adds the types that units declare to a table; a later one replaces an earlier one of the
same name. -/
def addTypes (table : Package.SymbolTable) (units : List Source.SourceUnit) : Package.SymbolTable :=
  (units.flatMap (·.types)).foldl (fun table decl => table.insert decl.name decl) table

/-- Collects the types declared in a directory. -/
def collectTypes (path : String) (units : List Source.SourceUnit) : SessionM Unit :=
  modify fun s =>
    { s with symbols := s.symbols.insert path (addTypes ((s.symbols[path]?).getD ∅) units) }

/-- The imports of units that name directories. -/
def importsOf (units : List Source.SourceUnit) : List Source.Import :=
  (units.flatMap (·.imports)).filter fun i => !isVirtual i.path

/-- Adds the local name of an import, if it has one; a later one replaces an earlier one. -/
def addLocalName (known : Package.ImportMap) (imported : Source.Import) : Package.ImportMap :=
  match imported.localName? with
  | some name => known.insert name imported.path
  | none => known

/-- An import map under construction, and the imported packages without symbols. -/
structure Imported where
  known : Package.ImportMap := ∅
  unresolved : Dict Unit := ∅

/-- Adds an import, which must lead to a directory. -/
def addImport (w : Workspace) (acc : Imported) (imported : Source.Import) : SessionM Imported := do
  let path ← locate w imported.path
  let known := addLocalName acc.known imported
  if (← get).symbols.contains path then
    return { acc with known }
  else
    return { known, unresolved := acc.unresolved.insert imported.path () }

/-- Collects the imports of a package anew. The imported packages whose types have not been
collected are returned, sorted. On failure the imports known before stay. -/
def collectImports (w : Workspace) (package : String) : SessionM (List String) := do
  let path ← locate w package
  let units ← unitsOf w path
  let found ← (importsOf units).foldlM (addImport w) {}
  modify fun s => { s with imports := s.imports.insert path found.known }
  return found.unresolved.keys

/-- Collects the types and the imports of a package that lies at `path`. The imported packages
whose types have not been collected are returned, sorted. -/
def collect (w : Workspace) (package path : String) : SessionM (List String) := do
  let units ← unitsOf w path
  collectTypes path units
  collectImports w package

/-- Collects the types and imports of a package and of every package that it imports, directly
or not. The directories in `visited` are not entered again; those visited in the end are
returned. At most `depth` directories are entered one from the other. -/
def collectFrom (w : Workspace) : Nat → List String → String → SessionM (List String)
  | 0, visited, _ => return visited
  | depth + 1, visited, package => do
    let path ← locate w package
    if visited.contains path then
      return visited
    else
      let imported ← collect w package path
      imported.foldlM (collectFrom w depth) (path :: visited)

/-- Every directory that an identifier can lead to: the known answers and the places of the
workspace. -/
def reachable (w : Workspace) (s : Session) : List String :=
  (Dict.contents s.located).filterMap id ++ w.paths s.home

/-- Collects the types and imports of a package and of every package that it imports. No
directory is entered twice, so their number bounds how deep the walk goes. -/
def buildTypes (w : Workspace) (package : String) : SessionM Unit := do
  let s ← get
  discard <| collectFrom w ((reachable w s).length + 1) [] package

end ApiDocs.Session
