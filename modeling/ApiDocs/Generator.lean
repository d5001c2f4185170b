/-
  ApiDocs.Generator

  Generating documentation: from root packages to a catalog of operations, and from a
  catalog to files.
-/

import ApiDocs.Document
import ApiDocs.Package.Scan
import ApiDocs.Package.Symbols
import ApiDocs.Swagger.Catalog
import ApiDocs.Swagger.Directive
import ApiDocs.Swagger.Metadata
import ApiDocs.Workspace.Edit

namespace ApiDocs

open Source (FuncDecl SourceUnit)
open Swagger (Catalog Operation)

/-- Decides which functions handle endpoints. -/
abbrev HandlerFilter := FuncDecl → Bool

namespace HandlerFilter

/-- Methods of types whose name ends in `suffix`. -/
def controllers (suffix : String) : HandlerFilter := fun function =>
  function.receiver.any fun receiver => suffix.toList.isSuffixOf receiver.toList

/-- Functions that are no methods. -/
def functions : HandlerFilter := fun function =>
  function.receiver.isNone

/-- All functions and methods. -/
def all : HandlerFilter := fun _ => true

end HandlerFilter

/-- A generator: what it knows about packages, what it has documented, and what it warned
about. -/
structure Generator where
  session : Session
  catalog : Catalog
  filter : HandlerFilter
  warnings : List Warning := []

/-- A computation of a generator. What it has done stays even if it fails. -/
abbrev GeneratorM := EStateM Error Generator

namespace Generator

/-- A generator that has documented nothing yet. -/
def ofSession (session : Session) (basePath : String) (filter : HandlerFilter) : Generator where
  session
  catalog := Catalog.ofBasePath basePath
  filter

/-- Uses the session. -/
def ask {α : Type} (x : SessionM α) : GeneratorM α :=
  Session.within Generator.session (fun g session => { g with session }) x

/-- Adds a warning. -/
def warn (warning : Warning) : GeneratorM Unit :=
  modify fun g => { g with warnings := g.warnings ++ [warning] }

/-- Changes the listing. -/
def modifyListing (f : Swagger.ResourceListing → Swagger.ResourceListing) : GeneratorM Unit :=
  modify fun g => { g with catalog := { g.catalog with listing := f g.catalog.listing } }

/-! ## General information -/

/-- Reads the general information about the API from the comments of a file. The file is
read anew each time. -/
def readInformation (w : Workspace) (path : String) : GeneratorM Unit := do
  ask (Session.note (.read path))
  let unit ← ofExcept (Session.readUnit w path)
  modifyListing fun listing => { listing with swaggerVersion := Swagger.swaggerVersion }
  (unit.comments.flatMap (·.lines)).forM fun line =>
    modifyListing fun listing => (listing.applyGlobal? line).getD listing

/-! ## Operations -/

/-- Applies one line of a handler's documentation. A malformed directive is reported and
skipped. -/
def applyLine (w : Workspace) (package function : String) (operation : Operation) (line : String) :
    GeneratorM Operation :=
  tryCatch (ask (operation.applyLine w line)) fun e =>
    if e.isDirective then do
      warn (.directive function package e)
      return operation
    else
      throw e

/-- Documents one handler. Without a route it is left out. -/
def documentHandler (w : Workspace) (package : String) (function : FuncDecl) : GeneratorM Unit := do
  let lines := (function.doc.map (·.lines)).getD []
  let operation ← lines.foldlM (applyLine w package function.name) (Operation.ofPackage package)
  if operation.path.isEmpty then
    return
  else
    modify fun g => { g with catalog := g.catalog.add operation }

/-- Applies a line that may describe a resource. -/
def applySubApi (line : String) : GeneratorM Unit :=
  modify fun g =>
    let (listing, warnings) := g.catalog.listing.applySubApi line
    { g with catalog := { g.catalog with listing }, warnings := g.warnings ++ warnings }

/-- Documents one unit: its handlers first, so that its comments can describe their
resources. -/
def documentUnit (w : Workspace) (package : String) (unit : SourceUnit) : GeneratorM Unit := do
  let filter := (← get).filter
  (unit.functions.filter filter).forM (documentHandler w package)
  (unit.comments.flatMap (·.lines)).forM applySubApi

/-- Documents the handlers of a package. -/
def documentPackage (w : Workspace) (package : String) : GeneratorM Unit := do
  let units ← ask (Session.packageUnits w package)
  units.forM (documentUnit w package)

/-- The packages below the given ones. -/
def scan (w : Workspace) (roots : List String) : GeneratorM (List String) := fun g =>
  match Scan.scanAll w roots { session := g.session } with
  | .ok _ s => .ok s.packages { g with session := s.session, warnings := g.warnings ++ s.warnings }
  | .error e s => .error e { g with session := s.session, warnings := g.warnings ++ s.warnings }

/-- Collects the types of packages and of all that they import. -/
def collectTypes (w : Workspace) (packages : List String) : GeneratorM Unit :=
  ask (packages.forM (Session.buildTypes w))

/-- Documents packages. The types of all of them are collected before the first handler is
read, so handlers can refer to types of any of them. -/
def documentPackages (w : Workspace) (packages : List String) : GeneratorM Unit := do
  collectTypes w packages
  packages.forM (documentPackage w)

/-- Documents the packages below the given ones. -/
def documentApi (w : Workspace) (roots : List String) : GeneratorM Unit := do
  documentPackages w (← scan w roots)

end Generator

/-! ## Writing documents -/

/-- A computation that changes a workspace. What was written stays even if it fails. -/
abbrev WriteM := EStateM Error Workspace

/-- Writes a file and creates the directories above it. -/
def writeDocument (path text : String) : WriteM Unit := do
  let directory := Workspace.Path.parent path
  match (← get).createDirectories directory with
  | .error e => throw (.file directory e)
  | .ok w =>
    set w
    match w.writeFile path text.toUTF8 with
    | .error e => throw (.file path e)
    | .ok w => set w

/-- Writes the listing and one file per resource into a directory; gives the paths of the
files, the listing first. -/
def writeDocuments (docs : Swagger.Documentation) (directory : String) (format : OutputFormat) :
    WriteM (List String) :=
  (documentFiles docs format).mapM fun (name, text) => do
    let path := Workspace.Path.join directory name
    writeDocument path text
    return path

end ApiDocs
