/-
  ApiDocs.Package.Session

  A session: what has been found out about packages so far. Every answer to where a package
  lies is kept, found or not, and every package is read once. The workspace may change
  between two questions; a session does not notice for what it already knows.
-/

import ApiDocs.Dict
import ApiDocs.Package.Roots
import ApiDocs.Workspace.Basic

namespace ApiDocs

/-- How often the workspace was asked. -/
structure Package.Probes where
  canonicalized : Nat
  listed : Nat
  read : Nat
  deriving DecidableEq, Repr, Inhabited

/-- What happens in a session: answers that it gives, and looks at the workspace. -/
inductive Session.Event where
  /-- The directory that an identifier was said to lead to, if any. -/
  | located (identifier : String) (answer : Option String)
  /-- The units that a directory was said to hold. -/
  | supplied (directory : String) (units : List Source.SourceUnit)
  | canonicalized (path : String)
  | listed (directory : String)
  | read (path : String)
  deriving Inhabited

/-- The types that a package declares, by name. -/
abbrev Package.SymbolTable := Dict Source.TypeDecl

/-- The packages that a package imports, by local name. -/
abbrev Package.ImportMap := Dict String

/-- What is known about packages. Identifiers lead to directories; everything else is known
by directory. -/
structure Session where
  roots : Package.SearchRoots
  /-- How paths name the workspace itself; with the empty text, what lies in it is named
  without any detour. -/
  home : String := "."
  /-- Where each identifier led when it was first asked for. -/
  located : Dict (Option String) := ∅
  units : Dict (List Source.SourceUnit) := ∅
  symbols : Dict Package.SymbolTable := ∅
  imports : Dict Package.ImportMap := ∅
  /-- What has happened so far, the latest first. -/
  journal : List Session.Event := []

/-- A computation that uses a session. What it finds out is kept even if it fails. -/
abbrev SessionM := EStateM Error Session

namespace Session

/-- Uses the session that is a part of a larger state. -/
def within {σ α : Type} (part : σ → Session) (put : σ → Session → σ) (x : SessionM α) :
    EStateM Error σ α := fun s =>
  match x (part s) with
  | .ok a session => .ok a (put s session)
  | .error e session => .error e (put s session)

/-! ## The journal -/

/-- The session with one more event. -/
def record (s : Session) (event : Event) : Session :=
  { s with journal := event :: s.journal }

/-- Records an event. -/
def note (event : Event) : SessionM Unit :=
  modify fun s => s.record event

/-- How often the workspace has been asked. -/
def probes (s : Session) : Package.Probes where
  canonicalized := s.journal.countP fun event => event matches .canonicalized _
  listed := s.journal.countP fun event => event matches .listed _
  read := s.journal.countP fun event => event matches .read _

/-! ## Locating packages -/

/-- The identifier without the quotation marks around it. -/
def bareIdentifier (identifier : String) : String :=
  let isQuote := fun c => c = '"'
  String.ofList ((identifier.toList.dropWhile isQuote).reverse.dropWhile isQuote).reverse

/-- The directory of the first root below which `identifier` names something, and the paths
that were looked at. -/
def probe (w : Workspace) (identifier : String) :
    List String → Option Workspace.RealPath × List String
  | [] => (none, [])
  | root :: roots =>
    let path := Workspace.Path.join root identifier
    match w.canonicalize? path with
    | some place => (some place, [path])
    | none =>
      let (found, asked) := probe w identifier roots
      (found, path :: asked)

/-- The directory of a package, if a root holds it. -/
def resolve (w : Workspace) (identifier : String) : SessionM (Option String) := do
  let bare := bareIdentifier identifier
  let s ← get
  match s.located[bare]? with
  | some known =>
    note (.located identifier known)
    return known
  | none =>
    let (place, asked) := probe w bare s.roots.order
    let found := place.map (Workspace.RealPath.text s.home)
    set { s with
      located := s.located.insert bare found
      journal := asked.reverse.map Event.canonicalized ++ s.journal }
    note (.located identifier found)
    return found

/-- The directory of a package, which has to exist. -/
def locate (w : Workspace) (identifier : String) : SessionM String := do
  match ← resolve w identifier with
  | some path => return path
  | none => throw (.packageNotFound (bareIdentifier identifier))

/-! ## Reading packages -/

/-- A Go file that is neither hidden nor a test. -/
def isSourceFile (path : String) : Bool :=
  match Workspace.Path.fileName? path with
  | none => false
  | some name =>
    let cs := name.toList
    cs.head? ≠ some '.' && ".go".toList.isSuffixOf cs && !"_test.go".toList.isSuffixOf cs

/-- The unit in a file. -/
def readUnit (w : Workspace) (path : String) : Except Error Source.SourceUnit := do
  match w.readText path with
  | .error e => throw (.file path e)
  | .ok text =>
    match Source.SourceUnit.ofText path text with
    | .error e => throw (.syntaxError path e)
    | .ok unit => return unit

/-- The units in these files, each of which counts as read. -/
def readUnits (w : Workspace) (paths : List String) : SessionM (List Source.SourceUnit) :=
  paths.mapM fun path => do
    note (.read path)
    match readUnit w path with
    | .ok unit => return unit
    | .error e => throw e

/-- The units in a directory. They are read when they are first asked for; a directory
that could not be read or holds a malformed unit is tried again. -/
def unitsOf (w : Workspace) (path : String) : SessionM (List Source.SourceUnit) := do
  match (← get).units[path]? with
  | some units =>
    note (.supplied path units)
    return units
  | none =>
    note (.listed path)
    match w.listFiles path with
    | .error e => throw (.file path e)
    | .ok files =>
      let units ← readUnits w (files.filter isSourceFile)
      modify fun s => { s with units := s.units.insert path units }
      note (.supplied path units)
      return units

/-- The units of a package. -/
def packageUnits (w : Workspace) (package : String) : SessionM (List Source.SourceUnit) := do
  unitsOf w (← locate w package)

/-! ## Tables -/

/-- The types that a package declares, if they have been collected. -/
def symbolTable (w : Workspace) (package : String) : SessionM (Option Package.SymbolTable) := do
  match ← resolve w package with
  | none => return none
  | some path => return (← get).symbols[path]?

/-- The imports of a package, if they have been collected. -/
def importMap (w : Workspace) (package : String) : SessionM (Option Package.ImportMap) := do
  match ← resolve w package with
  | none => return none
  | some path => return (← get).imports[path]?

end Session
end ApiDocs
