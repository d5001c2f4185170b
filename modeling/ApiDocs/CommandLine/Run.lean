/-
  ApiDocs.CommandLine.Run

  What the command does with its arguments: documents the packages and prints or writes the
  documents.
-/

import ApiDocs.CommandLine.Arguments
import ApiDocs.Generator

namespace ApiDocs.CommandLine

/-- Why a run failed. -/
inductive Failure where
  | noPackages
  | noMainFile (path : String)
  /-- The general information could not be read from this file. -/
  | mainFile (path : String) (cause : Error)
  | error (cause : Error)
  deriving DecidableEq, Repr

/-- The messages of a failure, the outermost first. -/
def Failure.chain : Failure → List String
  | noPackages => ["No packages to scan"]
  | noMainFile path => ["Main API file does not exist: " ++ path]
  | mainFile path cause => ("Failed to read " ++ path) :: cause.chain
  | error cause => cause.chain

/-- Arguments with the packages trimmed and blank ones dropped. Some package has to remain,
and the file with the general information has to exist. -/
def Arguments.validate (w : Workspace) (args : Arguments) : Except Failure Arguments := do
  let packages := (args.packages.map Text.trimmed).filter (· ≠ "")
  if packages.isEmpty then
    throw .noPackages
  else
    match args.mainFile with
    | some path =>
      if w.isFile path then return { args with packages } else throw (.noMainFile path)
    | none => return { args with packages }

/-- What a run leaves behind. -/
structure Outcome where
  workspace : Workspace
  /-- The text printed to the standard output. -/
  printed : String
  warnings : List Warning

/-- Prints the documents, or writes them into the output directory. -/
def publish (w : Workspace) (args : Arguments) (docs : Swagger.Documentation) :
    Except Failure (Workspace × String) :=
  match args.outputDir with
  | none => .ok (w, args.format.render docs.toJson ++ "\n")
  | some directory =>
    match writeDocuments docs directory args.format w with
    | .ok _ w => .ok (w, "")
    | .error e _ => .error (.error e)

/-- Documents the packages of a run: the general information first, so that every resource
takes over its version. -/
def document (w : Workspace) (args : Arguments) (g : Generator) : Except Failure Generator := do
  let g ← match args.mainFile with
    | none => pure g
    | some path =>
      match Generator.readInformation w path g with
      | .ok _ g => pure g
      | .error e _ => throw (.mainFile path e)
  match Generator.documentApi w args.packages g with
  | .ok _ g => return g
  | .error e _ => throw (.error e)

/-- Runs the command with the values of `GOPATH` and `GOROOT`. -/
def run (w : Workspace) (gopath goroot : Option String) (args : Arguments) :
    Except Failure Outcome := do
  match Package.SearchRoots.ofVariables gopath goroot with
  | .error e => throw (.error e)
  | .ok roots =>
    let filter := HandlerFilter.controllers args.controllerClass
    let session := { roots, home := "" }
    let g ← document w args (Generator.ofSession session args.basePath filter)
    let docs := g.catalog.documentation
    let warnings := if docs.resources.isEmpty then g.warnings ++ [.noOperations] else g.warnings
    let (workspace, printed) ← publish w args docs
    return { workspace, printed, warnings }

end ApiDocs.CommandLine
