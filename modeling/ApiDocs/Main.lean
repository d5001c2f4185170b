/-
  ApiDocs.Main

  The command: takes the tree below the current directory as its workspace, runs, and
  writes back what the run has changed.
-/

import ApiDocs.CommandLine.Run

namespace ApiDocs.Command

/-- How the command is called. -/
def usage : String :=
  "Usage: apidocs [OPTIONS] <PACKAGES>...\n\n" ++
  "  -m, --main-api-file <FILE>     File with the general information about the API\n" ++
  "  -b, --base-path <PATH>         Base path of every API declaration\n" ++
  "  -c, --controller-class <NAME>  Suffix of the receiver types of handlers\n" ++
  "  -o, --output-dir <DIR>         Directory for the documents (default: print them)\n" ++
  "  -f, --format <FORMAT>          json or yaml (default: json)\n" ++
  "  -v, --verbose                  Report what is done\n" ++
  "  -h, --help                     Print this text\n" ++
  "  -V, --version                  Print the version"

/-- What is wrong with the arguments. -/
def complaint : CommandLine.ArgumentError → String
  | .missingPackages => "error: no packages are given"
  | .unknownArgument => "error: an argument is not known"
  | .invalidValue => "error: the value of an option is missing or invalid"
  | .repeatedOption => "error: an option is given twice"
  | .unneededValue => "error: an option takes no value"
  | .helpWanted => usage
  | .versionWanted => "apidocs 0.1.0"

/-- A failure with its causes. -/
def report (failure : CommandLine.Failure) : String :=
  match failure.chain with
  | [] => "Error"
  | [message] => "Error: " ++ message
  | message :: causes => "Error: " ++ message ++ "\n\nCaused by:\n    " ++ "\n    ".intercalate causes

/-- A path in a workspace whose root lies at `base`. -/
def below (base path : String) : String :=
  if path = base then
    "."
  else
    match (base ++ "/").toList.isPrefixOf? path.toList with
    | some rest => String.ofList rest
    | none => path

/-- Adds an entry of the file system to a workspace, a directory with everything in it. A
link that leads nowhere is taken for one to itself. -/
partial def load (base : String) (place : Workspace.RealPath) (w : Workspace)
    (entry : IO.FS.DirEntry) : IO Workspace := do
  let place := place ++ [entry.fileName]
  match (← entry.path.symlinkMetadata).type with
  | .dir =>
    (← entry.path.readDir).foldlM (load base place) (w.put place .directory)
  | .file =>
    return w.put place (.file (← IO.FS.readBinFile entry.path))
  | .symlink =>
    let target ← try
        pure (below base (toString (← IO.FS.realPath entry.path)))
      catch _ =>
        pure (Workspace.RealPath.text "." place)
    return w.put place (.link target)
  | .other =>
    return w

/-- Writes what a run has changed. -/
def save (before after : Workspace) : IO Unit := do
  for (place, entry) in after.entries.toList do
    if before.entries[place]? != some entry then
      match entry with
      | .directory => IO.FS.createDirAll (Workspace.RealPath.text "." place)
      | .file content => IO.FS.writeBinFile (Workspace.RealPath.text "." place) content
      | .link _ => pure ()

/-- A list of directories from the environment, relative to the workspace where possible. -/
def directories (base name : String) : IO (Option String) := do
  return (← IO.getEnv name).map fun value =>
    ":".intercalate ((Text.pieces ':' value).map (below base))

/-- Carries out valid arguments. -/
def execute (base : String) (w : Workspace) (args : CommandLine.Arguments) : IO UInt32 := do
  if args.verbose then
    IO.eprintln ("Packages: " ++ ", ".intercalate args.packages)
  let gopath ← directories base "GOPATH"
  let goroot ← directories base "GOROOT"
  match CommandLine.run w gopath goroot args with
  | .error failure =>
    IO.eprintln (report failure)
    return 1
  | .ok outcome =>
    for warning in outcome.warnings do
      IO.eprintln warning.message
    save w outcome.workspace
    IO.print outcome.printed
    return 0

end ApiDocs.Command

open ApiDocs in
def main (args : List String) : IO UInt32 := do
  match CommandLine.Arguments.parse args with
  | .error .helpWanted =>
    IO.println (Command.complaint .helpWanted)
    return 0
  | .error .versionWanted =>
    IO.println (Command.complaint .versionWanted)
    return 0
  | .error e =>
    IO.eprintln (Command.complaint e ++ "\n\n" ++ Command.usage)
    return 2
  | .ok args =>
    let current ← IO.currentDir
    let base := toString (← IO.FS.realPath current)
    let w ← (← current.readDir).foldlM (Command.load base []) Workspace.empty
    match args.validate w with
    | .error failure =>
      IO.eprintln (Command.report failure)
      return 1
    | .ok args => Command.execute base w args
