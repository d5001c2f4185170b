/-
  ApiDocs.CommandLine.Arguments

  The arguments of the command: package identifiers, and options in short and long form.
  A value may be attached to its option or follow it; short flags may be joined; after `--`
  everything is a package.
-/

import ApiDocs.Document
import ApiDocs.Text.Basic

namespace ApiDocs.CommandLine

/-- Why arguments are not carried out. Asking for help or the version counts. -/
inductive ArgumentError where
  | missingPackages
  | unknownArgument
  | invalidValue
  | repeatedOption
  | unneededValue
  | helpWanted
  | versionWanted
  deriving DecidableEq, Repr

/-- The options that take a value. -/
inductive ValueOption where
  | mainFile
  | basePath
  | controllerClass
  | outputDir
  | format
  deriving DecidableEq, Repr

/-- All options. -/
inductive AnyOption where
  | value (option : ValueOption)
  | verbose
  | help
  | version
  deriving DecidableEq, Repr

/-- The option with this letter. -/
def AnyOption.ofLetter? : Char → Option AnyOption
  | 'm' => some (.value .mainFile)
  | 'b' => some (.value .basePath)
  | 'c' => some (.value .controllerClass)
  | 'o' => some (.value .outputDir)
  | 'f' => some (.value .format)
  | 'v' => some .verbose
  | 'h' => some .help
  | 'V' => some .version
  | _ => none

/-- The option with this long name. -/
def AnyOption.ofName? : String → Option AnyOption
  | "main-api-file" => some (.value .mainFile)
  | "base-path" => some (.value .basePath)
  | "controller-class" => some (.value .controllerClass)
  | "output-dir" => some (.value .outputDir)
  | "format" => some (.value .format)
  | "verbose" => some .verbose
  | "help" => some .help
  | "version" => some .version
  | _ => none

/-- The arguments given so far, as written. -/
structure Given where
  packages : List String := []
  mainFile : Option String := none
  basePath : Option String := none
  controllerClass : Option String := none
  outputDir : Option String := none
  format : Option OutputFormat := none
  verbose : Bool := false
  deriving DecidableEq, Repr

namespace Given

/-- Sets an option. It may be given once; a file or directory must have a name, and a
format must be known. -/
def set (g : Given) (option : ValueOption) (value : String) : Except ArgumentError Given :=
  match option with
  | .mainFile =>
    if g.mainFile.isSome then .error .repeatedOption
    else if value.isEmpty then .error .invalidValue
    else .ok { g with mainFile := some value }
  | .basePath =>
    if g.basePath.isSome then .error .repeatedOption else .ok { g with basePath := some value }
  | .controllerClass =>
    if g.controllerClass.isSome then .error .repeatedOption
    else .ok { g with controllerClass := some value }
  | .outputDir =>
    if g.outputDir.isSome then .error .repeatedOption
    else if value.isEmpty then .error .invalidValue
    else .ok { g with outputDir := some value }
  | .format =>
    if g.format.isSome then .error .repeatedOption
    else
      match OutputFormat.ofName? value with
      | some format => .ok { g with format := some format }
      | none => .error .invalidValue

/-- Acts on an option without a value. -/
def flag (g : Given) : AnyOption → Except ArgumentError Given
  | .verbose => if g.verbose then .error .repeatedOption else .ok { g with verbose := true }
  | .help => .error .helpWanted
  | .version => .error .versionWanted
  | .value _ => .error .invalidValue

end Given

/-- What was read but not acted on yet: it is acted on when the next argument turns out to
be something else. -/
inductive Pending where
  | nothing
  | option (option : ValueOption) (value : Option String)
  | packages (written : List String)
  deriving DecidableEq, Repr

/-- The state of reading arguments. -/
structure Reading where
  given : Given := {}
  pending : Pending := .nothing

namespace Reading

/-- Acts on what is pending. An option without its value is an error; packages are split at
commas. -/
def settle (r : Reading) : Except ArgumentError Given :=
  match r.pending with
  | .nothing => .ok r.given
  | .option _ none => .error .invalidValue
  | .option option (some value) => r.given.set option value
  | .packages written =>
    .ok { r.given with packages := r.given.packages ++ written.flatMap (Text.pieces ',') }

/-- An option, perhaps with a value attached to it. -/
def withOption (r : Reading) (option : ValueOption) (attached : Option String) :
    Except ArgumentError Reading := do
  let given ← r.settle
  match attached with
  | some value => return { given := ← given.set option value }
  | none => return { given, pending := .option option none }

/-- An option that takes no value. -/
def withFlag (r : Reading) (option : AnyOption) : Except ArgumentError Reading := do
  let given ← r.settle
  return { given := ← given.flag option }

/-- A package, or several joined by commas. -/
def withPackage (r : Reading) (written : String) : Except ArgumentError Reading :=
  match r.pending with
  | .packages before => .ok { r with pending := .packages (before ++ [written]) }
  | _ => do
    let given ← r.settle
    return { given, pending := .packages [written] }

/-- A long option, without its dashes. -/
def withLong (r : Reading) (cs : List Char) : Except ArgumentError Reading :=
  let (name, attached) := match Text.splitFirst (· = '=') cs with
    | some (name, value) => (name, some (String.ofList value))
    | none => (cs, none)
  match AnyOption.ofName? (String.ofList name) with
  | none => .error .unknownArgument
  | some (.value option) => r.withOption option attached
  | some option => if attached.isSome then .error .unneededValue else r.withFlag option

/-- Joined short options, without their dash. The first one that takes a value takes the
rest of the argument, if there is any. -/
def withShort (r : Reading) : List Char → Except ArgumentError Reading
  | [] => .ok r
  | letter :: rest =>
    match AnyOption.ofLetter? letter with
    | none => .error .unknownArgument
    | some (.value option) =>
      let attached := match rest with
        | [] => none
        | '=' :: value => some (String.ofList value)
        | value => some (String.ofList value)
      r.withOption option attached
    | some option => do
      let r ← r.withFlag option
      r.withShort rest

/-- An argument that is no option: the value of the option before it, or a package. -/
def withWord (r : Reading) (word : String) : Except ArgumentError Reading :=
  match r.pending with
  | .option option none => .ok { r with pending := .option option (some word) }
  | _ => r.withPackage word

/-- Reads one argument after the other. -/
def readAll (r : Reading) : List String → Except ArgumentError Reading
  | [] => .ok r
  | arg :: args =>
    match arg.toList with
    | ['-', '-'] => args.foldlM withPackage r
    | '-' :: '-' :: long => do
      let r ← r.withLong long
      r.readAll args
    | '-' :: letter :: letters => do
      let r ← r.withShort (letter :: letters)
      r.readAll args
    | _ => do
      let r ← r.withWord arg
      r.readAll args

end Reading

/-- The arguments of a run. -/
structure Arguments where
  packages : List String
  mainFile : Option String := none
  basePath : String := ""
  controllerClass : String := ""
  outputDir : Option String := none
  format : OutputFormat := .json
  verbose : Bool := false
  deriving DecidableEq, Repr

/-- The arguments that a command line gives. -/
def Arguments.parse (args : List String) : Except ArgumentError Arguments := do
  let r ← Reading.readAll {} args
  let g ← r.settle
  if g.packages.isEmpty then
    throw .missingPackages
  else
    return {
      packages := g.packages
      mainFile := g.mainFile
      basePath := g.basePath.getD ""
      controllerClass := g.controllerClass.getD ""
      outputDir := g.outputDir
      format := g.format.getD .json
      verbose := g.verbose }

end ApiDocs.CommandLine
