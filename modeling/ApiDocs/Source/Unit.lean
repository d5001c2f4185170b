/-
  ApiDocs.Source.Unit

  Source units: the declarations and comments of one Go file. Only what documentation
  needs is read, which is the package clause, imports, types and functions; bodies and
  initialisers are skipped.
-/

import ApiDocs.Source.Tokens
import ApiDocs.Source.TypeExpr

namespace ApiDocs.Source

/-- An import: the name given to the package, if any, and the package it names. -/
structure Import where
  name : Option String
  path : String
  deriving DecidableEq, Repr

/-- The name that qualifies references to the imported package. Blank and dot imports have
none; without a given name it is the last segment of the path. -/
def Import.localName? (imported : Import) : Option String :=
  match imported.name with
  | some "_" | some "." => none
  | some name => some name
  | none => ((Text.pieces '/' imported.path).getLast?).filter (· ≠ "")

/-- A type declaration. -/
structure TypeDecl where
  name : String
  type : TypeExpr
  doc : Option CommentGroup
  deriving Inhabited

/-- A function declaration. A method has the name of its receiver's type. -/
structure FuncDecl where
  name : String
  receiver : Option String
  doc : Option CommentGroup
  deriving DecidableEq, Repr, Inhabited

/-- A source file. -/
structure SourceUnit where
  path : String
  package : String
  imports : List Import
  types : List TypeDecl
  functions : List FuncDecl
  /-- All comment groups, documentation included. -/
  comments : List CommentGroup
  deriving Inhabited

/-- Why a text is no source unit. -/
inductive SyntaxError where
  | input (error : LexError)
  | unexpectedBracket (line : Nat) (text : String)
  | unbalancedBrackets (line : Nat)
  | importPath (line : Nat)
  | typeName (line : Nat)
  | packageClause
  deriving DecidableEq, Repr

namespace SyntaxError

/-- The line that the error is reported on. -/
def line : SyntaxError → Nat
  | input error => error.line
  | unexpectedBracket line _ => line
  | unbalancedBrackets line => line
  | importPath line => line
  | typeName line => line
  | packageClause => 1

/-- What is wrong on that line. -/
def reason : SyntaxError → String
  | input error => "unexpected input `" ++ error.text ++ "`"
  | unexpectedBracket _ text => "unexpected `" ++ text ++ "`"
  | unbalancedBrackets _ => "unbalanced brackets"
  | importPath _ => "expected import path"
  | typeName _ => "expected type name"
  | packageClause => "missing package clause"

/-- The error as shown to the user. -/
def message (e : SyntaxError) : String :=
  "line " ++ toString e.line ++ ": " ++ e.reason

end SyntaxError

/-! ## Declarations -/

/-- The name that an import spec starts with, if it starts with one or with a dot, and
the trees after it. -/
def Import.splitName : List Tree → Option String × List Tree
  | .leaf code :: rest =>
    if code.kind = .identifier || code.kind = .dot then
      (some code.text, rest)
    else
      (none, .leaf code :: rest)
  | spec => (none, spec)

/-- One import, from the trees of its spec; `line` is where the spec starts. -/
def Import.read (line : Nat) (spec : List Tree) : Except SyntaxError Import :=
  match Import.splitName spec with
  | (name, .leaf code :: _) =>
    if code.kind.isString then
      .ok ⟨name, String.ofList (unquote code.text.toList)⟩
    else
      .error (.importPath line)
  | _ => .error (.importPath line)

/-- The imports of an import statement: one, or one per line inside parentheses. -/
def Import.readAll (s : Statement) : Except SyntaxError (List Import) :=
  match s.tail.head?.bind (·.body? .leftParen) with
  | some body =>
    (Statement.split body).mapM fun spec => Import.read spec.head.first.line spec.trees
  | none => do
    return [← Import.read s.lineAfterHead s.tail]

/-- What stands in brackets behind a type's name is a list of type parameters rather than
an array length: a parameter's name is followed by its constraint or by a comma. Before a
star only a comma further on tells them apart. -/
def isTypeParameters : List Tree → Bool
  | .leaf name :: next :: rest =>
    name.kind = .identifier &&
      match next with
      | .group opening _ _ => opening.kind = .leftBracket
      | .leaf code =>
        match code.kind with
        | .identifier | .comma => true
        | .operator => code.text = "~"
        | .star => rest.any (·.isLeaf .comma)
        | _ => false
  | _ => false

/-- The trees without a leading list of type parameters. -/
def dropTypeParameters : List Tree → List Tree
  | .group opening body closing :: rest =>
    if opening.kind = .leftBracket && isTypeParameters body then
      rest
    else
      .group opening body closing :: rest
  | trees => trees

/-- The trees without a leading equals sign. -/
def dropEquals : List Tree → List Tree
  | .leaf code :: rest =>
    if code.kind = .operator && code.text = "=" then rest else .leaf code :: rest
  | trees => trees

/-- One type declaration, from the trees of its spec; `line` is where the spec starts. -/
def TypeDecl.read (line : Nat) (doc : Option CommentGroup) (spec : List Tree) :
    Except SyntaxError TypeDecl :=
  match spec.head?.bind (·.leafText? .identifier) with
  | none => .error (.typeName line)
  | some name =>
    .ok { name, type := (TypeExpr.read (dropEquals (dropTypeParameters spec.tail))).1, doc }

/-- The types of a type statement: one, or one per line inside parentheses. -/
def TypeDecl.readAll (s : Statement) : Except SyntaxError (List TypeDecl) :=
  match s.tail.head?.bind (·.body? .leftParen) with
  | some body =>
    (Statement.split body).mapM fun spec =>
      TypeDecl.read spec.head.first.line spec.head.first.doc spec.trees
  | none => do
    return [← TypeDecl.read s.lineAfterHead s.head.first.doc s.tail]

/-- The type name of a receiver: the last identifier before any bracket. -/
def receiverName? (body : List Tree) : Option String :=
  let named := (Tree.listCodes body).takeWhile (·.kind ≠ .leftBracket)
  ((named.filter (·.kind = .identifier)).getLast?).map (·.text)

/-- The function of a `func` statement; none if no name follows. -/
def FuncDecl.read? (s : Statement) : Option FuncDecl :=
  let doc := s.head.first.doc
  match s.tail.head?.bind (·.body? .leftParen) with
  | some body =>
    (s.tail.tail.head?.bind (·.leafText? .identifier)).map fun name =>
      { name, receiver := receiverName? body, doc }
  | none =>
    (s.tail.head?.bind (·.leafText? .identifier)).map fun name => { name, receiver := none, doc }

/-! ## Units -/

/-- The declarations seen so far. A later package clause replaces an earlier one. -/
structure Declarations where
  package : Option String := none
  imports : List Import := []
  types : List TypeDecl := []
  functions : List FuncDecl := []

/-- Adds what one statement declares. Statements that start with no known word declare
nothing. -/
def Declarations.add (d : Declarations) (s : Statement) : Except SyntaxError Declarations :=
  match s.head.leafText? .identifier with
  | some "package" => .ok { d with package := s.tail.head?.bind (·.leafText? .identifier) }
  | some "import" => do
    let imports ← Import.readAll s
    return { d with imports := d.imports ++ imports }
  | some "type" => do
    let types ← TypeDecl.readAll s
    return { d with types := d.types ++ types }
  | some "func" => .ok { d with functions := d.functions ++ (FuncDecl.read? s).toList }
  | _ => .ok d

/-- The statements of a unit. An unclosed bracket is reported where the statement that
holds it starts. -/
def topLevel (code : List Code) : Except SyntaxError (List Statement) :=
  match Tree.ofCode code with
  | .ok trees => .ok (Statement.split trees)
  | .error (.unexpected closing) => .error (.unexpectedBracket closing.line closing.text)
  | .error (.unclosed before opening) =>
    let start := (Statement.split (before ++ [.leaf opening])).getLast?
    .error (.unbalancedBrackets ((start.map (·.head.first)).getD opening).line)

namespace SourceUnit

/-- The unit that a token list declares. -/
def ofTokens (path : String) (tokens : List Token) : Except SyntaxError SourceUnit := do
  let layout := Layout.ofTokens tokens
  let statements ← topLevel layout.code
  let d ← statements.foldlM Declarations.add {}
  match d.package with
  | none => throw .packageClause
  | some package =>
    return {
      path, package
      imports := d.imports
      types := d.types
      functions := d.functions
      comments := layout.groups }

/-- The unit that a source text declares. -/
def ofText (path source : String) : Except SyntaxError SourceUnit :=
  match Token.ofText source with
  | .error e => .error (.input e)
  | .ok tokens => ofTokens path tokens

end SourceUnit
end ApiDocs.Source
