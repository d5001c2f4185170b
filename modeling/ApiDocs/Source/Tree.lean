/-
  ApiDocs.Source.Tree

  Bracket trees: code tokens with every bracket pair, and what it encloses, made one node.
  A closing bracket ends the innermost open one whatever their shapes are.
-/

import ApiDocs.Source.Layout

namespace ApiDocs.Source

/-- A code token that is no bracket, or a bracket pair with what it encloses. -/
inductive Tree where
  | leaf (code : Code)
  | group (opening : Code) (body : List Tree) (closing : Code)
  deriving Inhabited

/-- Why code tokens do not form bracket trees. -/
inductive BracketError where
  /-- A closing bracket without an open one. -/
  | unexpected (closing : Code)
  /-- The outermost bracket that is never closed, and the trees in front of it. -/
  | unclosed (before : List Tree) (opening : Code)

namespace Tree

/-- The tree's first token. -/
def first : Tree → Code
  | leaf code => code
  | group opening _ _ => opening

/-- The tree's last token. -/
def last : Tree → Code
  | leaf code => code
  | group _ _ closing => closing

mutual

/-- All tokens of the tree in source order. -/
def codes : Tree → List Code
  | leaf code => [code]
  | group opening body closing => opening :: listCodes body ++ [closing]

/-- All tokens of a list of trees in source order. -/
def listCodes : List Tree → List Code
  | [] => []
  | tree :: trees => codes tree ++ listCodes trees

end

/-- The tree is a single token of this kind. -/
def isLeaf (kind : TokenKind) : Tree → Bool
  | leaf code => code.kind = kind
  | group .. => false

/-- The text of a tree that is a single token of this kind. -/
def leafText? (kind : TokenKind) : Tree → Option String
  | leaf code => if code.kind = kind then some code.text else none
  | group .. => none

/-- The inside of a bracket pair whose opening bracket has this kind. -/
def body? (kind : TokenKind) : Tree → Option (List Tree)
  | leaf _ => none
  | group opening body _ => if opening.kind = kind then some body else none

/-- An open bracket and, in reverse, the trees that precede it on its level. -/
abbrev Frame := Code × List Tree

/-- Reads trees on one level: `frames` are the open brackets, innermost first, and
`level` the trees read on the innermost level, in reverse. -/
def build (frames : List Frame) (level : List Tree) : List Code → Except BracketError (List Tree)
  | [] =>
    match frames.getLast? with
    | none => .ok level.reverse
    | some (opening, before) => .error (.unclosed before.reverse opening)
  | code :: rest =>
    if code.kind.isOpening then
      build ((code, level) :: frames) [] rest
    else if code.kind.isClosing then
      match frames with
      | [] => .error (.unexpected code)
      | (opening, before) :: outer =>
        build outer (group opening level.reverse code :: before) rest
    else
      build frames (leaf code :: level) rest

/-- The bracket trees of a token list. -/
def ofCode (code : List Code) : Except BracketError (List Tree) :=
  build [] [] code

end Tree
end ApiDocs.Source
