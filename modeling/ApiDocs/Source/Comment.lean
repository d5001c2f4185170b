/-
  ApiDocs.Source.Comment

  Comment groups: comments that stand together, and the text they hold once the comment
  markers are taken off. As for tokens, the lines are those of texts with fewer than 2^32 lines.
-/

import ApiDocs.Text.Basic

namespace ApiDocs.Source

/-- Comments with neither a blank line nor code between them. -/
structure CommentGroup where
  /-- Line of the first comment's first character. -/
  startLine : Nat
  /-- Line of the last comment's last character. -/
  endLine : Nat
  /-- The comments as written, with their markers. -/
  comments : List String
  deriving DecidableEq, Repr, Inhabited

/-- The lines inside one comment. A `//` comment is one line and loses one leading space;
a block comment loses both markers, if it has both, and keeps its lines as they are. White
space at the end of a line is dropped. -/
def commentLines (comment : List Char) : List (List Char) :=
  match comment with
  | '/' :: '/' :: body => [Text.trimEnd (Text.dropLeading [' '] body)]
  | '/' :: '*' :: inner =>
    match ['*', '/'].isSuffixOf? inner with
    | some body => (Text.lines body).map Text.trimEnd
    | none => (Text.lines comment).map Text.trimEnd
  | _ => (Text.lines comment).map Text.trimEnd

/-- The lines between the first and the last one that is not empty. -/
def dropEmptyEnds (lines : List (List Char)) : List (List Char) :=
  ((lines.dropWhile List.isEmpty).reverse.dropWhile List.isEmpty).reverse

namespace CommentGroup

/-- The comments' lines in order, without empty lines at either end. -/
def body (group : CommentGroup) : List (List Char) :=
  dropEmptyEnds (group.comments.flatMap fun comment => commentLines comment.toList)

/-- The group's text: its lines joined by line feeds. -/
def text (group : CommentGroup) : String :=
  String.ofList (['\n'].intercalate group.body)

/-- The lines of the group's text. -/
def lines (group : CommentGroup) : List String :=
  (Text.lines group.text.toList).map String.ofList

end CommentGroup
end ApiDocs.Source
