/-
  ApiDocs.Source.Literal

  The text that a string literal stands for.
-/

import ApiDocs.Source.Lexeme
import ApiDocs.Text.Basic

namespace ApiDocs.Source

/-- Takes the backslash off escaped quotes, then off escaped backslashes. -/
def unescape (cs : List Char) : List Char :=
  Text.replacePair '\\' '\\' ['\\'] (Text.replacePair '\\' '"' ['"'] cs)

/-- What stands between two quotation marks that enclose the whole text. -/
def betweenQuotes? : List Char → Option (List Char)
  | '"' :: rest => ['"'].isSuffixOf? rest
  | _ => none

/-- The text of a literal. A raw literal loses its backquotes; any other one loses its
quotation marks and has its escaped quotes and backslashes resolved, and no other escape. -/
def unquote (literal : List Char) : List Char :=
  match [backquote].isPrefixOf? literal with
  | some inner => Text.dropTrailing [backquote] inner
  | none => unescape ((betweenQuotes? literal).getD literal)

end ApiDocs.Source
