/-
  ApiDocs.Source.Tokens

  The tokens of a whole text: lexeme after lexeme, with the blanks between them skipped
  and the lines counted.
-/

import ApiDocs.Source.Lexeme

namespace ApiDocs.Source

/-- How much of rejected input a message shows, in characters. -/
def LexError.shown : Nat := 32

namespace Token

/-- The tokens of `cs`, whose first character stands on line `line`. -/
def scan (line : Nat) (cs : List Char) : Except LexError (List Token) :=
  match _h : cs.dropWhile isSkipped with
  | [] => .ok []
  | c :: tail =>
    match _hr : Lexeme.read c tail with
    | .rejected text => .error ⟨line, String.ofList (text.take LexError.shown)⟩
    | .found kind text rest =>
      match scan (line + text.count '\n') rest with
      | .ok tokens => .ok (⟨kind, String.ofList text, line⟩ :: tokens)
      | .error e => .error e
termination_by cs.length
decreasing_by
  have hl := Lexeme.length_of_read _hr
  have hd := (List.dropWhile_suffix isSkipped (l := cs)).length_le
  rw [_h] at hd
  omega

/-- The text without the byte order mark that may open it. -/
def dropMark : List Char → List Char
  | '\ufeff' :: cs => cs
  | cs => cs

/-- The tokens of a source text. -/
def ofText (source : String) : Except LexError (List Token) :=
  scan 1 (dropMark source.toList)

end Token
end ApiDocs.Source
