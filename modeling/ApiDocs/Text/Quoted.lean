/-
  ApiDocs.Text.Quoted

  Names in quotation marks, as messages show them.
-/

import ApiDocs.Text.Printable

namespace ApiDocs.Text

/-- A character inside quotation marks. Characters that would not be seen on their own are
given by their code point. -/
def shownChar (c : Char) : List Char :=
  match c with
  | '\x00' => ['\\', '0']
  | '\t' => ['\\', 't']
  | '\r' => ['\\', 'r']
  | '\n' => ['\\', 'n']
  | '\\' => ['\\', '\\']
  | '"' => ['\\', '"']
  | c =>
    if isExtender c || isInvisible c then
      '\\' :: 'u' :: '{' :: Nat.toDigits 16 c.toNat ++ ['}']
    else
      [c]

/-- A name in quotation marks. -/
def quoted (name : String) : String :=
  String.ofList ('"' :: name.toList.flatMap shownChar ++ ['"'])

/-- Several names in quotation marks, in brackets. -/
def quotedList (names : List String) : String :=
  "[" ++ ", ".intercalate (names.map quoted) ++ "]"

end ApiDocs.Text
