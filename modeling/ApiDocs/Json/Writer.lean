/-
  ApiDocs.Json.Writer

  JSON text in its indented form: two spaces per level, one member or item per line, and
  nothing inside empty arrays and objects.
-/

import ApiDocs.Json.Basic

namespace ApiDocs.Json

/-- A hexadecimal digit in lower case. -/
def hexDigit (n : Nat) : Char :=
  Nat.digitChar (n % 16)

/-- A character inside a string: quotation marks, backslashes and control characters are
escaped, all others stand for themselves. -/
def escapeChar (c : Char) : List Char :=
  match c with
  | '"' => ['\\', '"']
  | '\\' => ['\\', '\\']
  | '\x08' => ['\\', 'b']
  | '\x0c' => ['\\', 'f']
  | '\n' => ['\\', 'n']
  | '\r' => ['\\', 'r']
  | '\t' => ['\\', 't']
  | c =>
    if c.toNat < 0x20 then
      ['\\', 'u', '0', '0', hexDigit (c.toNat / 16), hexDigit c.toNat]
    else
      [c]

/-- A string in quotation marks. -/
def quote (s : String) : List Char :=
  '"' :: s.toList.flatMap escapeChar ++ ['"']

/-- A new line at this level of indentation. -/
def newline (level : Nat) : List Char :=
  '\n' :: List.replicate (2 * level) ' '

mutual

/-- The text of a value whose first line stands at this level. -/
def renderAt (level : Nat) : Json → List Char
  | null => ['n', 'u', 'l', 'l']
  | bool true => ['t', 'r', 'u', 'e']
  | bool false => ['f', 'a', 'l', 's', 'e']
  | natural n => Nat.toDigits 10 n
  | decimal text => text.toList
  | string s => quote s
  | array items =>
    if items.isEmpty then
      ['[', ']']
    else
      '[' :: renderItems (level + 1) items ++ newline level ++ [']']
  | object members =>
    if members.isEmpty then
      ['{', '}']
    else
      '{' :: renderMembers (level + 1) members ++ newline level ++ ['}']
  | garbled => ['"', '\\', 'u', 'd', '8', '0', '0', '"']

/-- The items of an array, each on a line of its own. -/
def renderItems (level : Nat) : List Json → List Char
  | [] => []
  | item :: items =>
    newline level ++ renderAt level item ++
      (if items.isEmpty then [] else ',' :: renderItems level items)

/-- The members of an object, each on a line of its own. -/
def renderMembers (level : Nat) : List (String × Json) → List Char
  | [] => []
  | (key, value) :: members =>
    newline level ++ quote key ++ [':', ' '] ++ renderAt level value ++
      (if members.isEmpty then [] else ',' :: renderMembers level members)

end

/-- The text of a value. -/
def render (value : Json) : String :=
  String.ofList (renderAt 0 value)

end ApiDocs.Json
