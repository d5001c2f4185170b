/-
  ApiDocs.Yaml.Writer

  YAML text in block style. A nested mapping is indented by two columns; a sequence stands
  in the column of its key. Empty collections are written in brackets.
-/

import ApiDocs.Json.Basic
import ApiDocs.Yaml.Scalar

namespace ApiDocs.Yaml

mutual

/-- The members of a mapping, one after the other, in this column. -/
def mapping (column : Nat) : List (String × Json) → List Char
  | [] => []
  | (name, value) :: members =>
    spaces column ++ key (column + 2) name ++ [':'] ++ memberValue column value ++
      mapping column members

/-- What follows the colon of a key in this column, up to the end of the line or block. -/
def memberValue (column : Nat) : Json → List Char
  | .object members =>
    if members.isEmpty then " \x7b\x7d\n".toList else '\n' :: mapping (column + 2) members
  | .array items =>
    if items.isEmpty then " []\n".toList else '\n' :: sequence column items
  | .string s => ' ' :: scalarLine (column + 2) s
  | .bool b => (if b then " true\n" else " false\n").toList
  | .natural n => ' ' :: Nat.toDigits 10 n ++ ['\n']
  | .decimal text => ' ' :: text.toList ++ ['\n']
  | .null | .garbled => " null\n".toList

/-- The items of a sequence, one after the other, in this column. -/
def sequence (column : Nat) : List Json → List Char
  | [] => []
  | item :: items =>
    spaces column ++ ['-', ' '] ++ itemValue column item ++ sequence column items

/-- What follows the dash of an item in this column. The first line of a collection starts
behind the dash. -/
def itemValue (column : Nat) : Json → List Char
  | .object members =>
    if members.isEmpty then "\x7b\x7d\n".toList
    else (mapping (column + 2) members).drop (column + 2)
  | .array items =>
    if items.isEmpty then "[]\n".toList
    else (sequence (column + 2) items).drop (column + 2)
  | .string s => scalarLine (column + 2) s
  | .bool b => (if b then "true\n" else "false\n").toList
  | .natural n => Nat.toDigits 10 n ++ ['\n']
  | .decimal text => text.toList ++ ['\n']
  | .null | .garbled => "null\n".toList

end

/-- The text of a document. -/
def render (value : Json) : String :=
  String.ofList <|
    match value with
    | .object members => if members.isEmpty then "\x7b\x7d\n".toList else mapping 0 members
    | .array items => if items.isEmpty then "[]\n".toList else sequence 0 items
    | value => (memberValue 0 value).drop 1

end ApiDocs.Yaml
