/-
  ApiDocs.Yaml.Scalar

  How a text is written as a YAML scalar: plain where that is read back as the same text,
  else in single quotes, in double quotes, or as a literal block.
-/

import ApiDocs.Text.Basic

namespace ApiDocs.Yaml

/-! ## Texts that would be read as something else -/

/-- The text without one leading plus sign. -/
def dropPlus : List Char → List Char
  | '+' :: cs => cs
  | cs => cs

/-- A nonempty run of decimal digits and nothing else. -/
def isDigits (cs : List Char) : Bool :=
  !cs.isEmpty && cs.all Char.isDigit

/-- The value of a digit in bases up to sixteen. -/
def digitValue (c : Char) : Nat :=
  if c.isDigit then c.toNat - '0'.toNat
  else if 'a' ≤ c ∧ c ≤ 'f' then c.toNat - 'a'.toNat + 10
  else if 'A' ≤ c ∧ c ≤ 'F' then c.toNat - 'A'.toNat + 10
  else 16

/-- The number that a nonempty run of digits of this base denotes. -/
def numberInBase? (base : Nat) (cs : List Char) : Option Nat :=
  if !cs.isEmpty && cs.all (digitValue · < base) then
    some (cs.foldl (fun n c => base * n + digitValue c) 0)
  else
    none

/-- The number that a nonempty run of digits denotes, behind `0x`, `0o` or `0b` in the
base that these announce. -/
def magnitude? : List Char → Option Nat
  | '0' :: 'x' :: cs => numberInBase? 16 cs
  | '0' :: 'o' :: cs => numberInBase? 8 cs
  | '0' :: 'b' :: cs => numberInBase? 2 cs
  | cs => numberInBase? 10 cs

/-- Several digits of which the first is a zero, perhaps after a sign. -/
def hasLeadingZero (cs : List Char) : Bool :=
  let digits := match cs with
    | '+' :: rest => rest
    | '-' :: rest => rest
    | rest => rest
  match digits with
  | '0' :: d :: rest => isDigits (d :: rest)
  | _ => false

/-- An integer of at most 128 bits. -/
def isInteger (cs : List Char) : Bool :=
  match cs with
  | '-' :: rest => (magnitude? rest).any (· ≤ Nat.pow 2 127)
  | _ => (magnitude? (dropPlus cs)).any (· < Nat.pow 2 128)

/-- A decimal number taken apart: its digits before and after the point, and its exponent. -/
structure Decimal where
  whole : List Char
  fraction : List Char
  exponent : Int

/-- The exponent behind the digits of a decimal number; zero if there is none. -/
def exponent? : List Char → Option Int
  | [] => some 0
  | e :: rest =>
    if e = 'e' || e = 'E' then
      match rest with
      | '-' :: ds => if isDigits ds then some (-(Nat.ofDigitChars 10 ds 0 : Int)) else none
      | _ =>
        let ds := dropPlus rest
        if isDigits ds then some (Nat.ofDigitChars 10 ds 0 : Int) else none
    else
      none

/-- A decimal number without a sign: digits, with a point before, among or after them, and
an optional exponent. -/
def decimal? (cs : List Char) : Option Decimal :=
  let whole := cs.takeWhile Char.isDigit
  let rest := cs.dropWhile Char.isDigit
  let (fraction, rest) := match rest with
    | '.' :: after => (after.takeWhile Char.isDigit, after.dropWhile Char.isDigit)
    | _ => ([], rest)
  if whole.isEmpty && fraction.isEmpty then
    none
  else
    (exponent? rest).map fun exponent => { whole, fraction, exponent }

/-- The number rounds to a finite double: it lies below the midpoint between the largest
double and the next power of two. Exponents beyond a thousand are decided by the number
of digits alone, which keeps the powers of ten small. -/
def Decimal.isFinite (d : Decimal) : Bool :=
  let digits := d.whole ++ d.fraction
  let mantissa := Nat.ofDigitChars 10 digits 0
  let scale := d.exponent - d.fraction.length
  let size := scale + digits.length
  let limit := (Nat.pow 2 54 - 1) * Nat.pow 2 970
  if mantissa = 0 || size < -1000 then
    true
  else if scale > 1000 then
    false
  else if 0 ≤ scale then
    mantissa * Nat.pow 10 scale.toNat < limit
  else
    mantissa < limit * Nat.pow 10 (-scale).toNat

/-- A finite floating-point number, an infinity, or not a number. -/
def isFloat (cs : List Char) : Bool :=
  [".inf", ".Inf", ".INF", "+.inf", "+.Inf", "+.INF", "-.inf", "-.Inf", "-.INF",
    ".nan", ".NaN", ".NAN"].contains (String.ofList cs) ||
  let unsigned := match cs with
    | '-' :: rest => rest
    | _ => dropPlus cs
  (decimal? unsigned).any Decimal.isFinite

/-- The text would be read as a null, a boolean or a number, or looks like a number. -/
def isAmbiguous (cs : List Char) : Bool :=
  ["", "~", "null", "Null", "NULL", "true", "True", "TRUE", "false", "False", "FALSE"].contains
    (String.ofList cs) ||
  hasLeadingZero cs || isInteger cs || isFloat cs

/-! ## Characters -/

/-- A line break: line feed, carriage return, next line, line or paragraph separator. -/
def isBreak (c : Char) : Bool :=
  c = '\n' || c = '\r' || c = '\x85' || c = '\u2028' || c = '\u2029'

/-- A space, a tab, a line break or a null character. -/
def isGap (c : Char) : Bool :=
  c = ' ' || c = '\t' || c = '\x00' || isBreak c

/-- The character may stand unescaped in a document. -/
def isPrintable (c : Char) : Bool :=
  let n := c.toNat
  n = 0x0A || (0x20 ≤ n && n ≤ 0x7E) || (0xA0 ≤ n && n ≤ 0xD7FF) ||
    (0xE000 ≤ n && n ≤ 0xFFFD && n ≠ 0xFEFF) || 0x10000 ≤ n

/-! ## Styles -/

/-- Two neighbouring characters satisfy `first` and `second`. -/
def hasNeighbours (first second : Char → Bool) : List Char → Bool
  | c :: d :: rest => (first c && second d) || hasNeighbours first second (d :: rest)
  | _ => false

/-- A colon before a gap or the end, or a number sign after a gap. -/
def hasInnerMark (cs : List Char) : Bool :=
  cs.getLast? = some ':' || hasNeighbours (· = ':') isGap cs || hasNeighbours isGap (· = '#') cs

/-- The text starts with something that has a meaning of its own in YAML. -/
def startsWithMark (cs : List Char) : Bool :=
  match cs with
  | '-' :: '-' :: '-' :: _ => true
  | '.' :: '.' :: '.' :: _ => true
  | c :: rest =>
    "#,[]\x7b\x7d&*!|>\x27\"%@\x60".toList.contains c ||
      ((c = '?' || c = ':' || c = '-') && (rest.head?.all isGap))
  | [] => false

/-- The text holds a character that has to be escaped, or a space before a line break. -/
def needsEscapes (cs : List Char) : Bool :=
  cs.any (!isPrintable ·) || hasNeighbours (· = ' ') isBreak cs

/-- The text can be written without quotes. -/
def isPlain (cs : List Char) : Bool :=
  !cs.any isBreak && !needsEscapes cs && cs.head? ≠ some ' ' && cs.getLast? ≠ some ' ' &&
    !startsWithMark cs && !hasInnerMark cs

/-- The forms of a scalar. -/
inductive Style where
  | plain
  | single
  | double
  | literal
  deriving DecidableEq, Repr

/-- The form in which a text is written. A key takes one line. -/
def styleOf (isKey : Bool) (cs : List Char) : Style :=
  let quotable := !needsEscapes cs && !hasNeighbours isBreak (· = ' ') cs
  if cs.contains '\n' then
    if isKey || needsEscapes cs || cs.getLast? = some ' ' then .double else .literal
  else if isKey && cs.any isBreak then
    .double
  else if !isAmbiguous cs && isPlain cs then
    .plain
  else if quotable then
    .single
  else
    .double

/-! ## Writing -/

/-- Indentation by this many columns. -/
def spaces (n : Nat) : List Char :=
  List.replicate n ' '

/-- The characters of a text with the line that follows each run of breaks indented. -/
def indentLines (indent : Nat) (write : Char → List Char) (fresh : Bool) : List Char → List Char
  | [] => []
  | c :: cs =>
    if isBreak c then
      c :: indentLines indent write true cs
    else
      (if fresh then spaces indent else []) ++ write c ++ indentLines indent write false cs

/-- A text in single quotes, in which a quote is doubled. -/
def single (indent : Nat) (cs : List Char) : List Char :=
  let doubled := fun c => if c = '\x27' then ['\x27', '\x27'] else [c]
  let tail := if cs.getLast?.any isBreak then spaces indent else []
  '\x27' :: indentLines indent doubled false cs ++ tail ++ ['\x27']

/-- The last `width` hexadecimal digits of a number, in upper case. -/
def hexDigits (n : Nat) : Nat → List Char
  | 0 => []
  | width + 1 => hexDigits (n / 16) width ++ [(Nat.digitChar (n % 16)).toUpper]

/-- A character inside double quotes. -/
def escapeChar (c : Char) : List Char :=
  match c with
  | '\x00' => ['\\', '0']
  | '\x07' => ['\\', 'a']
  | '\x08' => ['\\', 'b']
  | '\t' => ['\\', 't']
  | '\n' => ['\\', 'n']
  | '\x0b' => ['\\', 'v']
  | '\x0c' => ['\\', 'f']
  | '\r' => ['\\', 'r']
  | '\x1b' => ['\\', 'e']
  | '"' => ['\\', '"']
  | '\\' => ['\\', '\\']
  | '\x85' => ['\\', 'N']
  | '\u2028' => ['\\', 'L']
  | '\u2029' => ['\\', 'P']
  | c =>
    if isPrintable c then [c]
    else if c.toNat ≤ 0xFF then '\\' :: 'x' :: hexDigits c.toNat 2
    else if c.toNat ≤ 0xFFFF then '\\' :: 'u' :: hexDigits c.toNat 4
    else '\\' :: 'U' :: hexDigits c.toNat 8

/-- A text in double quotes. -/
def double (cs : List Char) : List Char :=
  '"' :: cs.flatMap escapeChar ++ ['"']

/-- The head of a literal block: the indentation if the text starts with a space or a
break, then how its final line breaks are kept. -/
def literalHead (cs : List Char) : List Char :=
  let hint := if cs.head?.any fun c => c = ' ' || isBreak c then ['2'] else []
  let keep := match cs.reverse with
    | [] => ['-']
    | last :: before =>
      if !isBreak last then ['-']
      else if before.head?.all isBreak then ['+']
      else []
  '|' :: hint ++ keep

/-- A scalar as a value, together with the line feed that ends it. -/
def scalarLine (indent : Nat) (s : String) : List Char :=
  let cs := s.toList
  match styleOf false cs with
  | .plain => cs ++ ['\n']
  | .single => single indent cs ++ ['\n']
  | .double => double cs ++ ['\n']
  | .literal =>
    literalHead cs ++ ['\n'] ++ indentLines indent (fun c => [c]) true cs ++
      (if cs.getLast?.any isBreak then [] else ['\n'])

/-- A scalar as a key. -/
def key (indent : Nat) (s : String) : List Char :=
  let cs := s.toList
  match styleOf true cs with
  | .plain => cs
  | .single => single indent cs
  | .double | .literal => double cs

end ApiDocs.Yaml
