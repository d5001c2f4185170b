/-
  ApiDocs.Source.Lexeme

  Reading one lexeme from the head of a text. The longest lexeme wins: each reader
  below takes as many characters as its pattern allows.

  Main statement: a lexeme is a nonempty beginning of the text, and nothing of the text is
  lost between it and what is left (`read_splits`).
-/

import ApiDocs.Source.Token
import ApiDocs.Text.Letter
import ApiDocs.Text.Numeral

namespace ApiDocs.Source

/-- The mark around raw string literals. -/
def backquote : Char := '\x60'

/-- The mark around rune literals. -/
def apostrophe : Char := '\x27'

/-- Blanks between tokens: space, tab, carriage return and form feed. -/
def isSkipped (c : Char) : Bool :=
  c = ' ' || c = '\t' || c = '\r' || c = '\x0c'

/-- The first character of an identifier: a letter or an underscore. -/
def isNameStart (c : Char) : Bool :=
  c = '_' || Text.isLetter c

/-- A later character of an identifier: a letter, a numeral or an underscore. -/
def isNamePart (c : Char) : Bool :=
  c = '_' || Text.isLetter c || Text.isNumeral c

/-- The characters that operators are made of, the slash and the star apart. -/
def isOperatorSign (c : Char) : Bool :=
  "+-%&|^<>=!:~".toList.contains c

/-- What one attempt at the head of a text gives. -/
inductive Lexeme where
  /-- A lexeme of this kind, and the text after it. -/
  | found (kind : TokenKind) (text rest : List Char)
  /-- No lexeme starts here; the input that was taken before this was clear. -/
  | rejected (text : List Char)
  deriving DecidableEq, Repr

namespace Lexeme

/-! ## Runs of characters -/

/-- The rest of a number. Digits, letters, underscores and, if `point` allows it, points;
a sign belongs to the number when it follows an exponent letter. -/
def numberTail (point : Bool) : List Char → List Char × List Char
  | [] => ([], [])
  | c :: d :: cs =>
    if ['e', 'E', 'p', 'P'].contains c && (d = '+' || d = '-') then
      let (taken, rest) := numberTail point cs
      (c :: d :: taken, rest)
    else if continues c then
      let (taken, rest) := numberTail point (d :: cs)
      (c :: taken, rest)
    else
      ([], c :: d :: cs)
  | [c] => if continues c then ([c], []) else ([], [c])
where
  /-- The character may continue a number by itself. -/
  continues (c : Char) : Bool :=
    c.isAlphanum || c = '_' || (point && c = '.')

/-- The rest of a quoted literal: plain characters and backslash pairs up to the closing
mark `quote`, which is taken too. Without one before the end of the line there is no rest. -/
def quotedTail (quote : Char) : List Char → List Char × Option (List Char)
  | [] => ([], none)
  | c :: cs =>
    if c = quote then
      ([c], some cs)
    else if c = '\n' then
      ([], none)
    else if c = '\\' then
      match cs with
      | [] => ([], none)
      | d :: ds =>
        if d = '\n' then
          ([], none)
        else
          let (taken, rest) := quotedTail quote ds
          (c :: d :: taken, rest)
    else
      let (taken, rest) := quotedTail quote cs
      (c :: taken, rest)

/-- The rest of a block comment: everything up to and including the first `*/`. -/
def blockTail : List Char → Option (List Char × List Char)
  | [] => none
  | c :: cs =>
    match c, cs with
    | '*', '/' :: rest => some (['*', '/'], rest)
    | _, _ => (blockTail cs).map fun (taken, rest) => (c :: taken, rest)

/-! ## Lexemes by their first character -/

/-- A lexeme that starts with a slash: a comment, `/=` or `/`. -/
def slash : List Char → Lexeme
  | '/' :: cs => found .lineComment ('/' :: '/' :: cs.takeWhile (· ≠ '\n')) (cs.dropWhile (· ≠ '\n'))
  | '*' :: cs =>
    match blockTail cs with
    | some (taken, rest) => found .blockComment ('/' :: '*' :: taken) rest
    | none => rejected ['/', '*']
  | '=' :: cs => found .operator ['/', '='] cs
  | cs => found .operator ['/'] cs

/-- A number that starts with the digit `c`; it may hold points. -/
def number (c : Char) (cs : List Char) : Lexeme :=
  let (taken, rest) := numberTail true cs
  found .number (c :: taken) rest

/-- A lexeme that starts with a point: a fraction without further points, `...` or `.`. -/
def point (cs : List Char) : Lexeme :=
  match cs with
  | d :: ds =>
    if d.isDigit then
      let (taken, rest) := numberTail false ds
      found .number ('.' :: d :: taken) rest
    else
      match d, ds with
      | '.', '.' :: rest => found .ellipsis ['.', '.', '.'] rest
      | _, _ => found .dot ['.'] cs
  | [] => found .dot ['.'] []

/-- An interpreted string or a rune, whose opening mark is `quote`. -/
def quoted (kind : TokenKind) (quote : Char) (cs : List Char) : Lexeme :=
  match quotedTail quote cs with
  | (taken, some rest) => found kind (quote :: taken) rest
  | (taken, none) => rejected (quote :: taken)

/-- A raw string: everything up to the next backquote. -/
def raw (cs : List Char) : Lexeme :=
  match cs.dropWhile (· ≠ backquote) with
  | [] => rejected (backquote :: cs)
  | mark :: rest => found .rawString (backquote :: cs.takeWhile (· ≠ backquote) ++ [mark]) rest

/-- The kinds of the tokens that are always one character long. -/
def punctuation? (c : Char) : Option TokenKind :=
  match c with
  | '(' => some .leftParen
  | ')' => some .rightParen
  | '[' => some .leftBracket
  | ']' => some .rightBracket
  | '{' => some .leftBrace
  | '}' => some .rightBrace
  | ',' => some .comma
  | ';' => some .semicolon
  | '*' => some .star
  | '\n' => some .newline
  | _ => none

/-- The lexeme at the head of the text `c :: cs`. -/
def read (c : Char) (cs : List Char) : Lexeme :=
  if isNameStart c then
    found .identifier (c :: cs.takeWhile isNamePart) (cs.dropWhile isNamePart)
  else if c.isDigit then
    number c cs
  else if isOperatorSign c then
    found .operator (c :: cs.takeWhile isOperatorSign) (cs.dropWhile isOperatorSign)
  else if c = '/' then
    slash cs
  else if c = '.' then
    point cs
  else if c = '"' then
    quoted .string c cs
  else if c = apostrophe then
    quoted .rune c cs
  else if c = backquote then
    raw cs
  else
    match punctuation? c with
    | some kind => found kind [c] cs
    | none => rejected [c]

/-! ## Nothing is lost -/

/-- The lexeme is a nonempty beginning of the text, and its rest is what follows it. -/
def Splits (cs : List Char) : Lexeme → Prop
  | found _ text rest => text ≠ [] ∧ text ++ rest = cs
  | rejected _ => True

theorem numberTail_append (point : Bool) (cs : List Char) :
    (numberTail point cs).1 ++ (numberTail point cs).2 = cs := by
  fun_induction numberTail point cs <;> simp_all

theorem quotedTail_append {quote : Char} {cs taken rest : List Char}
    (h : quotedTail quote cs = (taken, some rest)) : taken ++ rest = cs := by
  fun_induction quotedTail quote cs generalizing taken rest <;> grind

theorem blockTail_append {cs taken rest : List Char}
    (h : blockTail cs = some (taken, rest)) : taken ++ rest = cs := by
  fun_induction blockTail cs generalizing taken rest with
  | case1 => simp at h
  | case2 rest' =>
    simp only [Option.some.injEq, Prod.mk.injEq] at h
    obtain ⟨rfl, rfl⟩ := h
    simp
  | case3 c cs _ ih =>
    obtain ⟨⟨t, r⟩, hb, he⟩ := Option.map_eq_some_iff.1 h
    simp only [Prod.mk.injEq] at he
    obtain ⟨rfl, rfl⟩ := he
    simp [ih hb]

theorem slash_splits (cs : List Char) : (slash cs).Splits ('/' :: cs) := by
  unfold slash
  split
  · simp [Splits]
  · split
    · next hb => simp [Splits, blockTail_append hb]
    · trivial
  · simp [Splits]
  · simp [Splits]

theorem point_splits (cs : List Char) : (point cs).Splits ('.' :: cs) := by
  unfold point
  split
  · split
    · simp [Splits, numberTail_append]
    · split <;> simp [Splits]
  · simp [Splits]

theorem quoted_splits (kind : TokenKind) (quote : Char) (cs : List Char) :
    (quoted kind quote cs).Splits (quote :: cs) := by
  unfold quoted
  split
  · next hq => simp [Splits, quotedTail_append hq]
  · trivial

theorem raw_splits (cs : List Char) : (raw cs).Splits (backquote :: cs) := by
  unfold raw
  split
  · trivial
  · next hd =>
    have hcs := List.takeWhile_append_dropWhile (p := (· ≠ backquote)) (l := cs)
    rw [hd] at hcs
    simpa [Splits] using hcs

/-- A lexeme is not empty, and with the text after it it is the text that was read. -/
theorem read_splits (c : Char) (cs : List Char) : (read c cs).Splits (c :: cs) := by
  unfold read
  split
  · simp [Splits]
  split
  · simp [number, Splits, numberTail_append]
  split
  · simp [Splits]
  split
  · next hc => exact hc ▸ slash_splits cs
  split
  · next hc => exact hc ▸ point_splits cs
  split
  · exact quoted_splits _ c cs
  split
  · exact quoted_splits _ c cs
  split
  · next hc => exact hc ▸ raw_splits cs
  split
  · simp [Splits]
  · trivial

theorem length_of_read {c : Char} {cs text rest : List Char} {kind : TokenKind}
    (h : read c cs = found kind text rest) : rest.length < (c :: cs).length := by
  have hs := read_splits c cs
  rw [h] at hs
  have := List.length_pos_iff.2 hs.1
  rw [← hs.2, List.length_append]
  omega

end Lexeme
end ApiDocs.Source
