/-
  ApiDocs.Proofs.Source.Spelling

  How a text spells tokens. The kind and the text of a token are its form, and a form is lexical
  if its text has the shape that its kind asks for. A text spells a list of forms if it consists
  of them, in order, with any blanks between them. A blank may be left out unless the character
  after a form would go on with it.

  Main statement: the tokens of a text have the forms that the text spells (`scan_of_spells`).
-/

import ApiDocs.Proofs.Text
import ApiDocs.Source.Tokens
import Mathlib.Tactic.IntervalCases

namespace ApiDocs.Source

/-- A token without its place. -/
structure Form where
  kind : TokenKind
  text : String
  deriving DecidableEq, Repr

/-- The form of a token. -/
def Token.form (token : Token) : Form :=
  ⟨token.kind, token.text⟩

/-! ## Lexical forms -/

/-- The text is an identifier. -/
def isIdentifier (text : String) : Bool :=
  match text.toList with
  | [] => false
  | c :: cs => isNameStart c && cs.all isNamePart

/-- The text may follow the first digit of a number: digits, letters, underscores and, if allowed,
points; a sign stands behind an exponent letter only. -/
inductive NumberTail (point : Bool) : List Char → Prop where
  | nil : NumberTail point []
  | char {c : Char} {cs : List Char} (h : Lexeme.numberTail.continues point c = true) :
      NumberTail point cs → NumberTail point (c :: cs)
  | exponent {c d : Char} {cs : List Char} (hc : c ∈ ['e', 'E', 'p', 'P']) (hd : d = '+' ∨ d = '-') :
      NumberTail point cs → NumberTail point (c :: d :: cs)

/-- The text is a number literal. It starts with a digit, or with a point and a digit, and then
it has no other point. -/
inductive IsNumber : List Char → Prop where
  | digit {c : Char} {cs : List Char} (hc : c.isDigit = true) (h : NumberTail true cs) :
      IsNumber (c :: cs)
  | fraction {c : Char} {cs : List Char} (hc : c.isDigit = true) (h : NumberTail false cs) :
      IsNumber ('.' :: c :: cs)

namespace Form

/-- An identifier, or a keyword. -/
def word (text : String) : Form :=
  ⟨.identifier, text⟩

/-- A number literal. -/
def number (text : String) : Form :=
  ⟨.number, text⟩

/-- A raw string literal with this content. -/
def raw (content : String) : Form :=
  ⟨.rawString, String.ofList (backquote :: content.toList ++ [backquote])⟩

/-- A token of one character. -/
def sign (kind : TokenKind) (c : Char) : Form :=
  ⟨kind, String.ofList [c]⟩

/-- The text of the form has the shape that its kind asks for. -/
inductive Lexical : Form → Prop where
  | word {text : String} (h : isIdentifier text = true) : Lexical (word text)
  | number {text : String} (h : IsNumber text.toList) : Lexical (number text)
  | raw {content : String} (h : backquote ∉ content.toList) : Lexical (raw content)
  | dot : Lexical (sign .dot '.')
  | sign {kind : TokenKind} {c : Char} (h : Lexeme.punctuation? c = some kind) :
      Lexical (sign kind c)

/-- The character, right behind the form, would be taken for a part of it. -/
def goesOn (form : Form) (c : Char) : Bool :=
  match form.kind with
  | .identifier => isNamePart c
  | .number => Lexeme.numberTail.continues true c || c = '+' || c = '-'
  | .dot => c.isDigit || c = '.'
  | _ => false

end Form

/-- The text spells the forms, with blanks around them. -/
inductive Spells : List Form → List Char → Prop where
  | nil {blanks : List Char} (h : ∀ c ∈ blanks, isSkipped c = true) : Spells [] blanks
  | cons {form : Form} {forms : List Form} {blanks rest : List Char}
      (hblanks : ∀ c ∈ blanks, isSkipped c = true) (hform : form.Lexical)
      (hrest : ∀ c ∈ rest.head?, form.goesOn c = false) (h : Spells forms rest) :
      Spells (form :: forms) (blanks ++ (form.text.toList ++ rest))

/-! ## One token -/

/-- A decimal digit is one of ten characters. -/
theorem exists_digit {c : Char} (h : c.isDigit = true) : ∃ n, n < 10 ∧ c = Char.ofNat (48 + n) := by
  have hbounds : 48 ≤ c.toNat ∧ c.toNat ≤ 57 := by
    simpa [Char.isDigit, UInt32.le_iff_toNat_le] using h
  refine ⟨c.toNat - 48, by omega, ?_⟩
  rw [Nat.add_sub_cancel' hbounds.1, Char.ofNat_toNat]

theorem isNameStart_digit {c : Char} (h : c.isDigit = true) : isNameStart c = false := by
  obtain ⟨n, hn, rfl⟩ := exists_digit h
  interval_cases n <;> decide

theorem isSkipped_digit {c : Char} (h : c.isDigit = true) : isSkipped c = false := by
  obtain ⟨n, hn, rfl⟩ := exists_digit h
  interval_cases n <;> decide

/-- No identifier starts with a blank. -/
theorem isSkipped_nameStart {c : Char} (h : isNameStart c = true) : isSkipped c = false := by
  cases hc : isSkipped c with
  | false => rfl
  | true =>
    simp only [isSkipped, Bool.or_eq_true, decide_eq_true_eq] at hc
    rcases hc with ((rfl | rfl) | rfl) | rfl <;> exact absurd h (by decide)

/-- An exponent letter goes on with a number. -/
theorem continues_exponent {point : Bool} {c : Char} (h : c ∈ ['e', 'E', 'p', 'P']) :
    Lexeme.numberTail.continues point c = true := by
  simp only [List.mem_cons, List.not_mem_nil, or_false] at h
  rcases h with rfl | rfl | rfl | rfl <;> cases point <;> decide

/-- The rest of a number does not start with a sign. -/
theorem NumberTail.head_ne_sign {point : Bool} {c : Char} {cs : List Char}
    (h : NumberTail point (c :: cs)) : c ≠ '+' ∧ c ≠ '-' := by
  have hcontinues : Lexeme.numberTail.continues point c = true := by
    cases h with
    | char hc => exact hc
    | exponent hc => exact continues_exponent hc
  constructor
  · rintro rfl
    cases point <;> exact absurd hcontinues (by decide)
  · rintro rfl
    cases point <;> exact absurd hcontinues (by decide)

/-- The rest of a number is read as far as it goes. -/
theorem numberTail_append_stop {point : Bool} {cs rest : List Char} (h : NumberTail point cs)
    (hrest : ∀ c ∈ rest.head?, Lexeme.numberTail.continues point c = false ∧ c ≠ '+' ∧ c ≠ '-') :
    Lexeme.numberTail point (cs ++ rest) = (cs, rest) := by
  induction h with
  | nil =>
    cases rest with
    | nil => rfl
    | cons c rest =>
      have hc := (hrest c rfl).1
      -- an exponent letter would go on with the number, with or without a sign behind it
      have hexponent : c ∉ ['e', 'E', 'p', 'P'] := fun hmem => by
        rw [continues_exponent hmem] at hc
        cases hc
      cases rest with
      | nil => simp [Lexeme.numberTail, hc]
      | cons d rest =>
        have hcond : ¬(['e', 'E', 'p', 'P'].contains c && (d = '+' || d = '-')) = true := by
          rw [Bool.and_eq_true, List.contains_iff_mem]
          exact fun h => hexponent h.1
        rw [List.nil_append, Lexeme.numberTail, if_neg hcond, hc]
        rfl
  | @char c cs hc h ih =>
    cases hnext : cs ++ rest with
    | nil =>
      obtain ⟨rfl, rfl⟩ := List.append_eq_nil_iff.1 hnext
      simp [Lexeme.numberTail, hc]
    | cons d tail =>
      -- what follows is no sign, whether it is of the number or not
      have hsign : d ≠ '+' ∧ d ≠ '-' := by
        cases cs with
        | nil => exact (hrest d (by rw [← List.nil_append rest, hnext]; rfl)).2
        | cons e cs =>
          obtain ⟨rfl, -⟩ := List.cons.inj hnext
          exact h.head_ne_sign
      rw [List.cons_append, hnext, Lexeme.numberTail, if_neg (by simp [hsign]), if_pos hc, ← hnext, ih]
  | @exponent c d cs hc hd h ih =>
    have hcond : (['e', 'E', 'p', 'P'].contains c && (d = '+' || d = '-')) = true := by
      simpa using ⟨by simpa using hc, hd⟩
    rw [List.cons_append, List.cons_append, Lexeme.numberTail, if_pos hcond, ih]

theorem read_digit {c : Char} (hc : c.isDigit = true) (cs : List Char) :
    Lexeme.read c cs = Lexeme.number c cs := by
  rw [Lexeme.read, if_neg (by simp [isNameStart_digit hc]), if_pos hc]

/-- A character that is a token by itself. -/
theorem read_sign {c : Char} {kind : TokenKind} (h : Lexeme.punctuation? c = some kind)
    (cs : List Char) : isSkipped c = false ∧ Lexeme.read c cs = .found kind [c] cs := by
  unfold Lexeme.punctuation? at h
  split at h <;> cases h <;> exact ⟨by decide, rfl⟩

/-- A lexical form is read off a text that does not go on with it. -/
theorem Form.Lexical.read {form : Form} (h : form.Lexical) {rest : List Char}
    (hrest : ∀ c ∈ rest.head?, form.goesOn c = false) :
    ∃ c cs, form.text.toList = c :: cs ∧ isSkipped c = false ∧
      Lexeme.read c (cs ++ rest) = .found form.kind form.text.toList rest := by
  cases h with
  | @word text h =>
    cases htext : text.toList with
    | nil => simp [isIdentifier, htext] at h
    | cons c cs =>
      obtain ⟨hstart, hall⟩ : isNameStart c = true ∧ ∀ d ∈ cs, isNamePart d = true := by
        simpa [isIdentifier, htext] using h
      refine ⟨c, cs, htext, isSkipped_nameStart hstart, ?_⟩
      rw [Lexeme.read, if_pos hstart, Text.takeWhile_append_stop hall hrest,
        Text.dropWhile_append_stop hall hrest]
      simp [Form.word, htext]
  | @number text h =>
    have hstop : ∀ c ∈ rest.head?, Lexeme.numberTail.continues true c = false ∧ c ≠ '+' ∧ c ≠ '-' := by
      simpa [Form.goesOn, Form.number, and_assoc] using hrest
    generalize htext : text.toList = cs at h
    cases h with
    | @digit c cs hc h =>
      refine ⟨c, cs, htext, isSkipped_digit hc, ?_⟩
      rw [read_digit hc, Lexeme.number, numberTail_append_stop h hstop]
      simp [Form.number, htext]
    | @fraction c cs hc h =>
      have hpoint : Lexeme.read '.' (c :: (cs ++ rest)) = Lexeme.point (c :: (cs ++ rest)) := rfl
      have hstop' : ∀ c ∈ rest.head?,
          Lexeme.numberTail.continues false c = false ∧ c ≠ '+' ∧ c ≠ '-' := by
        intro d hd
        have hd := hstop d hd
        simp_all [Lexeme.numberTail.continues]
      refine ⟨'.', c :: cs, htext, by decide, ?_⟩
      rw [List.cons_append, hpoint]
      simp [Lexeme.point, hc, numberTail_append_stop h hstop', Form.number, htext]
  | @raw content h =>
    -- the content runs up to the closing mark, which is the first one
    refine ⟨backquote, content.toList ++ [backquote], by simp [Form.raw], by decide, ?_⟩
    have hraw : ∀ cs, Lexeme.read backquote cs = Lexeme.raw cs := fun _ => rfl
    have hall := Text.ne_of_not_mem h
    have hmark : ∀ c ∈ (backquote :: rest).head?, decide (c ≠ backquote) = false := by simp
    rw [List.append_assoc, List.singleton_append, hraw, Lexeme.raw,
      Text.dropWhile_append_stop hall hmark, Text.takeWhile_append_stop hall hmark]
    simp [Form.raw]
  | dot =>
    have hpoint : ∀ cs, Lexeme.read '.' cs = Lexeme.point cs := fun _ => rfl
    refine ⟨'.', [], by simp [Form.sign], by decide, ?_⟩
    rw [List.nil_append, hpoint]
    cases rest with
    | nil => simp [Lexeme.point, Form.sign]
    | cons c rest =>
      obtain ⟨hdigit, hne⟩ : c.isDigit = false ∧ c ≠ '.' := by
        simpa [Form.goesOn, Form.sign] using hrest
      simp [Lexeme.point, Form.sign, hdigit, hne]
  | @sign kind c h =>
    obtain ⟨hskip, hread⟩ := read_sign h rest
    exact ⟨c, [], by simp [Form.sign], hskip, by simpa [Form.sign] using hread⟩

/-! ## All tokens -/

theorem scan_nothing {cs : List Char} (h : cs.dropWhile isSkipped = []) (line : Nat) :
    Token.scan line cs = .ok [] := by
  rw [Token.scan]
  split
  · rfl
  · rename_i heq
    rw [h] at heq
    cases heq

theorem scan_blanks {cs : List Char} (h : ∀ c ∈ cs, isSkipped c = true) (line : Nat) :
    Token.scan line cs = .ok [] := by
  have hnothing : ∀ c ∈ ([] : List Char).head?, isSkipped c = false := by simp
  refine scan_nothing ?_ line
  simpa using Text.dropWhile_append_stop h hnothing

section Scan

variable {cs tail : List Char} {c : Char} (hcs : cs.dropWhile isSkipped = c :: tail)
include hcs

/-- A lexeme is a token, and the rest is scanned from the line on which the lexeme ends. -/
theorem scan_found {kind : TokenKind} {text rest : List Char}
    (hread : Lexeme.read c tail = .found kind text rest) (line : Nat) :
    Token.scan line cs =
      (Token.scan (line + text.count '\n') rest).map (⟨kind, String.ofList text, line⟩ :: ·) := by
  rw [Token.scan]
  split
  · rename_i heq
    rw [hcs] at heq
    cases heq
  · rename_i heq
    rw [hcs] at heq
    cases heq
    split
    · rename_i hread'
      rw [hread] at hread'
      cases hread'
    · rename_i hread'
      rw [hread] at hread'
      cases hread'
      cases Token.scan (line + text.count '\n') rest <;> rfl

theorem scan_rejected {text : List Char} (hread : Lexeme.read c tail = .rejected text) (line : Nat) :
    Token.scan line cs = .error ⟨line, String.ofList (text.take LexError.shown)⟩ := by
  rw [Token.scan]
  split
  · rename_i heq
    rw [hcs] at heq
    cases heq
  · rename_i heq
    rw [hcs] at heq
    cases heq
    split
    · rename_i hread'
      rw [hread] at hread'
      cases hread'
      rfl
    · rename_i hread'
      rw [hread] at hread'
      cases hread'

end Scan

/-- The tokens of a text have the forms that it spells. -/
theorem scan_of_spells {forms : List Form} {cs : List Char} (h : Spells forms cs) (line : Nat) :
    ∃ tokens, Token.scan line cs = .ok tokens ∧ tokens.map Token.form = forms := by
  induction h generalizing line with
  | nil hblanks => exact ⟨[], scan_blanks hblanks line, rfl⟩
  | @cons form forms blanks rest hblanks hform hrest _ ih =>
    obtain ⟨c, cs, htext, hskip, hread⟩ := hform.read hrest
    obtain ⟨tokens, hscan, hforms⟩ := ih (line + form.text.toList.count '\n')
    refine ⟨⟨form.kind, form.text, line⟩ :: tokens, ?_, by simp [Token.form, hforms]⟩
    have hdrop : (blanks ++ (form.text.toList ++ rest)).dropWhile isSkipped = c :: (cs ++ rest) := by
      rw [htext, Text.dropWhile_append_stop hblanks (by simpa using hskip)]
      rfl
    rw [scan_found hdrop hread, hscan, String.ofList_toList]
    rfl

/-! ## Every list of lexical forms is spelled by some text -/

theorem Spells.blank {forms : List Form} {cs : List Char} (h : Spells forms cs) {c : Char}
    (hc : isSkipped c = true) : Spells forms (c :: cs) := by
  cases h with
  | nil hblanks => exact .nil (List.forall_mem_cons.2 ⟨hc, hblanks⟩)
  | @cons form forms blanks rest hblanks hform hrest h =>
    rw [← List.cons_append]
    exact .cons (List.forall_mem_cons.2 ⟨hc, hblanks⟩) hform hrest h

theorem Form.goesOn_space (form : Form) : form.goesOn ' ' = false := by
  unfold goesOn
  split <;> decide

/-- Forms with a space behind each of them. -/
def spaced (forms : List Form) : List Char :=
  forms.flatMap fun form => form.text.toList ++ [' ']

theorem spells_spaced {forms : List Form} (h : ∀ form ∈ forms, form.Lexical) :
    Spells forms (spaced forms) := by
  induction forms with
  | nil => exact .nil (by simp [spaced])
  | cons form forms ih =>
    have hrest := (ih fun other hother => h other (List.mem_cons_of_mem form hother)).blank
      (show isSkipped ' ' = true by decide)
    have hspaced : spaced (form :: forms) = [] ++ (form.text.toList ++ ' ' :: spaced forms) := by
      simp [spaced]
    rw [hspaced]
    refine .cons (by simp) (h form List.mem_cons_self) ?_ hrest
    simpa using form.goesOn_space

theorem exists_spells {forms : List Form} (h : ∀ form ∈ forms, form.Lexical) :
    ∃ text : String, Spells forms text.toList :=
  ⟨String.ofList (spaced forms), by rw [String.toList_ofList]; exact spells_spaced h⟩

end ApiDocs.Source
