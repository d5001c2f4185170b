/-
  ApiDocs.Proofs.Source.Patterns

  What tokens look like. Each kind of token has a language, the texts that are tokens of this
  kind. A lexeme is the longest beginning of a text that lies in any of these languages
  (`Longest`), and no text lies in two of them. The one exception is a block comment without an
  end: there is no lexeme then, although a slash is an operator.

  Main statements: reading a lexeme finds the longest match (`read_eq_found_iff`), and it fails
  where nothing matches or a block comment has no end (`exists_rejected_iff`).
-/

import ApiDocs.Proofs.Source.Spelling
import Mathlib.Computability.Language
import Mathlib.Data.List.TakeWhile

namespace ApiDocs.Source

open scoped Computability

/-! ## Languages -/

namespace Pattern

/-- The language of one text. -/
def exactly (text : String) : Language Char :=
  {cs | cs = text.toList}

/-- The texts of one character from a class. -/
def oneOf (p : Char → Bool) : Language Char :=
  {cs | ∃ c, p c = true ∧ cs = [c]}

/-- What may follow the first digit of a number, without the points. -/
def isNumberPart (c : Char) : Bool :=
  c.isAlphanum || c = '_'

/-- An exponent letter and a sign. -/
def signedExponent : Language Char :=
  oneOf (fun c => c = 'e' || c = 'E' || c = 'p' || c = 'P') * oneOf (fun c => c = '+' || c = '-')

/-- A literal on one line between two marks. A backslash takes the character behind it along. -/
def quoted (mark : Char) : Language Char :=
  oneOf (· = mark) *
    (oneOf (fun c => c ≠ mark && c ≠ '\\' && c ≠ '\n') + oneOf (· = '\\') * oneOf (· ≠ '\n'))∗ *
    oneOf (· = mark)

/-- The texts in which the end of a block comment stands at the end and nowhere before. -/
def upToCommentEnd : Language Char :=
  {cs | (∃ body, cs = body ++ ['*', '/']) ∧
    ∀ body behind, cs = body ++ ['*', '/'] ++ behind → behind = []}

end Pattern

open Pattern in
/-- The texts that are tokens of a kind. -/
def TokenKind.pattern : TokenKind → Language Char
  | newline => exactly "\n"
  | lineComment => exactly "//" * (oneOf (· ≠ '\n'))∗
  | blockComment => exactly "/*" * upToCommentEnd
  | identifier => oneOf isNameStart * (oneOf isNamePart)∗
  | number =>
    oneOf Char.isDigit * (oneOf (fun c => isNumberPart c || c = '.') + signedExponent)∗ +
    exactly "." * oneOf Char.isDigit * (oneOf isNumberPart + signedExponent)∗
  | string => quoted '"'
  | rawString => oneOf (· = backquote) * (oneOf (· ≠ backquote))∗ * oneOf (· = backquote)
  | rune => quoted apostrophe
  | leftParen => exactly "("
  | rightParen => exactly ")"
  | leftBracket => exactly "["
  | rightBracket => exactly "]"
  | leftBrace => exactly "\x7b"
  | rightBrace => exactly "\x7d"
  | comma => exactly ","
  | semicolon => exactly ";"
  | dot => exactly "."
  | ellipsis => exactly "..."
  | star => exactly "*"
  | operator => oneOf isOperatorSign * (oneOf isOperatorSign)∗ + exactly "/" + exactly "/="

/-- The text begins with this token, and with no longer one of any kind. -/
def Longest (kind : TokenKind) (text cs : List Char) : Prop :=
  text <+: cs ∧ text ∈ kind.pattern ∧
    ∀ (kind' : TokenKind) (text' : List Char), text' <+: cs → text' ∈ kind'.pattern →
      text'.length ≤ text.length

/-- The text begins with no token. -/
def NoToken (cs : List Char) : Prop :=
  ∀ (kind : TokenKind) (text : List Char), text <+: cs → text ∉ kind.pattern

/-- The text begins with a block comment that is never closed. -/
def Unclosed (cs : List Char) : Prop :=
  ∃ inner, cs = '/' :: '*' :: inner ∧ ¬ ['*', '/'] <:+: inner

/-! ## The texts of each language -/

namespace Pattern

theorem mem_exactly {text : String} {cs : List Char} : cs ∈ exactly text ↔ cs = text.toList :=
  Iff.rfl

theorem mem_oneOf {p : Char → Bool} {cs : List Char} : cs ∈ oneOf p ↔ ∃ c, p c = true ∧ cs = [c] :=
  Iff.rfl

theorem mem_oneOf_mul {p : Char → Bool} {l : Language Char} {cs : List Char} :
    cs ∈ oneOf p * l ↔ ∃ c rest, cs = c :: rest ∧ p c = true ∧ rest ∈ l := by
  rw [Language.mem_mul]
  constructor
  · rintro ⟨_, ⟨c, hc, rfl⟩, rest, hrest, rfl⟩
    exact ⟨c, rest, rfl, hc, hrest⟩
  · rintro ⟨c, rest, rfl, hc, hrest⟩
    exact ⟨[c], ⟨c, hc, rfl⟩, rest, hrest, rfl⟩

theorem mem_exactly_mul {text : String} {l : Language Char} {cs : List Char} :
    cs ∈ exactly text * l ↔ ∃ rest ∈ l, cs = text.toList ++ rest := by
  rw [Language.mem_mul]
  constructor
  · rintro ⟨_, rfl, rest, hrest, rfl⟩
    exact ⟨rest, hrest, rfl⟩
  · rintro ⟨rest, hrest, rfl⟩
    exact ⟨_, rfl, rest, hrest, rfl⟩

/-- What holds of the empty text, and of any text of a language in front of a repetition for
which it holds, holds of every repetition. -/
theorem kstar_induction {l : Language Char} {P : List Char → Prop} (nil : P [])
    (cons : ∀ a ∈ l, ∀ b, P b → P (a ++ b)) {cs : List Char} (h : cs ∈ l∗) : P cs := by
  obtain ⟨pieces, rfl, hpieces⟩ := Language.mem_kstar.1 h
  induction pieces with
  | nil => exact nil
  | cons piece pieces ih =>
    obtain ⟨hpiece, hrest⟩ := List.forall_mem_cons.1 hpieces
    exact cons piece hpiece _ (ih hrest (Language.join_mem_kstar hrest))

theorem append_mem_kstar {l : Language Char} {a b : List Char} (ha : a ∈ l) (hb : b ∈ l∗) :
    a ++ b ∈ l∗ := by
  obtain ⟨pieces, rfl, hpieces⟩ := Language.mem_kstar.1 hb
  exact Language.mem_kstar.2 ⟨a :: pieces, rfl, List.forall_mem_cons.2 ⟨ha, hpieces⟩⟩

theorem mem_kstar_oneOf {p : Char → Bool} {cs : List Char} :
    cs ∈ (oneOf p)∗ ↔ ∀ c ∈ cs, p c = true := by
  constructor
  · intro h
    refine kstar_induction (P := fun cs => ∀ c ∈ cs, p c = true) (by simp) ?_ h
    rintro _ ⟨c, hc, rfl⟩ b hb
    exact List.forall_mem_cons.2 ⟨hc, hb⟩
  · intro h
    induction cs with
    | nil => exact Language.nil_mem_kstar _
    | cons c cs ih =>
      obtain ⟨hc, hcs⟩ := List.forall_mem_cons.1 h
      exact append_mem_kstar (mem_oneOf.2 ⟨c, hc, rfl⟩) (ih hcs)

/-- What follows the first digit of a number. -/
theorem mem_numberTail {point : Bool} {p : Char → Bool}
    (hp : ∀ c, p c = Lexeme.numberTail.continues point c) {cs : List Char} :
    cs ∈ (oneOf p + signedExponent)∗ ↔ NumberTail point cs := by
  constructor
  · intro h
    refine kstar_induction .nil ?_ h
    rintro a (⟨c, hc, rfl⟩ | ha) b hb
    · exact .char (by rw [← hp, hc]) hb
    · obtain ⟨e, _, rfl, he, sign, hsign, rfl⟩ := mem_oneOf_mul.1 ha
      exact .exponent (by simpa [or_assoc] using he) (by simpa using hsign) hb
  · intro h
    induction h with
    | nil => exact Language.nil_mem_kstar _
    | char hc _ ih => exact append_mem_kstar (.inl ⟨_, by rw [hp, hc], rfl⟩) ih
    | @exponent c d _ hc hd _ ih =>
      have hpair : [c, d] ∈ signedExponent :=
        mem_oneOf_mul.2 ⟨c, [d], rfl, by simpa [or_assoc] using hc, d, by simpa using hd, rfl⟩
      exact append_mem_kstar (.inr hpair) ih

/-- The rest of a quoted literal behind its opening mark. -/
inductive QuotedTail (mark : Char) : List Char → Prop where
  | close : QuotedTail mark [mark]
  | plain {c : Char} {cs : List Char} (hmark : c ≠ mark) (hslash : c ≠ '\\') (hline : c ≠ '\n') :
      QuotedTail mark cs → QuotedTail mark (c :: cs)
  | escape {c : Char} {cs : List Char} (hline : c ≠ '\n') :
      QuotedTail mark cs → QuotedTail mark ('\\' :: c :: cs)

theorem mem_quoted {mark : Char} {cs : List Char} :
    cs ∈ quoted mark ↔ ∃ tail, cs = mark :: tail ∧ QuotedTail mark tail := by
  rw [quoted, mul_assoc, mem_oneOf_mul]
  simp only [decide_eq_true_eq]
  constructor
  · rintro ⟨c, _, rfl, rfl, inner, hinner, _, ⟨d, hd, rfl⟩, rfl⟩
    obtain rfl : d = c := by simpa using hd
    refine ⟨_, rfl, ?_⟩
    refine kstar_induction (P := fun inner => QuotedTail d (inner ++ [d])) .close ?_ hinner
    rintro a (⟨c, hc, rfl⟩ | ha) b hb
    · simp only [Bool.and_eq_true, decide_eq_true_eq] at hc
      exact .plain hc.1.1 hc.1.2 hc.2 hb
    · obtain ⟨slash, _, rfl, hslash, c, hc, rfl⟩ := mem_oneOf_mul.1 ha
      obtain rfl : slash = '\\' := by simpa using hslash
      exact .escape (by simpa using hc) hb
  · rintro ⟨tail, rfl, htail⟩
    refine ⟨mark, tail, rfl, rfl, ?_⟩
    have hclose : [mark] ∈ oneOf (· = mark) := ⟨mark, by simp, rfl⟩
    induction htail with
    | close => exact ⟨[], Language.nil_mem_kstar _, [mark], hclose, rfl⟩
    | @plain c cs hmark hslash hline _ ih =>
      obtain ⟨inner, hinner, closing, hclosing, rfl⟩ := ih
      refine ⟨c :: inner, append_mem_kstar (.inl ⟨c, ?_, rfl⟩) hinner, closing, hclosing, rfl⟩
      simp [hmark, hslash, hline]
    | @escape c cs hline _ ih =>
      obtain ⟨inner, hinner, closing, hclosing, rfl⟩ := ih
      have hpair : ['\\', c] ∈ oneOf (· = '\\') * oneOf (· ≠ '\n') :=
        mem_oneOf_mul.2 ⟨'\\', [c], rfl, by simp, c, by simpa using hline, rfl⟩
      exact ⟨'\\' :: c :: inner, append_mem_kstar (.inr hpair) hinner, closing, hclosing, rfl⟩

theorem nil_notMem_upToCommentEnd : [] ∉ upToCommentEnd := by
  rintro ⟨⟨body, hbody⟩, -⟩
  simp at hbody

/-- The end of a comment stands at the head of the text, or further on. -/
theorem cons_mem_upToCommentEnd {c : Char} {cs : List Char} :
    c :: cs ∈ upToCommentEnd ↔
      c = '*' ∧ cs = ['/'] ∨ ¬ ['*', '/'] <+: c :: cs ∧ cs ∈ upToCommentEnd := by
  constructor
  · rintro ⟨⟨body, hbody⟩, hfirst⟩
    by_cases hhead : ['*', '/'] <+: c :: cs
    · obtain ⟨behind, hbehind⟩ := hhead
      obtain rfl := hfirst [] behind hbehind.symm
      obtain ⟨rfl, rfl⟩ := List.cons.inj hbehind
      exact .inl ⟨rfl, rfl⟩
    · refine .inr ⟨hhead, ?_, ?_⟩
      · cases body with
        | nil => exact absurd ⟨[], by simp [hbody]⟩ hhead
        | cons d body => exact ⟨body, (List.cons.inj hbody).2⟩
      · rintro body behind rfl
        exact hfirst (c :: body) behind rfl
  · rintro (⟨rfl, rfl⟩ | ⟨hhead, ⟨body, rfl⟩, hfirst⟩)
    · refine ⟨⟨[], rfl⟩, fun body behind h => ?_⟩
      have hlength := congrArg List.length h
      simp only [List.length_cons, List.length_append, List.length_nil] at hlength
      exact List.length_eq_zero_iff.1 (by omega)
    · refine ⟨⟨c :: body, rfl⟩, fun front behind h => ?_⟩
      cases front with
      | nil => exact absurd ⟨behind, h.symm⟩ hhead
      | cons d front => exact hfirst front behind (List.cons.inj h).2

end Pattern

/-! ## Runs, as far as they go -/

namespace Lexeme

open Pattern hiding quoted

theorem numberTail_sound (point : Bool) (cs : List Char) :
    NumberTail point (numberTail point cs).1 := by
  fun_induction numberTail point cs with
  | case1 => exact .nil
  | case2 c d cs h taken rest htail ih =>
    rw [htail] at ih
    simp only [Bool.and_eq_true, List.contains_iff_mem, Bool.or_eq_true, decide_eq_true_eq] at h
    exact .exponent h.1 h.2 ih
  | case3 c d cs _ hc taken rest htail ih =>
    rw [htail] at ih
    exact .char hc ih
  | case4 => exact .nil
  | case5 c hc => exact .char hc .nil
  | case6 => exact .nil

/-- No tail of a number that the text starts with is longer than the one that is taken. -/
theorem numberTail_maximal {point : Bool} {text cs : List Char} (h : NumberTail point text)
    (hbegins : text <+: cs) : text <+: (numberTail point cs).1 := by
  induction h generalizing cs with
  | nil => exact List.nil_prefix
  | @char c text hc h ih =>
    obtain ⟨rest, rfl⟩ := hbegins
    cases hnext : text ++ rest with
    | nil =>
      obtain ⟨rfl, rfl⟩ := List.append_eq_nil_iff.1 hnext
      simp [numberTail, hc]
    | cons d tail =>
      have hpre : text <+: d :: tail := ⟨rest, hnext⟩
      rw [List.cons_append, hnext, numberTail]
      split
      · -- the sign behind the letter is no part of a tail by itself, so nothing else was taken
        rename_i hsign
        cases text with
        | nil => simp
        | cons e text =>
          obtain ⟨rfl, -⟩ := List.cons.inj hnext
          have hne := h.head_ne_sign
          simp [hne.1, hne.2] at hsign
      · exact List.cons_prefix_cons.2 ⟨rfl, ih hpre⟩
  | @exponent c d text hc hd h ih =>
    obtain ⟨rest, rfl⟩ := hbegins
    have hcond : (['e', 'E', 'p', 'P'].contains c && (d = '+' || d = '-')) = true := by
      simpa using ⟨by simpa using hc, hd⟩
    rw [List.cons_append, List.cons_append, numberTail, if_pos hcond]
    exact List.cons_prefix_cons.2 ⟨rfl, List.cons_prefix_cons.2 ⟨rfl, ih ⟨rest, rfl⟩⟩⟩

theorem quotedTail_sound {mark : Char} {cs taken rest : List Char}
    (h : quotedTail mark cs = (taken, some rest)) : QuotedTail mark taken := by
  fun_induction quotedTail mark cs generalizing taken with
  | case1 => cases h
  | case2 cs =>
    cases h
    exact .close
  | case3 => cases h
  | case4 => cases h
  | case5 => cases h
  | case6 _ _ hline _ _ htail _ _ ih =>
    cases h
    exact .escape hline (ih htail)
  | case7 c cs hmark hline hslash taken' rest' htail ih =>
    cases h
    exact .plain hmark hslash hline (ih htail)

/-- A literal is read up to its closing mark, whatever follows it. -/
theorem quotedTail_complete {mark : Char} (hmark : mark ≠ '\\') {text : List Char}
    (h : QuotedTail mark text) (rest : List Char) :
    quotedTail mark (text ++ rest) = (text, some rest) := by
  induction h with
  | close =>
    rw [List.singleton_append, quotedTail.eq_def]
    simp
  | @plain c cs hne hslash hline _ ih =>
    rw [List.cons_append, quotedTail.eq_def]
    simp [hne, hslash, hline, ih]
  | @escape c cs hline _ ih =>
    rw [List.cons_append, List.cons_append, quotedTail.eq_def]
    simp [Ne.symm hmark, hline, ih]

theorem blockTail_sound {cs taken rest : List Char} (h : blockTail cs = some (taken, rest)) :
    taken ∈ upToCommentEnd := by
  fun_induction blockTail cs generalizing taken with
  | case1 => cases h
  | case2 rest' =>
    cases h
    exact cons_mem_upToCommentEnd.2 (.inl ⟨rfl, rfl⟩)
  | case3 c cs hhead ih =>
    obtain ⟨⟨taken', rest'⟩, hb, he⟩ := Option.map_eq_some_iff.1 h
    obtain ⟨rfl, rfl⟩ := Prod.mk.inj he
    refine cons_mem_upToCommentEnd.2 (.inr ⟨?_, ih hb⟩)
    -- the end of the comment would have been seen in the whole text
    rintro ⟨behind, hbehind⟩
    obtain ⟨rfl, rfl⟩ := List.cons.inj hbehind
    exact hhead (behind ++ rest') rfl (by rw [← blockTail_append hb]; rfl)

theorem blockTail_complete {text : List Char} (h : text ∈ upToCommentEnd) (rest : List Char) :
    blockTail (text ++ rest) = some (text, rest) := by
  induction text with
  | nil => exact absurd h nil_notMem_upToCommentEnd
  | cons c cs ih =>
    rcases cons_mem_upToCommentEnd.1 h with ⟨rfl, rfl⟩ | ⟨hhead, hcs⟩
    · rfl
    · rw [List.cons_append, blockTail, ih hcs]
      · rfl
      · rintro behind rfl hbehind
        cases cs with
        | nil => exact nil_notMem_upToCommentEnd hcs
        | cons d cs =>
          obtain ⟨rfl, -⟩ := List.cons.inj hbehind
          exact hhead ⟨cs, rfl⟩

theorem blockTail_eq_none_iff {cs : List Char} :
    blockTail cs = none ↔ ¬ ['*', '/'] <:+: cs := by
  fun_induction blockTail cs with
  | case1 => simp
  | case2 rest => simpa using ⟨[], rest, rfl⟩
  | case3 c cs hhead ih =>
    rw [Option.map_eq_none_iff, ih, List.infix_cons_iff, not_or]
    refine ⟨fun h => ⟨?_, h⟩, fun h => h.2⟩
    rintro ⟨behind, hbehind⟩
    obtain ⟨rfl, rfl⟩ := List.cons.inj hbehind
    exact hhead behind rfl rfl

/-! ## The longest match -/

theorem read_slash (cs : List Char) : read '/' cs = slash cs := rfl

theorem read_point (cs : List Char) : read '.' cs = point cs := rfl

theorem read_operator {c : Char} (h : isOperatorSign c = true) (cs : List Char) :
    read c cs =
      found .operator (c :: cs.takeWhile isOperatorSign) (cs.dropWhile isOperatorSign) := by
  simp only [isOperatorSign, String.reduceToList, List.contains_iff_mem, List.mem_cons,
    List.not_mem_nil, or_false] at h
  rcases h with rfl | rfl | rfl | rfl | rfl | rfl | rfl | rfl | rfl | rfl | rfl | rfl <;> rfl

theorem slash_sound {cs text rest : List Char} {kind : TokenKind}
    (h : slash cs = found kind text rest) : text ∈ kind.pattern := by
  unfold slash at h
  split at h
  · cases h
    refine mem_exactly_mul.2 ⟨_, mem_kstar_oneOf.2 fun c hc => ?_, rfl⟩
    simpa using List.mem_takeWhile_imp hc
  · split at h
    · rename_i taken rest' hblock
      cases h
      exact mem_exactly_mul.2 ⟨taken, blockTail_sound hblock, rfl⟩
    · cases h
  · cases h
    exact .inr rfl
  · cases h
    exact .inl (.inr rfl)

theorem point_sound {cs text rest : List Char} {kind : TokenKind}
    (h : point cs = found kind text rest) : text ∈ kind.pattern := by
  unfold point at h
  split at h
  · rename_i d ds
    split at h
    · rename_i hd
      cases h
      refine .inr ?_
      rw [mul_assoc]
      have htail := numberTail_sound false ds
      refine mem_exactly_mul.2 ⟨_, mem_oneOf_mul.2 ⟨d, _, rfl, hd, ?_⟩, rfl⟩
      exact (mem_numberTail fun c => by simp [isNumberPart, numberTail.continues]).2 htail
    · split at h
      · cases h
        exact mem_exactly.2 rfl
      · cases h
        exact mem_exactly.2 rfl
  · cases h
    exact mem_exactly.2 rfl

theorem quoted_sound {mark : Char} {cs text rest : List Char} {kind kind' : TokenKind}
    (h : quoted kind mark cs = found kind' text rest) :
    kind = kind' ∧ text ∈ Pattern.quoted mark := by
  unfold quoted at h
  split at h
  · rename_i taken rest' htail
    cases h
    exact ⟨rfl, mem_quoted.2 ⟨taken, rfl, quotedTail_sound htail⟩⟩
  · cases h

theorem raw_sound {cs text rest : List Char} {kind : TokenKind}
    (h : raw cs = found kind text rest) : text ∈ kind.pattern := by
  unfold raw at h
  split at h
  · cases h
  · rename_i mark rest' hdrop
    cases h
    have hmark : mark = backquote := by
      have hhead := Text.head?_dropWhile_stop _ cs (c := mark) (by rw [hdrop]; rfl)
      simpa using hhead
    rw [TokenKind.pattern, mul_assoc]
    refine mem_oneOf_mul.2 ⟨_, _, rfl, by simp, ?_⟩
    refine Language.append_mem_mul (mem_kstar_oneOf.2 fun c hc => ?_) ⟨mark, by simpa using hmark, rfl⟩
    simpa using List.mem_takeWhile_imp hc

theorem punctuation_sound {c : Char} {kind : TokenKind} (h : punctuation? c = some kind) :
    [c] ∈ kind.pattern := by
  unfold punctuation? at h
  split at h <;> cases h <;> exact mem_exactly.2 rfl

/-- What is read is a token of its kind. -/
theorem mem_pattern_of_read {c : Char} {cs text rest : List Char} {kind : TokenKind}
    (h : read c cs = found kind text rest) : text ∈ kind.pattern := by
  unfold read at h
  split at h
  · rename_i hc
    cases h
    exact mem_oneOf_mul.2 ⟨c, _, rfl, hc, mem_kstar_oneOf.2 fun d hd => List.mem_takeWhile_imp hd⟩
  split at h
  · rename_i hc
    cases h
    refine .inl (mem_oneOf_mul.2 ⟨c, _, rfl, hc, ?_⟩)
    exact (mem_numberTail fun c => by simp [isNumberPart, numberTail.continues]).2
      (numberTail_sound true cs)
  split at h
  · rename_i hc
    cases h
    refine .inl (.inl (mem_oneOf_mul.2 ⟨c, _, rfl, hc, ?_⟩))
    exact mem_kstar_oneOf.2 fun d hd => List.mem_takeWhile_imp hd
  split at h
  · exact slash_sound h
  split at h
  · exact point_sound h
  split at h
  · rename_i hc
    subst hc
    obtain ⟨rfl, htext⟩ := quoted_sound h
    exact htext
  split at h
  · rename_i hc
    subst hc
    obtain ⟨rfl, htext⟩ := quoted_sound h
    exact htext
  split at h
  · exact raw_sound h
  split at h
  · rename_i kind' hkind
    cases h
    exact punctuation_sound hkind
  · cases h

/-- The lexeme is this token or a longer one. -/
def AtLeast (kind : TokenKind) (text rest : List Char) (lexeme : Lexeme) : Prop :=
  lexeme = found kind text rest ∨
    ∃ kind' text' rest', lexeme = found kind' text' rest' ∧ text.length < text'.length

/-- A token that starts another one of its kind is found with it. -/
theorem atLeast_of_prefix {kind : TokenKind} {text text' rest rest' : List Char}
    (hbegins : text <+: text') (hsame : text ++ rest = text' ++ rest') :
    AtLeast kind text rest (found kind text' rest') := by
  rcases Nat.lt_or_eq_of_le hbegins.length_le with hlt | heq
  · exact .inr ⟨kind, text', rest', rfl, hlt⟩
  · obtain rfl := hbegins.eq_of_length heq
    rw [List.append_cancel_left hsame]
    exact .inl rfl

/-- A run of characters is found with all that go on with it. -/
theorem atLeast_run {kind : TokenKind} {p : Char → Bool} {run : List Char} (front : List Char)
    (h : ∀ c ∈ run, p c = true) (rest : List Char) :
    AtLeast kind (front ++ run) rest
      (found kind (front ++ (run ++ rest).takeWhile p) ((run ++ rest).dropWhile p)) := by
  refine atLeast_of_prefix ((List.prefix_append_right_inj front).2 ?_) ?_
  · rw [List.takeWhile_append_of_pos h]
    exact List.prefix_append run _
  · rw [List.append_assoc, List.append_assoc, List.takeWhile_append_dropWhile]

theorem atLeast_number {point : Bool} {tail : List Char} (front : List Char)
    (h : NumberTail point tail) (rest : List Char) :
    AtLeast .number (front ++ tail) rest
      (found .number (front ++ (numberTail point (tail ++ rest)).1)
        (numberTail point (tail ++ rest)).2) := by
  refine atLeast_of_prefix ?_ ?_
  · exact (List.prefix_append_right_inj front).2
      (numberTail_maximal h (List.prefix_append tail rest))
  · rw [List.append_assoc, List.append_assoc, numberTail_append]

theorem slash_comment {tail : List Char} (h : tail ∈ upToCommentEnd) (rest : List Char) :
    slash ('*' :: (tail ++ rest)) = found .blockComment ('/' :: '*' :: tail) rest := by
  rw [slash, blockTail_complete h]

theorem quoted_complete {kind : TokenKind} {mark : Char} (hmark : mark ≠ '\\') {tail : List Char}
    (h : QuotedTail mark tail) (rest : List Char) :
    quoted kind mark (tail ++ rest) = found kind (mark :: tail) rest := by
  rw [quoted, quotedTail_complete hmark h]

theorem raw_complete {body : List Char} (h : ∀ c ∈ body, decide (c ≠ backquote) = true)
    (rest : List Char) :
    raw (body ++ [backquote] ++ rest) =
      found .rawString (backquote :: (body ++ [backquote])) rest := by
  have hmark : ∀ c ∈ (backquote :: rest).head?, decide (c ≠ backquote) = false := by simp
  rw [List.append_assoc, List.singleton_append, raw, Text.dropWhile_append_stop h hmark,
    Text.takeWhile_append_stop h hmark]
  rfl

/-- A slash is found alone, or with what it starts. -/
theorem slash_atLeast (cs : List Char) :
    Unclosed ('/' :: cs) ∨ AtLeast .operator ['/'] cs (read '/' cs) := by
  rw [read_slash]
  unfold slash
  split
  · exact .inr (.inr ⟨_, _, _, rfl, by simp⟩)
  · rename_i inner
    cases hblock : blockTail inner with
    | none => exact .inl ⟨inner, rfl, blockTail_eq_none_iff.1 hblock⟩
    | some split => exact .inr (.inr ⟨_, _, _, rfl, by simp⟩)
  · exact .inr (.inr ⟨_, _, _, rfl, by simp⟩)
  · exact .inr (.inl rfl)

/-- A point is found alone, or with what it starts. -/
theorem point_atLeast (cs : List Char) : AtLeast .dot ['.'] cs (read '.' cs) := by
  rw [read_point]
  unfold point
  split
  · split
    · exact .inr ⟨_, _, _, rfl, by simp⟩
    · split
      · exact .inr ⟨_, _, _, rfl, by simp⟩
      · exact .inl rfl
  · exact .inl rfl

/-- Whatever token a text starts with, that one is found, or a longer one; but a comment without
an end hides the slash that it starts with. -/
theorem read_atLeast {kind : TokenKind} {text rest : List Char} {c : Char} {cs : List Char}
    (h : text ∈ kind.pattern) (hcs : text ++ rest = c :: cs) :
    Unclosed (c :: cs) ∨ AtLeast kind text rest (read c cs) := by
  cases kind with
  | identifier =>
    obtain ⟨d, run, rfl, hd, hrun⟩ := mem_oneOf_mul.1 h
    obtain ⟨rfl, rfl⟩ := List.cons.inj hcs
    rw [read, if_pos hd]
    exact .inr (atLeast_run [d] (mem_kstar_oneOf.1 hrun) rest)
  | number =>
    rcases h with h | h
    · obtain ⟨d, tail, rfl, hd, htail⟩ := mem_oneOf_mul.1 h
      obtain ⟨rfl, rfl⟩ := List.cons.inj hcs
      have htail' : NumberTail true tail :=
        (mem_numberTail fun c => by simp [isNumberPart, numberTail.continues]).1 htail
      rw [read_digit hd]
      exact .inr (atLeast_number [d] htail' rest)
    · rw [mul_assoc] at h
      obtain ⟨_, hfraction, rfl⟩ := mem_exactly_mul.1 h
      obtain ⟨d, tail, rfl, hd, htail⟩ := mem_oneOf_mul.1 hfraction
      obtain ⟨rfl, rfl⟩ := List.cons.inj hcs
      have htail' : NumberTail false tail :=
        (mem_numberTail fun c => by simp [isNumberPart, numberTail.continues]).1 htail
      have hread : read '.' (d :: (tail ++ rest)) =
          found .number (['.', d] ++ (numberTail false (tail ++ rest)).1)
            (numberTail false (tail ++ rest)).2 := by
        simp [read_point, point, hd]
      exact .inr (hread ▸ atLeast_number ['.', d] htail' rest)
  | operator =>
    rcases h with (h | rfl) | rfl
    · obtain ⟨d, run, rfl, hd, hrun⟩ := mem_oneOf_mul.1 h
      obtain ⟨rfl, rfl⟩ := List.cons.inj hcs
      rw [read_operator hd]
      exact .inr (atLeast_run [d] (mem_kstar_oneOf.1 hrun) rest)
    · obtain ⟨rfl, rfl⟩ := List.cons.inj hcs
      exact slash_atLeast rest
    · obtain ⟨rfl, rfl⟩ := List.cons.inj hcs
      exact .inr (.inl rfl)
  | lineComment =>
    obtain ⟨run, hrun, rfl⟩ := mem_exactly_mul.1 h
    obtain ⟨rfl, rfl⟩ := List.cons.inj hcs
    exact .inr (atLeast_run ['/', '/'] (mem_kstar_oneOf.1 hrun) rest)
  | blockComment =>
    obtain ⟨tail, htail, rfl⟩ := mem_exactly_mul.1 h
    obtain ⟨rfl, rfl⟩ := List.cons.inj hcs
    exact .inr (.inl (slash_comment htail rest))
  | string =>
    obtain ⟨tail, rfl, htail⟩ := mem_quoted.1 h
    obtain ⟨rfl, rfl⟩ := List.cons.inj hcs
    exact .inr (.inl (quoted_complete (by decide) htail rest))
  | rawString =>
    rw [TokenKind.pattern, mul_assoc] at h
    obtain ⟨mark, _, rfl, hmark, body, hbody, _, ⟨mark', hmark', rfl⟩, rfl⟩ := mem_oneOf_mul.1 h
    obtain rfl : mark = backquote := by simpa using hmark
    obtain rfl : mark' = backquote := by simpa using hmark'
    obtain ⟨rfl, rfl⟩ := List.cons.inj hcs
    exact .inr (.inl (raw_complete (mem_kstar_oneOf.1 hbody) rest))
  | rune =>
    obtain ⟨tail, rfl, htail⟩ := mem_quoted.1 h
    obtain ⟨rfl, rfl⟩ := List.cons.inj hcs
    exact .inr (.inl (quoted_complete (by decide) htail rest))
  | dot =>
    obtain rfl := mem_exactly.1 h
    obtain ⟨rfl, rfl⟩ := List.cons.inj hcs
    exact .inr (point_atLeast rest)
  | ellipsis =>
    obtain rfl := mem_exactly.1 h
    obtain ⟨rfl, rfl⟩ := List.cons.inj hcs
    exact .inr (.inl rfl)
  | newline | leftParen | rightParen | leftBracket | rightBracket | leftBrace | rightBrace | comma
  | semicolon | star =>
    obtain rfl := mem_exactly.1 h
    obtain ⟨rfl, rfl⟩ := List.cons.inj hcs
    exact .inr (.inl rfl)

/-- No token is empty, because none is found where a text starts with a number sign. -/
theorem nil_notMem_pattern (kind : TokenKind) : [] ∉ kind.pattern := by
  intro h
  have hread : read '#' [] = rejected ['#'] := by decide
  rcases read_atLeast h (show [] ++ ['#'] = '#' :: [] from rfl) with ⟨_, hcs, -⟩ | hfound
  · cases hcs
  · rw [hread] at hfound
    rcases hfound with hfound | ⟨_, _, _, hfound, -⟩
    · cases hfound
    · cases hfound

theorem read_of_unclosed {c : Char} {cs : List Char} (h : Unclosed (c :: cs)) :
    read c cs = rejected ['/', '*'] := by
  obtain ⟨inner, hcs, hinner⟩ := h
  obtain ⟨rfl, rfl⟩ := List.cons.inj hcs
  rw [read_slash, slash, blockTail_eq_none_iff.2 hinner]

theorem prefix_of_read {c : Char} {cs text rest : List Char} {kind : TokenKind}
    (h : read c cs = found kind text rest) : text ++ rest = c :: cs := by
  have hsplits := read_splits c cs
  rw [h] at hsplits
  exact hsplits.2

theorem quotedTail_prefix (mark : Char) (cs : List Char) : (quotedTail mark cs).1 <+: cs := by
  fun_induction quotedTail mark cs <;> simp_all

theorem slash_rejected {cs text : List Char} (h : slash cs = rejected text) :
    text <+: '/' :: cs := by
  unfold slash at h
  split at h
  · cases h
  · split at h
    · cases h
    · cases h
      exact ⟨_, rfl⟩
  · cases h
  · cases h

theorem point_ne_rejected (cs text : List Char) : point cs ≠ rejected text := by
  intro h
  unfold point at h
  split at h
  · split at h
    · cases h
    · split at h <;> cases h
  · cases h

theorem quoted_rejected {kind : TokenKind} {mark : Char} {cs text : List Char}
    (h : quoted kind mark cs = rejected text) : text <+: mark :: cs := by
  have htail := quotedTail_prefix mark cs
  unfold quoted at h
  split at h
  · cases h
  · rename_i taken heq
    cases h
    rw [heq] at htail
    exact List.cons_prefix_cons.2 ⟨rfl, htail⟩

theorem raw_rejected {cs text : List Char} (h : raw cs = rejected text) :
    text <+: backquote :: cs := by
  unfold raw at h
  split at h
  · cases h
    exact List.prefix_rfl
  · cases h

/-- What is rejected stands at the head of the text. -/
theorem prefix_of_rejected {c : Char} {cs text : List Char} (h : read c cs = rejected text) :
    text <+: c :: cs := by
  unfold read at h
  split at h
  · cases h
  split at h
  · cases h
  split at h
  · cases h
  split at h
  · rename_i hc
    exact hc ▸ slash_rejected h
  split at h
  · exact absurd h (point_ne_rejected cs text)
  split at h
  · exact quoted_rejected h
  split at h
  · exact quoted_rejected h
  split at h
  · rename_i hc
    exact hc ▸ raw_rejected h
  split at h
  · cases h
  · cases h
    exact ⟨cs, rfl⟩

/-- **The lexeme at the head of a text is the longest match.** -/
theorem read_eq_found_iff {c : Char} {cs text rest : List Char} {kind : TokenKind} :
    read c cs = found kind text rest ↔
      ¬ Unclosed (c :: cs) ∧ Longest kind text (c :: cs) ∧ text ++ rest = c :: cs := by
  constructor
  · intro h
    have hclosed : ¬ Unclosed (c :: cs) := fun hunclosed => by
      rw [read_of_unclosed hunclosed] at h
      cases h
    refine ⟨hclosed, ⟨⟨rest, prefix_of_read h⟩, mem_pattern_of_read h, ?_⟩, prefix_of_read h⟩
    rintro kind' text' ⟨rest', hrest'⟩ htext'
    rcases (read_atLeast htext' hrest').resolve_left hclosed with hfound | ⟨_, _, _, hfound, hlt⟩
    · rw [h] at hfound
      cases hfound
      exact Nat.le_refl _
    · rw [h] at hfound
      cases hfound
      exact Nat.le_of_lt hlt
  · rintro ⟨hclosed, ⟨-, htext, hlongest⟩, hcs⟩
    rcases (read_atLeast htext hcs).resolve_left hclosed with
      hfound | ⟨kind', text', rest', hfound, hlt⟩
    · exact hfound
    · -- a longer token would be a longer match
      have hle := hlongest kind' text' ⟨rest', prefix_of_read hfound⟩ (mem_pattern_of_read hfound)
      omega

/-- There is no lexeme exactly where no token starts, or a comment has no end. -/
theorem exists_rejected_iff {c : Char} {cs : List Char} :
    (∃ text, read c cs = rejected text) ↔ Unclosed (c :: cs) ∨ NoToken (c :: cs) := by
  constructor
  · rintro ⟨text, h⟩
    by_cases hunclosed : Unclosed (c :: cs)
    · exact .inl hunclosed
    · refine .inr ?_
      rintro kind text' ⟨rest', hrest'⟩ htext'
      rcases (read_atLeast htext' hrest').resolve_left hunclosed with hfound | ⟨_, _, _, hfound, -⟩
      · rw [h] at hfound
        cases hfound
      · rw [h] at hfound
        cases hfound
  · rintro (hunclosed | hnone)
    · exact ⟨_, read_of_unclosed hunclosed⟩
    · cases h : read c cs with
      | rejected text => exact ⟨text, rfl⟩
      | found kind text rest =>
        exact absurd (mem_pattern_of_read h) (hnone kind text ⟨rest, prefix_of_read h⟩)

end Lexeme
end ApiDocs.Source
