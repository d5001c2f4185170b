/-
  ApiDocs.Proofs.Swagger.Forms

  The forms of directives, as grammars. A line consists of words with gaps of white space between
  them, and may end with a text in quotation marks (`Spaced`, `Closes`). The readers of parameter,
  response and route lines accept exactly the lines of these forms (`read?_eq_some_iff` and its
  siblings), and what such a line says is stored as it is written (`applyLine_stores_verbatim`).
  `Takes` says what any line can do to an operation, so that invariants go by its cases.
-/

import ApiDocs.Proofs.Ensures
import ApiDocs.Proofs.Swagger.Lines
import ApiDocs.Swagger.Directive

namespace ApiDocs.Swagger

/-! ## Words and gaps -/

/-- A text that is not empty and holds no white space. -/
def Unbroken (cs : List Char) : Prop :=
  cs ≠ [] ∧ ∀ c ∈ cs, Text.isBlank c = false

instance (cs : List Char) : Decidable (Unbroken cs) :=
  decidable_of_iff (cs ≠ [] ∧ cs.all (fun c => !Text.isBlank c) = true) (by simp [Unbroken])

/-- White space that is not empty. -/
def IsGap (cs : List Char) : Prop :=
  cs ≠ [] ∧ ∀ c ∈ cs, Text.isBlank c = true

instance (cs : List Char) : Decidable (IsGap cs) :=
  decidable_of_iff (cs ≠ [] ∧ cs.all Text.isBlank = true) (by simp [IsGap])

/-- The text consists of these words, with gaps between them, and of what follows the last one. -/
def Spaced : List (List Char) → List Char → List Char → Prop
  | [], tail, cs => cs = tail
  | [word], tail, cs => Unbroken word ∧ cs = word ++ tail
  | word :: words, tail, cs => Unbroken word ∧
      ∃ gap rest, IsGap gap ∧ cs = word ++ (gap ++ rest) ∧ Spaced words tail rest

/-- What may follow the last word: nothing, which stands for an empty text, or a gap and a text in
quotation marks, with none inside. -/
inductive Closes : List Char → List Char → Prop where
  | nothing : Closes [] []
  | quoted {gap text : List Char} (hgap : IsGap gap) (htext : '"' ∉ text) :
      Closes (gap ++ '"' :: (text ++ ['"'])) text

/-- The text neither starts nor ends with white space. -/
structure Trimmed (cs : List Char) : Prop where
  head : ∀ c ∈ cs.head?, Text.isBlank c = false
  last : ∀ c ∈ cs.getLast?, Text.isBlank c = false

theorem trimmed_trim (cs : List Char) : Trimmed (Text.trim cs) :=
  ⟨fun _ => Text.head?_trim, fun _ => Text.getLast?_trim⟩

theorem Unbroken.head {word : List Char} (h : Unbroken word) (rest : List Char) :
    ∀ c ∈ (word ++ rest).head?, Text.isBlank c = false := by
  obtain ⟨hne, hword⟩ := h
  obtain ⟨first, word, rfl⟩ := List.exists_cons_of_ne_nil hne
  intro c hc
  obtain rfl : first = c := by simpa using hc
  exact hword first List.mem_cons_self

/-- White space at the end of a trimmed text is none. -/
theorem Trimmed.eq_nil_of_blank {front behind : List Char} (h : Trimmed (front ++ behind))
    (hblank : ∀ c ∈ behind, Text.isBlank c = true) : behind = [] := by
  by_contra hne
  have hlast : Text.isBlank (behind.getLast hne) = false := by
    refine h.last _ ?_
    rw [List.getLast?_append, List.getLast?_eq_some_getLast hne]
    rfl
  have hmem := List.getLast_mem hne
  rw [hblank _ hmem] at hlast
  cases hlast

theorem Trimmed.of_append {front rest : List Char} (h : Trimmed (front ++ rest))
    (hhead : ∀ c ∈ rest.head?, Text.isBlank c = false) : Trimmed rest := by
  refine ⟨hhead, fun c hc => h.last c ?_⟩
  rw [List.getLast?_append, Option.mem_def.1 hc, Option.some_or]
  rfl

/-! ## Reading words -/

section Words

variable {word gap rest : List Char}

theorem nextWord?_of_unbroken (hword : Unbroken word) : nextWord? word = some (word, []) := by
  have hrun : ∀ c ∈ word, (!Text.isBlank c) = true := by simpa using hword.2
  have htake := List.takeWhile_eq_self_iff.2 hrun
  have hdrop := List.dropWhile_eq_nil_iff.2 hrun
  simp [nextWord?, htake, hdrop, hword.1, Text.trimStart]

theorem nextWord?_of_gap (hword : Unbroken word) (hgap : IsGap gap)
    (hrest : ∀ c ∈ rest.head?, Text.isBlank c = false) :
    nextWord? (word ++ (gap ++ rest)) = some (word, rest) := by
  have hrun : ∀ c ∈ word, (!Text.isBlank c) = true := by simpa using hword.2
  -- the word stops where the gap starts, and the gap where the rest does
  have hstop : ∀ c ∈ (gap ++ rest).head?, (!Text.isBlank c) = false := by
    obtain ⟨first, gap, rfl⟩ := List.exists_cons_of_ne_nil hgap.1
    intro c hc
    obtain rfl : first = c := by simpa using hc
    simpa using hgap.2 first List.mem_cons_self
  have hskip : Text.trimStart (gap ++ rest) = rest := Text.dropWhile_append_stop hgap.2 hrest
  simp [nextWord?, Text.takeWhile_append_stop hrun hstop, Text.dropWhile_append_stop hrun hstop,
    hskip, hword.1]

/-- What reading a word off a trimmed text gives: the whole text, or what stands before and behind
a gap, with which a trimmed text does not end. -/
theorem nextWord?_eq_some {cs : List Char} (hcs : Trimmed cs)
    (h : nextWord? cs = some (word, rest)) :
    Unbroken word ∧ Trimmed rest ∧
      (cs = word ∧ rest = [] ∨ ∃ gap, IsGap gap ∧ rest ≠ [] ∧ cs = word ++ (gap ++ rest)) := by
  have hsplit := List.takeWhile_append_dropWhile (p := (!Text.isBlank ·)) (l := cs)
  have hunbroken : ∀ c ∈ cs.takeWhile (!Text.isBlank ·), Text.isBlank c = false := by
    intro c hc
    simpa using List.mem_takeWhile_imp hc
  rw [nextWord?] at h
  split at h
  · cases h
  rename_i hne
  cases h
  refine ⟨⟨by simpa using hne, hunbroken⟩, ?_⟩
  cases htail : cs.dropWhile (!Text.isBlank ·) with
  | nil =>
    rw [htail, List.append_nil] at hsplit
    exact ⟨⟨by simp [Text.trimStart], by simp [Text.trimStart]⟩, .inl ⟨hsplit.symm, rfl⟩⟩
  | cons c tail =>
    -- the word stops at white space, which starts the gap
    have hblank : Text.isBlank c = true := by
      have hstop := Text.head?_dropWhile_stop (!Text.isBlank ·) cs (c := c) (by rw [htail]; rfl)
      simpa using hstop
    have hgap := List.takeWhile_append_dropWhile (p := Text.isBlank) (l := c :: tail)
    have hcs' : cs = cs.takeWhile (!Text.isBlank ·) ++
        ((c :: tail).takeWhile Text.isBlank ++ Text.trimStart (c :: tail)) := by
      rw [Text.trimStart, hgap, ← htail, hsplit]
    have hisGap : IsGap ((c :: tail).takeWhile Text.isBlank) :=
      ⟨by simp [hblank], fun c hc => List.mem_takeWhile_imp hc⟩
    have hne : Text.trimStart (c :: tail) ≠ [] := by
      intro hnil
      rw [hcs', hnil, List.append_nil] at hcs
      exact hisGap.1 (hcs.eq_nil_of_blank hisGap.2)
    refine ⟨?_, .inr ⟨_, hisGap, hne, hcs'⟩⟩
    rw [hcs', ← List.append_assoc] at hcs
    exact hcs.of_append fun c hc => Text.head?_dropWhile_stop Text.isBlank _ hc

end Words

/-! ## Lines of words -/

section Lines

variable {word next tail cs : List Char} {words : List (List Char)}

theorem Spaced.head (h : Spaced (word :: words) tail cs) :
    ∃ rest, Unbroken word ∧ cs = word ++ rest := by
  cases words with
  | nil =>
    obtain ⟨hword, rfl⟩ := h
    exact ⟨tail, hword, rfl⟩
  | cons next words =>
    obtain ⟨hword, gap, rest, -, rfl, -⟩ := h
    exact ⟨gap ++ rest, hword, rfl⟩

/-- A line of these words that ends with this text. -/
def IsLine (words : List (List Char)) (text cs : List Char) : Prop :=
  ∃ tail, Spaced words tail cs ∧ Closes tail text

/-- A word with others behind it is read off, and the others are left. -/
theorem isLine_cons_cons {text : List Char} (hcs : Trimmed cs) :
    IsLine (word :: next :: words) text cs ↔
      ∃ rest, nextWord? cs = some (word, rest) ∧ Trimmed rest ∧ IsLine (next :: words) text rest := by
  constructor
  · rintro ⟨tail, ⟨hword, gap, rest, hgap, rfl, hrest⟩, htail⟩
    obtain ⟨behind, hnext, rfl⟩ := hrest.head
    have hhead := hnext.head behind
    refine ⟨_, nextWord?_of_gap hword hgap hhead, ?_, tail, hrest, htail⟩
    rw [← List.append_assoc] at hcs
    exact hcs.of_append hhead
  · rintro ⟨rest, hread, -, tail, hrest, htail⟩
    obtain ⟨hword, -, ⟨rfl, rfl⟩ | ⟨gap, hgap, -, rfl⟩⟩ := nextWord?_eq_some hcs hread
    · -- nothing would be left to start the next word with
      obtain ⟨behind, hnext, hnil⟩ := hrest.head
      exact absurd (List.append_eq_nil_iff.1 hnil.symm).1 hnext.1
    · exact ⟨tail, ⟨hword, gap, rest, hgap, rfl, hrest⟩, htail⟩

/-- Nothing, or a text in quotation marks, is all that may be left of a trimmed line. -/
theorem finalText?_eq_some_iff {rest text : List Char} (hrest : Trimmed rest) :
    finalText? rest = some text ↔
      rest = [] ∧ text = [] ∨ '"' ∉ text ∧ rest = '"' :: (text ++ ['"']) := by
  constructor
  · intro h
    unfold finalText? at h
    split at h
    · exact .inl ⟨rfl, (Option.some.inj h).symm⟩
    · split at h
      · rename_i before after hsplit
        obtain ⟨c, hc, hbefore, rfl⟩ := Text.splitFirst_eq_some_iff.1 hsplit
        obtain rfl : c = '"' := by simpa using hc
        split at h
        · rename_i hblank
          obtain rfl := Option.some.inj h
          -- white space behind the second mark would end the line
          have hsplit' : '"' :: (before ++ '"' :: after) = ('"' :: before ++ ['"']) ++ after := by simp
          obtain rfl : after = [] := by
            rw [hsplit'] at hrest
            exact hrest.eq_nil_of_blank (List.all_eq_true.1 hblank)
          exact .inr ⟨fun hmem => by simpa using hbefore _ hmem, rfl⟩
        · cases h
      · cases h
    · cases h
  · rintro (⟨rfl, rfl⟩ | ⟨htext, rfl⟩)
    · rfl
    · have hbefore : ∀ c ∈ text, decide (c = '"') = false := by
        rintro c hc
        exact decide_eq_false fun heq => htext (heq ▸ hc)
      have hsplit : Text.splitFirst (· = '"') (text ++ ['"']) = some (text, []) :=
        Text.splitFirst_eq_some_iff.2 ⟨'"', by decide, hbefore, rfl⟩
      simp [finalText?, hsplit]

/-- The last word of a line, and the text that closes the line. -/
theorem isLine_singleton {text : List Char} (hcs : Trimmed cs) :
    IsLine [word] text cs ↔
      ∃ rest, nextWord? cs = some (word, rest) ∧ Trimmed rest ∧ finalText? rest = some text := by
  constructor
  · rintro ⟨tail, ⟨hword, rfl⟩, hcloses⟩
    cases hcloses with
    | nothing =>
      rw [List.append_nil]
      exact ⟨[], nextWord?_of_unbroken hword, ⟨by simp, by simp⟩, rfl⟩
    | @quoted gap text hgap htext =>
      have hquote : ∀ c ∈ ('"' :: (text ++ ['"'])).head?, Text.isBlank c = false := by
        intro c hc
        obtain rfl : '"' = c := by simpa using hc
        decide
      have hrest : Trimmed ('"' :: (text ++ ['"'])) := by
        rw [← List.append_assoc] at hcs
        exact hcs.of_append hquote
      exact ⟨_, nextWord?_of_gap hword hgap hquote, hrest,
        (finalText?_eq_some_iff hrest).2 (.inr ⟨htext, rfl⟩)⟩
  · rintro ⟨rest, hread, hrest, htext⟩
    obtain ⟨hword, -, hsplit⟩ := nextWord?_eq_some hcs hread
    rcases (finalText?_eq_some_iff hrest).1 htext with ⟨rfl, rfl⟩ | ⟨hquote, rfl⟩
    · rcases hsplit with ⟨rfl, -⟩ | ⟨gap, -, hne, -⟩
      · exact ⟨[], ⟨hword, by rw [List.append_nil]⟩, .nothing⟩
      · exact absurd rfl hne
    · rcases hsplit with ⟨-, hnil⟩ | ⟨gap, hgap, -, rfl⟩
      · cases hnil
      · exact ⟨gap ++ '"' :: (text ++ ['"']), ⟨hword, rfl⟩, .quoted hgap hquote⟩

end Lines

/-! ## Parameters -/

/-- The line has the form of a parameter line with these parts. -/
def ParameterForm (r : List Char) (parts : ParameterLine) : Prop :=
  IsLine [parts.name, parts.location, parts.type, parts.required] parts.description r

theorem ParameterLine.read?_eq_some_iff {r : List Char} {parts : ParameterLine} (hr : Trimmed r) :
    ParameterLine.read? r = some parts ↔
      ParameterForm r parts ∧ parts.location.all Text.isWord = true ∧
        parts.required.all Text.isWord = true := by
  constructor
  · intro h
    obtain ⟨⟨name, r₁⟩, hname, h⟩ := Option.bind_eq_some_iff.1 h
    obtain ⟨⟨location, r₂⟩, hlocation, h⟩ := Option.bind_eq_some_iff.1 h
    obtain ⟨⟨type, r₃⟩, htype, h⟩ := Option.bind_eq_some_iff.1 h
    obtain ⟨⟨required, r₄⟩, hrequired, h⟩ := Option.bind_eq_some_iff.1 h
    obtain ⟨description, hdescription, h⟩ := Option.bind_eq_some_iff.1 h
    have h₁ := (nextWord?_eq_some hr hname).2.1
    have h₂ := (nextWord?_eq_some h₁ hlocation).2.1
    have h₃ := (nextWord?_eq_some h₂ htype).2.1
    have h₄ := (nextWord?_eq_some h₃ hrequired).2.1
    split at h
    · rename_i hwords
      obtain rfl := Option.some.inj h
      refine ⟨?_, by simpa using hwords⟩
      rw [ParameterForm, isLine_cons_cons hr]
      refine ⟨r₁, hname, h₁, (isLine_cons_cons h₁).2 ⟨r₂, hlocation, h₂, ?_⟩⟩
      exact (isLine_cons_cons h₂).2 ⟨r₃, htype, h₃,
        (isLine_singleton h₃).2 ⟨r₄, hrequired, h₄, hdescription⟩⟩
    · cases h
  · rintro ⟨hform, hlocation, hrequired⟩
    obtain ⟨r₁, h₁, ht₁, hform⟩ := (isLine_cons_cons hr).1 hform
    obtain ⟨r₂, h₂, ht₂, hform⟩ := (isLine_cons_cons ht₁).1 hform
    obtain ⟨r₃, h₃, ht₃, hform⟩ := (isLine_cons_cons ht₂).1 hform
    obtain ⟨r₄, h₄, -, hform⟩ := (isLine_singleton ht₃).1 hform
    have hwords : (parts.location.all Text.isWord && parts.required.all Text.isWord) = true := by
      rw [hlocation, hrequired]
      rfl
    simp only [ParameterLine.read?, h₁, h₂, h₃, h₄, hform, Option.bind_eq_bind, Option.bind_some,
      if_pos hwords]
    rfl

/-! ## Responses -/

/-- The shapes of the body of a response. -/
inductive Shape where
  | object
  | array
  deriving DecidableEq, Repr

/-- How a shape is written. -/
def Shape.mark : Shape → String
  | object => "\x7bobject\x7d"
  | array => "\x7barray\x7d"

/-- The type of a body of this shape, written in full. -/
def Shape.full : Shape → List Char → List Char
  | object, written => written
  | array, written => '[' :: ']' :: written

/-- The line has the form of a response line with these parts. -/
inductive ResponseForm (r : List Char) : ResponseLine → Prop where
  | plain {code message : List Char} (h : IsLine [code] message r) :
      ResponseForm r ⟨code, none, message⟩
  | typed {code written message : List Char} (shape : Shape)
      (h : IsLine [code, shape.mark.toList, written] message r) :
      ResponseForm r ⟨code, some (shape.full written), message⟩

theorem ResponseLine.typed?_eq_some_iff {rest type message : List Char} (hrest : Trimmed rest) :
    ResponseLine.read?.typed? rest = some (type, message) ↔
      ∃ (shape : Shape) (written : List Char), type = shape.full written ∧
        IsLine [shape.mark.toList, written] message rest := by
  constructor
  · intro h
    obtain ⟨⟨mark, r₁⟩, hmark, h⟩ := Option.bind_eq_some_iff.1 h
    obtain ⟨⟨written, r₂⟩, hwritten, h⟩ := Option.bind_eq_some_iff.1 h
    obtain ⟨text, htext, h⟩ := Option.bind_eq_some_iff.1 h
    have h₁ := (nextWord?_eq_some hrest hmark).2.1
    have h₂ := (nextWord?_eq_some h₁ hwritten).2.1
    have hline : IsLine [mark, written] text rest :=
      (isLine_cons_cons hrest).2 ⟨r₁, hmark, h₁, (isLine_singleton h₁).2 ⟨r₂, hwritten, h₂, htext⟩⟩
    split at h
    · rename_i hobject
      cases h
      refine ⟨.object, _, rfl, ?_⟩
      rwa [Shape.mark, ← hobject, String.toList_ofList]
    · rename_i harray
      cases h
      refine ⟨.array, written, rfl, ?_⟩
      rwa [Shape.mark, ← harray, String.toList_ofList]
    · cases h
  · rintro ⟨shape, written, rfl, hline⟩
    obtain ⟨r₁, hmark, h₁, hline⟩ := (isLine_cons_cons hrest).1 hline
    obtain ⟨r₂, hwritten, -, htext⟩ := (isLine_singleton h₁).1 hline
    cases shape <;>
      simp [ResponseLine.read?.typed?, hmark, hwritten, htext, Shape.mark, Shape.full]

/-- What closes a line is no typed body. -/
theorem ResponseLine.typed?_of_finalText {rest text : List Char} (hrest : Trimmed rest)
    (h : finalText? rest = some text) : ResponseLine.read?.typed? rest = none := by
  rw [Option.eq_none_iff_forall_ne_some]
  rintro ⟨type, message⟩ htyped
  obtain ⟨shape, written, -, tail, hspaced, -⟩ := (typed?_eq_some_iff hrest).1 htyped
  obtain ⟨behind, -, hmark⟩ := hspaced.head
  -- a shape starts with a brace, and the text with a quotation mark
  have hbrace : rest.head? = some '\x7b' := by
    rw [hmark]
    cases shape <;> rfl
  rcases (finalText?_eq_some_iff hrest).1 h with ⟨rfl, -⟩ | ⟨-, rfl⟩
  · cases hbrace
  · exact absurd hbrace (by simp)

theorem ResponseLine.read?_eq_some_iff {r : List Char} {parts : ResponseLine} (hr : Trimmed r) :
    ResponseLine.read? r = some parts ↔ ResponseForm r parts ∧ isCode parts.code = true := by
  constructor
  · intro h
    obtain ⟨⟨code, rest⟩, hcode, h⟩ := Option.bind_eq_some_iff.1 h
    have hrest := (nextWord?_eq_some hr hcode).2.1
    dsimp only at h
    split at h
    · cases h
    rename_i hdigits
    have hdigits : isCode code = true := by simpa using hdigits
    split at h
    · rename_i type message htyped
      cases h
      obtain ⟨shape, written, rfl, hline⟩ := (typed?_eq_some_iff hrest).1 htyped
      exact ⟨.typed shape ((isLine_cons_cons hr).2 ⟨rest, hcode, hrest, hline⟩), hdigits⟩
    · obtain ⟨message, htext, h⟩ := Option.bind_eq_some_iff.1 h
      cases h
      exact ⟨.plain ((isLine_singleton hr).2 ⟨rest, hcode, hrest, htext⟩), hdigits⟩
  · rintro ⟨hform, hdigits⟩
    cases hform with
    | plain hline =>
      obtain ⟨rest, hcode, hrest, htext⟩ := (isLine_singleton hr).1 hline
      simp_all [ResponseLine.read?, typed?_of_finalText hrest htext]
    | typed shape hline =>
      obtain ⟨rest, hcode, hrest, hline⟩ := (isLine_cons_cons hr).1 hline
      have htyped := (typed?_eq_some_iff hrest).2 ⟨shape, _, rfl, hline⟩
      simp_all [ResponseLine.read?]

/-- The three ASCII digits of a number. -/
def Denotes (code : List Char) (n : UInt16) : Prop :=
  ∃ a b c : Fin 10, code = [Nat.digitChar a, Nat.digitChar b, Nat.digitChar c] ∧
    n.toNat = 100 * a + 10 * b + c

theorem exists_digitChar_of_isDigit {c : Char} (h : c.isDigit = true) :
    ∃ a : Fin 10, c = Nat.digitChar a := by
  rw [Char.isDigit_iff_toNat] at h
  obtain ⟨hlo, hhi⟩ := h
  simp only [Char.reduceToNat] at hlo hhi
  have ha : c.toNat - 48 < 10 := by omega
  refine ⟨⟨c.toNat - 48, ha⟩, Char.toNat_inj.1 ?_⟩
  show c.toNat = (Nat.digitChar (c.toNat - 48)).toNat
  rw [Nat.toNat_digitChar_of_lt_ten ha]
  omega

theorem ofDigitChars_three (a b c : Fin 10) :
    Nat.ofDigitChars 10 [Nat.digitChar a, Nat.digitChar b, Nat.digitChar c] 0 =
      100 * a + 10 * b + c := by
  simp only [Nat.ofDigitChars_cons, Nat.ofDigitChars_nil, Nat.toNat_digitChar_of_lt_ten a.isLt,
    Nat.toNat_digitChar_of_lt_ten b.isLt, Nat.toNat_digitChar_of_lt_ten c.isLt, Char.reduceToNat]
  omega

/-- The status codes that are accepted are the numbers of three ASCII digits. -/
theorem statusCode?_eq_some_iff {code : List Char} {n : UInt16} :
    isCode code = true ∧ statusCode? code = some n ↔ Denotes code n := by
  constructor
  · rintro ⟨hcode, hstatus⟩
    rw [isCode, Bool.and_eq_true, decide_eq_true_eq] at hcode
    obtain ⟨x, y, z, rfl⟩ := List.length_eq_three.1 hcode.1
    rw [statusCode?] at hstatus
    split at hstatus
    · rename_i hdigits
      simp only [List.all_cons, List.all_nil, Bool.and_true, Bool.and_eq_true] at hdigits
      obtain ⟨a, rfl⟩ := exists_digitChar_of_isDigit hdigits.1
      obtain ⟨b, rfl⟩ := exists_digitChar_of_isDigit hdigits.2.1
      obtain ⟨c, rfl⟩ := exists_digitChar_of_isDigit hdigits.2.2
      refine ⟨a, b, c, rfl, ?_⟩
      obtain rfl := Option.some.inj hstatus
      have hlt : 100 * a.val + 10 * b.val + c.val < UInt16.size := by
        show _ < 65536
        omega
      rw [ofDigitChars_three, UInt16.toNat_ofNat_of_lt' hlt]
    · cases hstatus
  · rintro ⟨a, b, c, rfl, hn⟩
    have hdecimal : ∀ a : Fin 10, Text.isDecimalDigit (Nat.digitChar a) = true := by decide
    have hdigit : ∀ a : Fin 10, (Nat.digitChar a).isDigit = true := by decide
    refine ⟨by simp [isCode, hdecimal], ?_⟩
    have hall : [Nat.digitChar a, Nat.digitChar b, Nat.digitChar c].all Char.isDigit = true := by
      simp [hdigit]
    rw [statusCode?, if_pos hall, ofDigitChars_three, ← hn, UInt16.ofNat_toNat]

/-! ## Routes -/

/-- The line has the form of a route line with this path and method. -/
inductive RouteForm : List Char → List Char → Option (List Char) → Prop where
  | path {path : List Char} (hpath : Unbroken path) : RouteForm path path none
  | method {path gap method : List Char} (hpath : Unbroken path) (hgap : IsGap gap)
      (hne : method ≠ []) (hmethod : ∀ c ∈ method, Text.isWord c = true) :
      RouteForm (path ++ (gap ++ '[' :: (method ++ [']']))) path (some method)

theorem readRoute?_eq_some_iff {r path : List Char} {method : Option (List Char)} (hr : Trimmed r) :
    readRoute? r = some (path, method) ↔ RouteForm r path method := by
  constructor
  · intro h
    obtain ⟨⟨word, rest⟩, hword, h⟩ := Option.bind_eq_some_iff.1 h
    obtain ⟨hpath, hrest, hsplit⟩ := nextWord?_eq_some hr hword
    dsimp only at h
    split at h
    · cases h
      rcases hsplit with ⟨rfl, -⟩ | ⟨gap, -, hne, -⟩
      · exact .path hpath
      · exact absurd rfl hne
    · rename_i body
      split at h
      · rename_i after hbracket
        split at h
        · cases h
        · rename_i hmethod
          cases h
          simp only [Bool.or_eq_true, Bool.not_eq_true', not_or, Bool.not_eq_true,
            Bool.not_eq_false, List.isEmpty_eq_false_iff, List.all_eq_true] at hmethod
          obtain ⟨hne, hblank⟩ := hmethod
          have hbody : '[' :: (body.takeWhile Text.isWord ++ [']']) ++ after = '[' :: body := by
            have hsplit := List.takeWhile_append_dropWhile (p := Text.isWord) (l := body)
            rw [hbracket] at hsplit
            rw [List.cons_append, List.append_assoc, List.singleton_append, hsplit]
          -- white space behind the closing bracket would end the line
          obtain rfl : after = [] := by
            rw [← hbody] at hrest
            exact hrest.eq_nil_of_blank hblank
          rcases hsplit with ⟨-, hnil⟩ | ⟨gap, hgap, -, rfl⟩
          · cases hnil
          · rw [← hbody, List.append_nil]
            exact .method hpath hgap hne fun c hc => List.mem_takeWhile_imp hc
      · cases h
    · cases h
  · intro h
    cases h with
    | path hpath => simp [readRoute?, nextWord?_of_unbroken hpath]
    | @method _ gap method hpath hgap hne hmethod =>
      have hbracket : ∀ c ∈ ('[' :: (method ++ [']'])).head?, Text.isBlank c = false := by
        intro c hc
        obtain rfl : '[' = c := by simpa using hc
        decide
      have hstop : ∀ c ∈ [']'].head?, Text.isWord c = false := by
        intro c hc
        obtain rfl : ']' = c := by simpa using hc
        decide
      have htake := Text.takeWhile_append_stop hmethod hstop
      have hdrop := Text.dropWhile_append_stop hmethod hstop
      simp only [readRoute?, nextWord?_of_gap hpath hgap hbracket, Option.bind_eq_bind,
        Option.bind_some, htake, hdrop]
      simp [hne]

/-! ## Directives -/

/-- The line is this directive, whatever the case of its letters, and `rest` is what follows it,
without comment marks and without white space around it. -/
def Directs (line directive : String) (rest : List Char) : Prop :=
  let text := dropCommentMarks line.toList
  Text.lowered (String.ofList (text.takeWhile fun c => !Text.isBlank c)) = Text.lowered directive ∧
    rest = Text.trim (text.dropWhile fun c => !Text.isBlank c)

theorem Directs.trimmed {line directive : String} {rest : List Char}
    (h : Directs line directive rest) : Trimmed rest := by
  rw [h.2]
  exact trimmed_trim _

theorem toLower_eq_or_capital (c : Char) :
    c.toLower = c ∨ ∃ n : Fin 26, c = Char.ofNat (65 + n) := by
  delta Char.toLower
  split
  · rename_i hupper
    simp only [ge_iff_le, UInt32.le_iff_toNat_le] at hupper
    have hlo : 65 ≤ c.toNat := hupper.1
    have hhi : c.toNat ≤ 90 := hupper.2
    refine .inr ⟨⟨c.toNat - 65, by omega⟩, ?_⟩
    show c = Char.ofNat (65 + (c.toNat - 65))
    rw [Nat.add_sub_cancel' hlo, Char.ofNat_toNat]
  · exact .inl rfl

theorem eq_at_of_toLower {c : Char} (h : c.toLower = '@') : c = '@' := by
  rcases toLower_eq_or_capital c with hc | ⟨n, rfl⟩
  · rw [← hc, h]
  · revert n
    decide

/-- A text that is made of word characters once it is in lower case. -/
theorem all_isWord_of_lowered {cs : List Char} {word : String}
    (h : Text.lowered (String.ofList cs) = word) (hword : word.toList.all Text.isWord = true) :
    cs.all Text.isWord = true := by
  have hcapital : ∀ n : Fin 26, Text.isWord (Char.ofNat (65 + n)) = true := by decide
  rw [← h, Text.lowered, String.toList_ofList, String.toList_ofList, List.all_map] at hword
  rw [List.all_eq_true] at hword ⊢
  intro c hc
  rcases toLower_eq_or_capital c with heq | ⟨n, rfl⟩
  · have hlow := hword c hc
    rwa [Function.comp_apply, heq] at hlow
  · exact hcapital n

/-- The first word of a directive, and the at sign it starts with. -/
theorem Directs.split {line directive : String} {rest : List Char}
    (h : Directs line directive rest) (name : List Char)
    (hname : Text.lowered directive = String.ofList ('@' :: name)) :
    ∃ word, splitDirective (dropCommentMarks line.toList) = (word, rest) ∧
      Text.lowered (String.ofList word) = String.ofList ('@' :: name) ∧
      (dropCommentMarks line.toList).head? = some '@' := by
  have hword := h.1.trans hname
  refine ⟨_, by rw [splitDirective_eq, ← h.2], hword, ?_⟩
  cases hcs : dropCommentMarks line.toList with
  | nil => simp [hcs, Text.lowered] at hword
  | cons c cs =>
    have hchars := congrArg String.toList hword
    simp only [hcs, Text.lowered, String.toList_ofList] at hchars
    cases hblank : Text.isBlank c with
    | true => simp [hblank] at hchars
    | false =>
      rw [List.takeWhile_cons_of_pos (by simp [hblank]), List.map_cons] at hchars
      rw [List.head?_cons, eq_at_of_toLower (List.cons.inj hchars).1]

namespace Operation

variable {w : Workspace} {operation operation' : Operation} {line directive : String}
  {rest : List Char} {s t : Session}

theorem applyLine_param (w : Workspace) (operation : Operation) (h : Directs line "@Param" rest) :
    ∃ directive, operation.applyLine w line = operation.addParameter w directive rest := by
  obtain ⟨word, hsplit, hword, hat⟩ := h.split ['p', 'a', 'r', 'a', 'm'] (by decide)
  refine ⟨String.ofList word, ?_⟩
  simp only [applyLine, hat, hsplit, hword, ne_eq, not_true_eq_false, if_false]

theorem applyLine_response (w : Workspace) (operation : Operation) {success : Bool}
    (h : Directs line (if success then "@Success" else "@Failure") rest) :
    ∃ directive, operation.applyLine w line = operation.addResponse w success directive rest := by
  obtain ⟨word, hsplit, hword, hat⟩ := h.split
    (if success then ['s', 'u', 'c', 'c', 'e', 's', 's']
      else ['f', 'a', 'i', 'l', 'u', 'r', 'e']) (by cases success <;> decide)
  refine ⟨String.ofList word, ?_⟩
  simp only [applyLine, hat, hsplit, hword, ne_eq, not_true_eq_false, if_false]
  cases success <;> rfl

theorem applyLine_router (w : Workspace) (operation : Operation) (h : Directs line "@Router" rest) :
    ∃ directive, operation.applyLine w line = ofExcept (operation.setRoute directive rest) := by
  obtain ⟨word, hsplit, hword, hat⟩ := h.split ['r', 'o', 'u', 't', 'e', 'r'] (by decide)
  refine ⟨String.ofList word, ?_⟩
  simp only [applyLine, hat, hsplit, hword, ne_eq, not_true_eq_false, if_false]

theorem describe_eq_ok_iff {written : List Char} {type : DataType} :
    operation.describe w written s = .ok (type, operation') t ↔
      ∃ models, Builder.run w operation.package (String.ofList written) s = .ok (type, models) t ∧
        operation' = { operation with models := operation.models.extend models } := by
  rw [describe, bind_eq_ok_iff]
  constructor
  · rintro ⟨⟨type', models⟩, u, hrun, hpure⟩
    cases hpure
    exact ⟨models, hrun, rfl⟩
  · rintro ⟨models, hrun, rfl⟩
    exact ⟨(type, models), t, hrun, rfl⟩

/-- The parameter that a line with these parts adds. -/
def parameterOf (parts : ParameterLine) (required : Bool) (type : DataType) : Parameter where
  location := String.ofList parts.location
  name := String.ofList parts.name
  description := String.ofList parts.description
  dataType := type.typeName
  typeName := type.typeName
  format := type.format?
  items := type.items?
  allowMultiple := false
  required := required

/-- A flag is one of two words, whatever the case of its letters. -/
def IsFlag (word : List Char) (required : Bool) : Prop :=
  Text.lowered (String.ofList word) = if required then "true" else "false"

theorem IsFlag.all_isWord {word : List Char} {required : Bool} (h : IsFlag word required) :
    word.all Text.isWord = true := by
  refine all_isWord_of_lowered h ?_
  cases required <;> decide

theorem all_isWord_of_mem_locations {word : List Char} (h : String.ofList word ∈ locations) :
    word.all Text.isWord = true := by
  have hall : ∀ location ∈ locations, location.toList.all Text.isWord = true := by decide
  have hword := hall _ h
  rwa [String.toList_ofList] at hword

theorem isFlag_iff {word : List Char} {required : Bool} :
    IsFlag word required ↔
      (Text.lowered (String.ofList word) = "true" ∨ Text.lowered (String.ofList word) = "false") ∧
        required = decide (Text.lowered (String.ofList word) = "true") := by
  have hne : "false" ≠ "true" := by decide
  cases required with
  | true => simp +contextual [IsFlag]
  | false => grind [IsFlag]

theorem addParameter_eq_ok_iff (hrest : Trimmed rest) :
    operation.addParameter w directive rest s = .ok operation' t ↔
      ∃ parts required type models, ParameterForm rest parts ∧
        String.ofList parts.location ∈ locations ∧ IsFlag parts.required required ∧
        Builder.run w operation.package (String.ofList parts.type) s = .ok (type, models) t ∧
        operation' = { operation with
          models := operation.models.extend models
          parameters := operation.parameters ++ [parameterOf parts required type] } := by
  constructor
  · intro h
    cases hread : ParameterLine.read? rest with
    | none =>
      rw [addParameter, hread] at h
      cases h
    | some parts =>
      rw [addParameter, hread] at h
      dsimp only at h
      split at h
      · cases h
      rename_i hlocation
      split at h
      · cases h
      rename_i hflag
      obtain ⟨⟨type, described⟩, u, hdescribe, h⟩ := bind_eq_ok_iff.1 h
      obtain ⟨models, hrun, rfl⟩ := describe_eq_ok_iff.1 hdescribe
      cases h
      have hform := ((ParameterLine.read?_eq_some_iff hrest).1 hread).1
      refine ⟨parts, _, type, models, hform, by simpa using hlocation, isFlag_iff.2 ⟨?_, rfl⟩,
        hrun, rfl⟩
      by_contra hneither
      rw [not_or] at hneither
      simp [hneither] at hflag
  · rintro ⟨parts, required, type, models, hform, hlocation, hflag, hrun, rfl⟩
    have hread := (ParameterLine.read?_eq_some_iff hrest).2
      ⟨hform, all_isWord_of_mem_locations hlocation, hflag.all_isWord⟩
    obtain ⟨hword, rfl⟩ := isFlag_iff.1 hflag
    have hknown : ¬ (!locations.contains (String.ofList parts.location)) = true := by
      simpa using hlocation
    have hclear : ¬ (Text.lowered (String.ofList parts.required) ≠ "true" &&
        Text.lowered (String.ofList parts.required) ≠ "false") = true := by
      rcases hword with h | h <;> simp [h]
    rw [addParameter, hread]
    dsimp only
    rw [if_neg hknown, if_neg hclear, bind_eq_ok_iff]
    exact ⟨_, t, describe_eq_ok_iff.2 ⟨models, hrun, rfl⟩, rfl⟩

/-- The response that a line with a code and a message adds. -/
def responseOf (code : UInt16) (message : List Char) (model : Option String) : ResponseMessage where
  code := code
  message := String.ofList message
  responseModel := model

/-- The operation with the type of a response as its own, if the response is that of a success. -/
def withType (operation : Operation) (success : Bool) (type : DataType) : Operation :=
  if success then { operation with typeName := type.typeName, items := type.items? } else operation

theorem addResponse_eq_ok_iff {success : Bool} (hrest : Trimmed rest) :
    operation.addResponse w success directive rest s = .ok operation' t ↔
      ∃ parts code, ResponseForm rest parts ∧ Denotes parts.code code ∧
        (parts.type = none ∧ t = s ∧
          operation' = { operation with
            responseMessages := operation.responseMessages ++ [responseOf code parts.message none] } ∨
        ∃ written type models, parts.type = some written ∧
          Builder.run w operation.package (String.ofList written) s = .ok (type, models) t ∧
          operation' = { operation.withType success type with
            models := operation.models.extend models
            responseMessages :=
              operation.responseMessages ++ [responseOf code parts.message type.modelId?] }) := by
  constructor
  · intro h
    cases hread : ResponseLine.read? rest with
    | none =>
      rw [addResponse, hread] at h
      cases h
    | some parts =>
      obtain ⟨hform, hcode⟩ := (ResponseLine.read?_eq_some_iff hrest).1 hread
      rw [addResponse, hread] at h
      dsimp only at h
      cases hstatus : statusCode? parts.code with
      | none =>
        rw [hstatus] at h
        cases h
      | some code =>
        refine ⟨parts, code, hform, statusCode?_eq_some_iff.1 ⟨hcode, hstatus⟩, ?_⟩
        rw [hstatus] at h
        dsimp only at h
        cases htype : parts.type with
        | none =>
          rw [htype] at h
          cases h
          exact .inl ⟨rfl, rfl, rfl⟩
        | some written =>
          rw [htype] at h
          obtain ⟨⟨type, described⟩, u, hdescribe, h⟩ := bind_eq_ok_iff.1 h
          obtain ⟨models, hrun, rfl⟩ := describe_eq_ok_iff.1 hdescribe
          refine .inr ⟨written, type, models, rfl, ?_, ?_⟩
          · cases h
            exact hrun
          · cases h
            cases success <;> rfl
  · rintro ⟨parts, code, hform, hdenotes, hbody⟩
    obtain ⟨hcode, hstatus⟩ := statusCode?_eq_some_iff.2 hdenotes
    have hread := (ResponseLine.read?_eq_some_iff hrest).2 ⟨hform, hcode⟩
    rw [addResponse, hread]
    dsimp only
    rw [hstatus]
    dsimp only
    rcases hbody with ⟨htype, rfl, rfl⟩ | ⟨written, type, models, htype, hrun, rfl⟩
    · rw [htype]
      rfl
    · rw [htype]
      dsimp only
      rw [bind_eq_ok_iff]
      refine ⟨_, t, describe_eq_ok_iff.2 ⟨models, hrun, rfl⟩, ?_⟩
      cases success <;> rfl

theorem setRoute_eq_ok_iff (hrest : Trimmed rest) :
    (ofExcept (operation.setRoute directive rest) : SessionM Operation) s = .ok operation' t ↔
      ∃ path method, RouteForm rest path method ∧ t = s ∧
        operation' = { operation with
          path := String.ofList path
          method := (method.map fun m => Text.raised (String.ofList m)).getD operation.method } := by
  rw [setRoute]
  constructor
  · intro h
    cases hread : readRoute? rest with
    | none =>
      rw [hread] at h
      cases h
    | some route =>
      obtain ⟨path, method⟩ := route
      rw [hread] at h
      cases h
      exact ⟨path, method, (readRoute?_eq_some_iff hrest).1 hread, rfl, rfl⟩
  · rintro ⟨path, method, hform, rfl, rfl⟩
    rw [(readRoute?_eq_some_iff hrest).2 hform]
    rfl

/-- What a line makes of an operation in the session. Most lines set fields that hold no data
types; a parameter, or a response with a type, is added together with the models of its type. -/
inductive Takes (w : Workspace) (s : Session) (operation : Operation) : Operation → Prop where
  | fields (method nickname summary notes path : String) (consumes produces : List String)
      (resourceName : Option String) :
      Takes w s operation
        { operation with method, nickname, summary, notes, path, consumes, produces, resourceName }
  | parameter {parts : ParameterLine} {required : Bool} {type : DataType} {models : Dict Model}
      {t : Session} (hlocation : String.ofList parts.location ∈ locations)
      (hrun : Builder.run w operation.package (String.ofList parts.type) s = .ok (type, models) t) :
      Takes w s operation { operation with
        models := operation.models.extend models
        parameters := operation.parameters ++ [parameterOf parts required type] }
  | message {digits message : List Char} {code : UInt16} (hcode : Denotes digits code) :
      Takes w s operation { operation with
        responseMessages := operation.responseMessages ++ [responseOf code message none] }
  | response {success : Bool} {digits message written : List Char} {code : UInt16}
      {type : DataType} {models : Dict Model} {t : Session} (hcode : Denotes digits code)
      (hrun : Builder.run w operation.package (String.ofList written) s = .ok (type, models) t) :
      Takes w s operation { operation.withType success type with
        models := operation.models.extend models
        responseMessages :=
          operation.responseMessages ++ [responseOf code message type.modelId?] }

theorem trimmed_splitDirective (cs : List Char) : Trimmed (splitDirective cs).2 := by
  rw [splitDirective_eq]
  exact trimmed_trim _

theorem addParameter_takes (hrest : Trimmed rest) :
    Ensures (operation.addParameter w directive rest) s
      (fun operation' _ => operation.Takes w s operation') (fun _ _ => True) := by
  refine ensures_of_outcome (fun operation' t h => ?_) (fun _ _ _ => trivial)
  obtain ⟨parts, required, type, models, -, hlocation, -, hrun, rfl⟩ :=
    (addParameter_eq_ok_iff hrest).1 h
  exact .parameter hlocation hrun

theorem addResponse_takes {success : Bool} (hrest : Trimmed rest) :
    Ensures (operation.addResponse w success directive rest) s
      (fun operation' _ => operation.Takes w s operation') (fun _ _ => True) := by
  refine ensures_of_outcome (fun operation' t h => ?_) (fun _ _ _ => trivial)
  obtain ⟨parts, code, -, hcode, ⟨-, -, rfl⟩ | ⟨written, type, models, -, hrun, rfl⟩⟩ :=
    (addResponse_eq_ok_iff hrest).1 h
  · exact .message hcode
  · exact .response hcode hrun

/-- Every line that is applied does one of these. -/
theorem applyLine_takes (w : Workspace) (operation : Operation) (line : String) (s : Session) :
    Ensures (operation.applyLine w line) s
      (fun operation' _ => operation.Takes w s operation') (fun _ _ => True) := by
  have hnothing : operation.Takes w s operation := .fields ..
  unfold applyLine
  dsimp only
  split
  · exact ensures_pure hnothing
  have hrest := trimmed_splitDirective (dropCommentMarks line.toList)
  generalize splitDirective (dropCommentMarks line.toList) = parts at hrest
  obtain ⟨name, rest⟩ := parts
  dsimp only
  split
  case h_1 | h_2 | h_3 => exact ensures_pure (.fields ..)
  case h_4 =>
    refine ensures_ofExcept (fun operation' h => ?_) (fun _ _ => trivial)
    unfold setResource at h
    dsimp only at h
    split at h <;> cases h
    exact .fields ..
  case h_5 | h_6 =>
    apply ensures_bind
    exact ensures_ofExcept (fun types _ => ensures_pure (.fields ..)) (fun _ _ => trivial)
  case h_7 => exact addParameter_takes hrest
  case h_8 | h_9 => exact addResponse_takes hrest
  case h_10 =>
    refine ensures_of_outcome (fun operation' t h => ?_) (fun _ _ _ => trivial)
    obtain ⟨path, method, -, -, rfl⟩ := (setRoute_eq_ok_iff hrest).1 h
    exact .fields ..
  case h_11 => exact ensures_pure hnothing

/-- **Directives are accepted exactly by their forms, and what they say is stored as it is
written.** A parameter line adds one parameter, and the models that its type mentions. A response
line adds one response, and with a type also its models; only the type of a success becomes that
of the operation. A route line sets the path, and the method in capital letters if it gives one.
Nothing else changes. -/
theorem applyLine_stores_verbatim (w : Workspace) (operation operation' : Operation) (line : String)
    (rest : List Char) (s t : Session) :
    (Directs line "@Param" rest →
      (operation.applyLine w line s = .ok operation' t ↔
        ∃ parts required type models, ParameterForm rest parts ∧
          String.ofList parts.location ∈ ["path", "query", "form", "header", "body"] ∧
          IsFlag parts.required required ∧
          Builder.run w operation.package (String.ofList parts.type) s = .ok (type, models) t ∧
          operation' = { operation with
            models := operation.models.extend models
            parameters := operation.parameters ++ [parameterOf parts required type] })) ∧
    (∀ success : Bool, Directs line (if success then "@Success" else "@Failure") rest →
      (operation.applyLine w line s = .ok operation' t ↔
        ∃ parts code, ResponseForm rest parts ∧ Denotes parts.code code ∧
          (parts.type = none ∧ t = s ∧
            operation' = { operation with
              responseMessages := operation.responseMessages ++ [responseOf code parts.message none] } ∨
          ∃ written type models, parts.type = some written ∧
            Builder.run w operation.package (String.ofList written) s = .ok (type, models) t ∧
            operation' = { operation.withType success type with
              models := operation.models.extend models
              responseMessages :=
                operation.responseMessages ++ [responseOf code parts.message type.modelId?] }))) ∧
    (Directs line "@Router" rest →
      (operation.applyLine w line s = .ok operation' t ↔
        ∃ path method, RouteForm rest path method ∧ t = s ∧
          operation' = { operation with
            path := String.ofList path
            method := (method.map fun m => Text.raised (String.ofList m)).getD operation.method })) := by
  refine ⟨fun h => ?_, fun success h => ?_, fun h => ?_⟩
  · obtain ⟨directive, hline⟩ := applyLine_param w operation h
    rw [hline]
    exact addParameter_eq_ok_iff h.trimmed
  · obtain ⟨directive, hline⟩ := applyLine_response w operation h
    rw [hline]
    exact addResponse_eq_ok_iff h.trimmed
  · obtain ⟨directive, hline⟩ := applyLine_router w operation h
    rw [hline]
    exact setRoute_eq_ok_iff h.trimmed

/-- A list of names in the path, a failure with a message, and a route. -/
theorem applyLine_stores_verbatim_names :
    let operation := Operation.ofPackage "p"
    let session : Session := { roots := ⟨["src"], none⟩ }
    let names := "names path []string TRUE \"names \"".toList
    (∃ operation' t, operation.applyLine Workspace.empty
        "// @PARAM names path []string TRUE \"names \"" session = .ok operation' t ∧
      ∃ parts required type, ParameterForm names parts ∧ IsFlag parts.required required ∧
        operation'.parameters = [parameterOf parts required type]) ∧
    operation.applyLine Workspace.empty "/* @failure 404  \"no\" */" session =
      .ok { operation with responseMessages := [responseOf 404 ['n', 'o'] none] } session ∧
    operation.applyLine Workspace.empty "@Router /a [get]" session =
      .ok { operation with path := "/a", method := "GET" } session := by
  intro operation session names
  refine ⟨?_, ?_, ?_⟩
  · have hdirects : Directs "// @PARAM names path []string TRUE \"names \"" "@Param" names :=
      ⟨by decide, by decide⟩
    have hok : isOk (operation.applyLine Workspace.empty
        "// @PARAM names path []string TRUE \"names \"" session) = true := by decide +kernel
    obtain ⟨operation', hrun⟩ := eq_ok_of_isOk hok
    obtain ⟨parts, required, type, models, hform, -, hflag, -, rfl⟩ :=
      ((applyLine_stores_verbatim Workspace.empty operation operation' _ names session _).1
        hdirects).1 hrun
    exact ⟨_, _, hrun, parts, required, type, hform, hflag, rfl⟩
  · have hdirects : Directs "/* @failure 404  \"no\" */" "@Failure"
        ['4', '0', '4', ' ', ' ', '"', 'n', 'o', '"'] := ⟨by decide, by decide⟩
    have hform : IsLine [['4', '0', '4']] ['n', 'o'] ['4', '0', '4', ' ', ' ', '"', 'n', 'o', '"'] :=
      ⟨_, ⟨by decide, rfl⟩, @Closes.quoted [' ', ' '] ['n', 'o'] (by decide) (by decide)⟩
    exact ((applyLine_stores_verbatim Workspace.empty operation _ _ _ session session).2.1
      false hdirects).2 ⟨_, 404, .plain hform, ⟨4, 0, 4, rfl, rfl⟩, .inl ⟨rfl, rfl, rfl⟩⟩
  · have hdirects : Directs "@Router /a [get]" "@Router" ['/', 'a', ' ', '[', 'g', 'e', 't', ']'] :=
      ⟨by decide, by decide⟩
    have hform : RouteForm ['/', 'a', ' ', '[', 'g', 'e', 't', ']'] ['/', 'a'] (some ['g', 'e', 't']) :=
      @RouteForm.method ['/', 'a'] [' '] ['g', 'e', 't']
        (by decide) (by decide) (by decide) (List.all_eq_true.1 (by decide))
    exact ((applyLine_stores_verbatim Workspace.empty operation _ _ _ session session).2.2
      hdirects).2 ⟨_, _, hform, rfl, rfl⟩

end Operation

end ApiDocs.Swagger
