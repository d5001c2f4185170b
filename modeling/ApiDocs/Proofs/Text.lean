/-
  ApiDocs.Proofs.Text

  Cutting texts where a run of characters stops: what a run takes when something else follows
  it, and what splitting at a character leaves.
-/

import ApiDocs.Text.Basic
import Mathlib.Data.List.TakeWhile

namespace ApiDocs.Text

/-! ## Runs of characters -/

section Run

variable {p : Char → Bool} {run rest : List Char} (hrun : ∀ c ∈ run, p c = true)
  (hstop : ∀ c ∈ rest.head?, p c = false)
include hrun hstop

/-- A run takes all of its characters, and no more where something else follows. -/
theorem takeWhile_append_stop : (run ++ rest).takeWhile p = run := by
  rw [List.takeWhile_append_of_pos hrun]
  cases rest with
  | nil => simp
  | cons c rest => simp [hstop c rfl]

theorem dropWhile_append_stop : (run ++ rest).dropWhile p = rest := by
  rw [List.dropWhile_append_of_pos hrun]
  cases rest with
  | nil => rfl
  | cons c rest => simp [hstop c rfl]

end Run

/-- A text without a character is a run of others. -/
theorem ne_of_not_mem {x : Char} {cs : List Char} (h : x ∉ cs) : ∀ c ∈ cs, decide (c ≠ x) = true := by
  intro c hc
  rw [decide_eq_true_eq]
  rintro rfl
  exact h hc

/-- What follows a run does not go on with it. -/
theorem head?_dropWhile_stop (p : Char → Bool) (cs : List Char) {c : Char}
    (h : c ∈ (cs.dropWhile p).head?) : p c = false := by
  have hhead := List.head?_dropWhile_not p cs
  rw [h] at hhead
  simpa using hhead

/-! ## Splitting and trimming -/

/-- Splitting at the first character with a property. -/
theorem splitFirst_eq (p : Char → Bool) (cs : List Char) :
    splitFirst p cs =
      (cs.dropWhile fun c => !p c).tail?.map fun after => (cs.takeWhile fun c => !p c, after) := by
  induction cs with
  | nil => rfl
  | cons c cs ih =>
    rw [splitFirst]
    cases hp : p c with
    | true => simp [hp]
    | false =>
      rw [if_neg (by simp), ih]
      simp [hp, Function.comp_def]

/-- The cut is at a character with the property, and none before it has it. -/
theorem splitFirst_eq_some_iff {p : Char → Bool} {cs before after : List Char} :
    splitFirst p cs = some (before, after) ↔
      ∃ c, p c = true ∧ (∀ b ∈ before, p b = false) ∧ cs = before ++ c :: after := by
  constructor
  · intro h
    obtain ⟨c, hc, hcs⟩ := append_of_splitFirst h
    refine ⟨c, hc, fun b hb => ?_, hcs⟩
    rw [splitFirst_eq] at h
    obtain ⟨_, -, hcut⟩ := Option.map_eq_some_iff.1 h
    obtain rfl := (Prod.mk.inj hcut).1
    simpa using List.mem_takeWhile_imp hb
  · rintro ⟨c, hc, hbefore, rfl⟩
    have hrun : ∀ b ∈ before, (!p b) = true := fun b hb => by simp [hbefore b hb]
    have hstop : ∀ b ∈ (c :: after).head?, (!p b) = false := by simp [hc]
    rw [splitFirst_eq, takeWhile_append_stop hrun hstop, dropWhile_append_stop hrun hstop]
    rfl

/-- A text without separators is its only piece. -/
theorem splitOn_of_not_mem {sep : Char} {cs : List Char} (h : sep ∉ cs) : splitOn sep cs = [cs] := by
  induction cs with
  | nil => rfl
  | cons c cs ih =>
    rw [List.mem_cons, not_or] at h
    rw [splitOn, if_neg (Ne.symm h.1), ih h.2]

/-- Behind the last separator stands the last piece. -/
theorem splitOn_append_sep {sep : Char} {last : List Char} (h : sep ∉ last) (front : List Char) :
    splitOn sep (front ++ sep :: last) = splitOn sep front ++ [last] := by
  induction front with
  | nil =>
    show (if sep = sep then [] :: splitOn sep last else _) = _
    rw [if_pos rfl, splitOn_of_not_mem h]
    rfl
  | cons c front ih =>
    rw [List.cons_append, splitOn, splitOn, ih]
    split
    · rfl
    · cases hs : splitOn sep front with
      | nil => exact absurd hs (splitOn_ne_nil sep front)
      | cons piece rest => rfl

/-- Before the first separator stands the first piece. -/
theorem splitOn_sep_append {sep : Char} {first : List Char} (h : sep ∉ first) (rest : List Char) :
    splitOn sep (first ++ sep :: rest) = first :: splitOn sep rest := by
  induction first with
  | nil =>
    show (if sep = sep then [] :: splitOn sep rest else _) = _
    rw [if_pos rfl]
  | cons c first ih =>
    rw [List.mem_cons, not_or] at h
    rw [List.cons_append, splitOn, if_neg (Ne.symm h.1), ih h.2]

/-- There is one piece more than there are separators. -/
theorem length_splitOn (sep : Char) (cs : List Char) :
    (splitOn sep cs).length = cs.count sep + 1 := by
  induction cs with
  | nil => rfl
  | cons c cs ih =>
    rw [splitOn, List.count_cons]
    by_cases hc : c = sep
    · rw [if_pos hc, List.length_cons, ih]
      simp [hc]
    · rw [if_neg hc]
      cases hs : splitOn sep cs with
      | nil => exact absurd hs (splitOn_ne_nil sep cs)
      | cons piece rest =>
        rw [hs] at ih
        simpa [hc] using ih

/-- Joining the pieces with another separator replaces the one by the other. -/
theorem intercalate_splitOn_eq_map (sep sep' : Char) (cs : List Char) :
    [sep'].intercalate (splitOn sep cs) = cs.map fun c => if c = sep then sep' else c := by
  induction cs with
  | nil => rfl
  | cons c cs ih =>
    rw [splitOn, List.map_cons, ← ih]
    cases hs : splitOn sep cs with
    | nil => exact absurd hs (splitOn_ne_nil sep cs)
    | cons piece rest =>
      by_cases hc : c = sep
      · rw [if_pos hc, if_pos hc]
        simp [List.intercalate, List.intersperse]
      · rw [if_neg hc, if_neg hc]
        cases rest <;> simp [List.intercalate, List.intersperse]

/-- No piece holds the character that was split at. -/
theorem not_mem_of_mem_splitOn {sep : Char} {cs piece : List Char} (h : piece ∈ splitOn sep cs) :
    sep ∉ piece := by
  induction cs generalizing piece with
  | nil =>
    obtain rfl : piece = [] := by simpa [splitOn] using h
    simp
  | cons c cs ih =>
    rw [splitOn] at h
    split at h
    · rcases List.mem_cons.1 h with rfl | h
      · simp
      · exact ih h
    · rename_i hc
      cases hs : splitOn sep cs with
      | nil => exact absurd hs (splitOn_ne_nil sep cs)
      | cons first rest =>
        rw [hs] at h ih
        rcases List.mem_cons.1 h with rfl | h
        · rw [List.mem_cons, not_or]
          exact ⟨Ne.symm hc, ih List.mem_cons_self⟩
        · exact ih (List.mem_cons_of_mem first h)

/-! ## Replacing pairs -/

section ReplacePair

variable {a b c : Char} {replacement cs : List Char}

/-- A character that starts no pair stays in front. -/
theorem replacePair_cons (h : c = a → b ∉ cs.head?) :
    replacePair a b replacement (c :: cs) = c :: replacePair a b replacement cs := by
  cases cs with
  | nil => rfl
  | cons d cs =>
    rw [replacePair, if_neg]
    rintro ⟨hc, rfl⟩
    exact h hc rfl

theorem replacePair_cons_of_ne (h : c ≠ a) :
    replacePair a b replacement (c :: cs) = c :: replacePair a b replacement cs :=
  replacePair_cons fun hc => absurd hc h

theorem replacePair_pair :
    replacePair a b replacement (a :: b :: cs) = replacement ++ replacePair a b replacement cs := by
  rw [replacePair, if_pos ⟨rfl, rfl⟩]

theorem mem_or_mem_of_mem_replacePair (h : c ∈ replacePair a b replacement cs) :
    c ∈ replacement ∨ c ∈ cs := by
  fun_induction replacePair a b replacement cs with
  | case1 x y rest _ ih =>
    rcases List.mem_append.1 h with h | h
    · exact .inl h
    · exact (ih h).imp_right fun h => List.mem_cons_of_mem x (List.mem_cons_of_mem y h)
  | case2 x y rest _ ih =>
    rcases List.mem_cons.1 h with rfl | h
    · exact .inr List.mem_cons_self
    · exact (ih h).imp_right (List.mem_cons_of_mem x)
  | case3 => exact .inr h

/-- Where a character of the replacement does not occur, nothing has been replaced. -/
theorem replacePair_eq_self (hc : c ∈ replacement) (h : c ∉ replacePair a b replacement cs) :
    replacePair a b replacement cs = cs := by
  fun_induction replacePair a b replacement cs with
  | case1 x y rest _ ih => exact absurd (List.mem_append_left _ hc) h
  | case2 x y rest _ ih => rw [ih fun hmem => h (List.mem_cons_of_mem x hmem)]
  | case3 => rfl

end ReplacePair

/-! ## Trimming -/

theorem trim_cons_of_blank {c : Char} (h : isBlank c = true) (cs : List Char) :
    trim (c :: cs) = trim cs := by
  simp [trim, trimStart, h]

theorem trimEnd_prefix (cs : List Char) : trimEnd cs <+: cs := by
  have hsuffix := List.dropWhile_suffix isBlank (l := cs.reverse)
  rw [← List.reverse_prefix, List.reverse_reverse] at hsuffix
  exact hsuffix

/-- A trimmed text does not start with white space. -/
theorem head?_trim {cs : List Char} {c : Char} (h : c ∈ (trim cs).head?) : isBlank c = false := by
  obtain ⟨rest, hrest⟩ := trimEnd_prefix (trimStart cs)
  have hhead : c ∈ (trimStart cs).head? := by
    rw [trim] at h
    rw [← hrest, List.head?_append, Option.mem_def.1 h, Option.some_or]
    rfl
  exact head?_dropWhile_stop isBlank cs hhead

/-- A trimmed text does not end with white space. -/
theorem getLast?_trim {cs : List Char} {c : Char} (h : c ∈ (trim cs).getLast?) :
    isBlank c = false := by
  rw [trim, trimEnd, List.getLast?_reverse] at h
  exact head?_dropWhile_stop isBlank _ h

end ApiDocs.Text
