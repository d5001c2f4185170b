/-
  ApiDocs.Text.Basic

  Cutting texts up: trimming, splitting at a character, lines, the first occurrence of
  a pattern, and replacing a pair of characters. A text is a list of characters here.

  Main statements: splitting loses nothing (`intercalate_splitOn`), and what precedes and
  follows a cut is what was there (`append_of_splitFirst`).
-/

import ApiDocs.Text.Blank

namespace ApiDocs.Text

/-! ## Trimming -/

/-- The text without its leading white space. -/
def trimStart (cs : List Char) : List Char :=
  cs.dropWhile isBlank

/-- The text without its trailing white space. -/
def trimEnd (cs : List Char) : List Char :=
  (cs.reverse.dropWhile isBlank).reverse

/-- The text without the white space at both ends. -/
def trim (cs : List Char) : List Char :=
  trimEnd (trimStart cs)

/-- A string without the white space at both ends. -/
def trimmed (s : String) : String :=
  String.ofList (trim s.toList)

/-- ASCII letters in lower case, every other character unchanged. -/
def lowered (s : String) : String :=
  String.ofList (s.toList.map Char.toLower)

/-- ASCII letters in upper case, every other character unchanged. -/
def raised (s : String) : String :=
  String.ofList (s.toList.map Char.toUpper)

/-! ## Splitting -/

/-- The pieces of a text between the occurrences of `sep`. There is always one. -/
def splitOn (sep : Char) : List Char → List (List Char)
  | [] => [[]]
  | c :: cs =>
    if c = sep then
      [] :: splitOn sep cs
    else
      match splitOn sep cs with
      | [] => [[c]]
      | piece :: rest => (c :: piece) :: rest

theorem splitOn_ne_nil (sep : Char) (cs : List Char) : splitOn sep cs ≠ [] := by
  cases cs with
  | nil => simp [splitOn]
  | cons c cs =>
    rw [splitOn]
    split
    · simp
    · split <;> simp

/-- Joining the pieces with the separator gives the text back. -/
theorem intercalate_splitOn (sep : Char) (cs : List Char) :
    [sep].intercalate (splitOn sep cs) = cs := by
  induction cs with
  | nil => rfl
  | cons c cs ih =>
    rw [splitOn]
    split
    · next h =>
      cases hs : splitOn sep cs with
      | nil => exact absurd hs (splitOn_ne_nil sep cs)
      | cons piece rest =>
        rw [hs] at ih
        simp [List.intercalate, List.intersperse, h] at ih ⊢
        exact ih
    · cases hs : splitOn sep cs with
      | nil => exact absurd hs (splitOn_ne_nil sep cs)
      | cons piece rest =>
        rw [hs] at ih
        cases rest <;> simp [List.intercalate, List.intersperse] at ih ⊢ <;> exact ih

/-- The strings between the occurrences of `sep`. -/
def pieces (sep : Char) (s : String) : List String :=
  (splitOn sep s.toList).map String.ofList

/-- What stands before and after the first character that satisfies `p`. -/
def splitFirst (p : Char → Bool) : List Char → Option (List Char × List Char)
  | [] => none
  | c :: cs =>
    if p c then some ([], cs) else (splitFirst p cs).map fun (before, after) => (c :: before, after)

theorem append_of_splitFirst {p : Char → Bool} {cs before after : List Char}
    (h : splitFirst p cs = some (before, after)) :
    ∃ c, p c = true ∧ cs = before ++ c :: after := by
  induction cs generalizing before with
  | nil => simp [splitFirst] at h
  | cons c cs ih =>
    rw [splitFirst] at h
    split at h
    · next hp =>
      simp only [Option.some.injEq, Prod.mk.injEq] at h
      exact ⟨c, hp, by simp [← h.1, ← h.2]⟩
    · obtain ⟨⟨b, a⟩, hs, he⟩ := Option.map_eq_some_iff.1 h
      simp only [Prod.mk.injEq] at he
      obtain ⟨rfl, rfl⟩ := he
      obtain ⟨d, hd, hcs⟩ := ih hs
      exact ⟨d, hd, by simp [hcs]⟩

/-- The lines of a text: each ends at a line feed, which is dropped together with one
carriage return before it. What follows the last line feed is a line unless it is empty. -/
def lines (cs : List Char) : List (List Char) :=
  let parts := splitOn '\n' cs
  let last := parts.getLastD []
  parts.dropLast.map dropReturn ++ (if last.isEmpty then [] else [last])
where
  /-- The line without a final carriage return. -/
  dropReturn (line : List Char) : List Char :=
    if line.getLast? = some '\r' then line.dropLast else line

/-! ## Patterns -/

/-- The part of a text that begins at the first occurrence of `pattern`. -/
def suffixFrom? (pattern : List Char) : List Char → Option (List Char)
  | [] => if pattern.isEmpty then some [] else none
  | c :: cs => if pattern.isPrefixOf (c :: cs) then some (c :: cs) else suffixFrom? pattern cs

/-- Replaces each occurrence of the pair `a b`, from left to right. -/
def replacePair (a b : Char) (replacement : List Char) : List Char → List Char
  | x :: y :: rest =>
    if x = a ∧ y = b then
      replacement ++ replacePair a b replacement rest
    else
      x :: replacePair a b replacement (y :: rest)
  | short => short

/-- The text without a leading `marker`, or unchanged when it has none. -/
def dropLeading (marker cs : List Char) : List Char :=
  (marker.isPrefixOf? cs).getD cs

/-- The text without a trailing `marker`, or unchanged when it has none. -/
def dropTrailing (marker cs : List Char) : List Char :=
  (marker.isSuffixOf? cs).getD cs

end ApiDocs.Text
