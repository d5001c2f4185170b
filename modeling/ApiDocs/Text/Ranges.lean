/-
  ApiDocs.Text.Ranges

  Sets of characters given as ascending intervals of code points. The character
  classes of this library (letters, numerals, blanks, …) are tables of this form.

  Main statement: a character is in the set exactly if one of the intervals holds its code
  point (`Ranges.contains_iff`), although the search does not look at all of them.
-/

namespace ApiDocs.Text

/-- The intervals are not empty, and each starts behind the one before it; the first one starts
at `least` or later. -/
def isAscending (least : Nat) : List (Nat × Nat) → Bool
  | [] => true
  | (lo, hi) :: rest => least ≤ lo && lo ≤ hi && isAscending (hi + 1) rest

theorem isAscending_cons {least lo hi : Nat} {rest : List (Nat × Nat)} :
    isAscending least ((lo, hi) :: rest) = true ↔
      least ≤ lo ∧ lo ≤ hi ∧ isAscending (hi + 1) rest = true := by
  simp [isAscending, and_assoc]

/-- A set of code points: closed intervals, in ascending order. -/
structure Ranges where
  intervals : List (Nat × Nat)
  ascending : isAscending 0 intervals = true

namespace Ranges

/-- Membership in ascending intervals; the search ends at the first interval above `n`. -/
def within (n : Nat) : List (Nat × Nat) → Bool
  | [] => false
  | (lo, hi) :: rest => if n < lo then false else n ≤ hi || within n rest

/-- The character's code point lies in one of the intervals. -/
def contains (r : Ranges) (c : Char) : Bool :=
  within c.toNat r.intervals

/-- No interval holds a number below all of them. -/
theorem least_le {least : Nat} {intervals : List (Nat × Nat)} (h : isAscending least intervals = true) :
    ∀ interval ∈ intervals, least ≤ interval.1 := by
  induction intervals generalizing least with
  | nil => simp
  | cons first rest ih =>
    obtain ⟨lo, hi⟩ := first
    obtain ⟨hlo, hhi, hrest⟩ := isAscending_cons.1 h
    refine List.forall_mem_cons.2 ⟨hlo, fun interval hmem => ?_⟩
    have hbehind := ih hrest interval hmem
    omega

theorem within_iff {n least : Nat} {intervals : List (Nat × Nat)}
    (h : isAscending least intervals = true) :
    within n intervals = true ↔ ∃ interval ∈ intervals, interval.1 ≤ n ∧ n ≤ interval.2 := by
  induction intervals generalizing least with
  | nil => simp [within]
  | cons first rest ih =>
    obtain ⟨lo, hi⟩ := first
    obtain ⟨-, hhi, hrest⟩ := isAscending_cons.1 h
    simp only [within, List.mem_cons, exists_eq_or_imp, ← ih hrest]
    split
    · -- below this interval, and so below all that follow
      rename_i hbelow
      have hnone : within n rest = false := by
        rw [← Bool.not_eq_true, ih hrest]
        rintro ⟨interval, hmem, hle, -⟩
        have hbehind := least_le hrest interval hmem
        omega
      simp [hnone, Nat.not_le.2 hbelow]
    · rename_i hlo
      simp [Nat.not_lt.1 hlo]

/-- The search finds the interval that holds the character, if there is one. -/
theorem contains_iff (r : Ranges) (c : Char) :
    r.contains c = true ↔ ∃ interval ∈ r.intervals, interval.1 ≤ c.toNat ∧ c.toNat ≤ interval.2 :=
  within_iff r.ascending

end Ranges
end ApiDocs.Text
