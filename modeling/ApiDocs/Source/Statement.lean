/-
  ApiDocs.Source.Statement

  Statements: the stretches of trees between semicolons, where a line end counts as a
  semicolon if the token before it can end a statement. What brackets enclose belongs to
  the statement around them.
-/

import ApiDocs.Source.Tree

namespace ApiDocs.Source

/-- A line end after this token ends the statement. -/
def Code.endsStatement (code : Code) : Bool :=
  match code.kind with
  | .identifier | .number | .string | .rawString | .rune => true
  | .rightParen | .rightBracket | .rightBrace => true
  | .operator => code.text = "++" || code.text = "--"
  | _ => false

/-- A statement: its trees, of which there is at least one, and the token that follows it. -/
structure Statement where
  head : Tree
  tail : List Tree
  follow : Option Code

namespace Statement

/-- All trees of the statement. -/
def trees (s : Statement) : List Tree :=
  s.head :: s.tail

/-- The line of the first token behind the statement's head, in the statement or after
it; the first line of the text when there is none. -/
def lineAfterHead (s : Statement) : Nat :=
  match (s.tail.head?.map Tree.first).or s.follow with
  | some code => code.line
  | none => 1

/-- The tree that follows `t` belongs to the same statement. -/
def joins (t : Tree) : Option Tree → Bool
  | none => false
  | some next => !next.isLeaf .semicolon && !(next.first.newlineBefore && t.last.endsStatement)

/-- The statements of a list of trees. -/
def split : List Tree → List Statement
  | [] => []
  | t :: ts =>
    if t.isLeaf .semicolon then
      split ts
    else if joins t ts.head? then
      match split ts with
      | [] => [⟨t, [], none⟩]
      | s :: rest => { s with head := t, tail := s.trees } :: rest
    else
      ⟨t, [], ts.head?.map Tree.first⟩ :: split ts

/-- A statement is not larger than the trees it was taken from. -/
theorem sizeOf_of_mem_split {ts : List Tree} {s : Statement} (h : s ∈ split ts) :
    sizeOf s.trees ≤ sizeOf ts := by
  induction ts generalizing s with
  | nil => simp [split] at h
  | cons t ts ih =>
    rw [split] at h
    split at h
    · have := ih h
      simp only [List.cons.sizeOf_spec]
      omega
    · split at h
      · split at h
        · simp only [List.mem_singleton] at h
          subst h
          simp only [trees, List.cons.sizeOf_spec, List.nil.sizeOf_spec]
          cases ts with
          | nil => simp
          | cons _ _ =>
            simp only [List.cons.sizeOf_spec]
            omega
        · next s' rest hs =>
          rw [hs] at ih
          rcases List.mem_cons.1 h with rfl | hr
          · have := ih List.mem_cons_self
            simp only [trees, List.cons.sizeOf_spec] at this ⊢
            omega
          · have := ih (List.mem_cons_of_mem _ hr)
            simp only [List.cons.sizeOf_spec]
            omega
      · rcases List.mem_cons.1 h with rfl | hr
        · simp only [trees, List.cons.sizeOf_spec, List.nil.sizeOf_spec]
          cases ts with
          | nil => simp
          | cons _ _ =>
            simp only [List.cons.sizeOf_spec]
            omega
        · have := ih hr
          simp only [List.cons.sizeOf_spec]
          omega

end Statement
end ApiDocs.Source
