/-
  ApiDocs.Proofs.Source.Nesting

  Brackets counted and brackets nested. Counting gives each position a depth (`depthAt`); the
  statements of a stretch are found only where it is level, and make it up
  (`statementsFrom_partition`). Nesting gives trees, and a stretch may hold the tokens of some
  (`Spans`). Where it does, the bracket that closes another is found at the end of its tree
  (`matching_eq`), and the statements are those that the trees are split into
  (`statements_split`). So counting and nesting succeed on the same code (`Nested`).
-/

import ApiDocs.Proofs.Source.Names
import ApiDocs.Proofs.Source.Positions

namespace ApiDocs.Source

namespace TokenKind

variable {kind kind' : TokenKind}

theorem not_isOpening_of_isClosing (h : kind.isClosing = true) : kind.isOpening = false := by
  revert h
  cases kind <;> decide

theorem ne_of_isOpening (h : kind.isOpening = true) (h' : kind'.isOpening = false) : kind ≠ kind' := by
  rintro rfl
  rw [h] at h'
  cases h'

theorem ne_of_isClosing (h : kind.isClosing = true) (h' : kind'.isClosing = false) : kind ≠ kind' := by
  rintro rfl
  rw [h] at h'
  cases h'

end TokenKind

theorem Tree.eq_leaf_of_isLeaf {tree : Tree} {kind : TokenKind} (h : tree.isLeaf kind = true) :
    ∃ token, tree = .leaf token ∧ token.kind = kind := by
  cases tree with
  | leaf token => exact ⟨token, rfl, of_decide_eq_true h⟩
  | group => cases h

/-! ## Depth -/

/-- What a token adds to the depth of brackets. -/
def Code.weight (token : Code) : Int :=
  if token.kind.isOpening then 1 else if token.kind.isClosing then -1 else 0

/-- The depth of brackets at a position: those that have been opened, less those that have been
closed. -/
def depthAt (code : List Code) (k : Nat) : Int :=
  ((code.take k).map Code.weight).sum

theorem depthAt_zero (code : List Code) : depthAt code 0 = 0 := rfl

theorem depthAt_succ {code : List Code} {k : Nat} {token : Code} (h : code[k]? = some token) :
    depthAt code (k + 1) = depthAt code k + token.weight := by
  rw [depthAt, depthAt, List.take_add_one, h, Option.toList_some, List.map_append, List.sum_append]
  simp

namespace Code

variable {token : Code}

theorem weight_opening (h : token.kind.isOpening = true) : token.weight = 1 := by
  rw [weight, if_pos h]

theorem weight_closing (h : token.kind.isClosing = true) : token.weight = -1 := by
  rw [weight, if_neg (by simp [TokenKind.not_isOpening_of_isClosing h]), if_pos h]

theorem weight_other (hopening : token.kind.isOpening = false) (hclosing : token.kind.isClosing = false) :
    token.weight = 0 := by
  rw [weight, if_neg (by simp [hopening]), if_neg (by simp [hclosing])]

theorem weight_semicolon (h : token.kind = .semicolon) : token.weight = 0 :=
  weight_other (by rw [h]; rfl) (by rw [h]; rfl)

end Code

/-- Between two positions the depth does not fall below that of the first, and it ends there. -/
structure Level (code : List Code) (i stop : Nat) : Prop where
  above : ∀ k, i ≤ k → k ≤ stop → depthAt code i ≤ depthAt code k
  closed : depthAt code stop = depthAt code i

theorem Level.trans {code : List Code} {i j stop : Nat} (h : Level code i j) (h' : Level code j stop) :
    Level code i stop where
  above k hik hk := by
    rcases Nat.le_total k j with hkj | hjk
    · exact h.above k hik hkj
    · rw [← h.closed]
      exact h'.above k hjk hk
  closed := h'.closed.trans h.closed

namespace Positions

variable {code : List Code}

theorem depthBehind_eq_ok_iff {token : Code} {depth depth' : Nat} :
    depthBehind token depth = .ok depth' ↔ (depth' : Int) = depth + token.weight := by
  rw [depthBehind, Code.weight]
  split
  · rw [Except.ok.injEq]
    omega
  split
  · split
    · refine ⟨fun h => (by cases h), fun h => ?_⟩
      omega
    · rw [Except.ok.injEq]
      omega
  · rw [Except.ok.injEq]
    omega

theorem eq_zero_of_breaksAt {i stop depth : Nat} {token : Code}
    (h : breaksAt code i stop depth token = .ok true) : depth = 0 := by
  rw [breaksAt] at h
  split at h
  · assumption
  · cases h

/-- From one position to another the depth does not fall below `base`, where it ends, and no
semicolon stands at that depth. -/
structure Encloses (code : List Code) (base : Int) (i next : Nat) : Prop where
  le : i ≤ next
  above : ∀ k, i ≤ k → k ≤ next → base ≤ depthAt code k
  closed : depthAt code next = base
  semicolons : ∀ k token, i ≤ k → k < next → code[k]? = some token → token.kind = .semicolon →
    base < depthAt code k

theorem Encloses.here {base : Int} {i : Nat} (h : depthAt code i = base) : Encloses code base i i where
  le := Nat.le_refl i
  above k hk hk' := by
    rw [Nat.le_antisymm hk' hk, h]
  closed := h
  semicolons k _ hk hk' := absurd hk' (Nat.not_lt.2 hk)

theorem Encloses.cons {base : Int} {i next : Nat} (h : Encloses code base (i + 1) next)
    (habove : base ≤ depthAt code i)
    (hsemicolon : ∀ token, code[i]? = some token → token.kind = .semicolon → base < depthAt code i) :
    Encloses code base i next where
  le := Nat.le_of_succ_le h.le
  above k hk hk' := by
    rcases Nat.eq_or_lt_of_le hk with rfl | hlt
    · exact habove
    · exact h.above k hlt hk'
  closed := h.closed
  semicolons k token hk hk' htoken hkind := by
    rcases Nat.eq_or_lt_of_le hk with rfl | hlt
    · exact hsemicolon token htoken hkind
    · exact h.semicolons k token hlt hk' htoken hkind

/-- A statement whose start is `depth` brackets below position `i`. -/
theorem endFrom_encloses {start stop depth i : Nat} {hstart : start < stop}
    {hi : start ≤ i ∧ i ≤ stop} {next : End code start stop}
    (h : endFrom code start stop depth i hstart hi = .ok next) {base : Int}
    (hbase : depthAt code i = base + depth) : Encloses code base i next.1 := by
  induction hn : stop - i using Nat.strongRecOn generalizing depth i with
  | ind n ih =>
    subst hn
    rw [endFrom] at h
    split at h
    · rename_i hstop
      obtain ⟨token, -, h⟩ := except_bind_eq_ok_iff.1 h
      split at h
      · cases h
        exact .here (by omega)
      rename_i hnot
      obtain ⟨depth', hdepth, hrest⟩ := except_bind_eq_ok_iff.1 h
      obtain ⟨breaks, hbreaks, hrest⟩ := except_bind_eq_ok_iff.1 hrest
      have hbehind : depthAt code (i + 1) = base + depth' := by
        rw [depthAt_succ token.2, hbase, depthBehind_eq_ok_iff.1 hdepth, Int.add_assoc]
      have hencloses : Encloses code base (i + 1) next.1 := by
        cases breaks with
        | true =>
          have hzero := eq_zero_of_breaksAt hbreaks
          cases hrest
          exact .here (by omega)
        | false => exact ih (stop - (i + 1)) (by omega) hrest hbehind rfl
      refine hencloses.cons (by omega) fun other hother hkind => ?_
      -- a semicolon at `i` is inside of brackets
      obtain rfl : token.1 = other := Option.some.inj (token.2.symm.trans hother)
      have hpos : depth ≠ 0 := fun hzero => hnot ⟨hkind, hzero⟩
      omega
    · obtain rfl : i = stop := by omega
      split at h
      · cases h
        exact .here (by omega)
      · obtain ⟨token, -, h⟩ := except_bind_eq_ok_iff.1 h
        cases h

/-- The statements of a stretch, from `i` on: they stand one after the other, each of them level,
and hold all tokens but the semicolons at the depth of the stretch. -/
structure Partition (code : List Code) (i stop : Nat) {start : Nat}
    (ranges : List (Range start stop)) : Prop where
  level : Level code i stop
  ordered : ranges.Pairwise fun range later => range.last ≤ later.first
  balanced : ∀ range ∈ ranges, i ≤ range.first ∧ depthAt code range.first = depthAt code i ∧
    Level code range.first range.last
  covers : ∀ k token, i ≤ k → k < stop → code[k]? = some token →
    ((∃ range ∈ ranges, range.first ≤ k ∧ k < range.last) ↔
      ¬ (token.kind = .semicolon ∧ depthAt code k = depthAt code i))

theorem Encloses.level {i next : Nat} (h : Encloses code (depthAt code i) i next) :
    Level code i next :=
  ⟨h.above, h.closed⟩

/-- A semicolon before statements. -/
theorem Partition.semicolon {start stop i : Nat} {ranges : List (Range start stop)} {token : Code}
    (htoken : code[i]? = some token) (hkind : token.kind = .semicolon)
    (h : Partition code (i + 1) stop ranges) : Partition code i stop ranges := by
  have hsame : depthAt code (i + 1) = depthAt code i := by
    rw [depthAt_succ htoken, Code.weight_semicolon hkind, Int.add_zero]
  have hone : Level code i (i + 1) := by
    refine ⟨fun k hk hk' => ?_, hsame⟩
    rcases Nat.eq_or_lt_of_le hk with rfl | hlt
    · exact Int.le_refl _
    · rw [Nat.le_antisymm hk' hlt, hsame]
  refine ⟨hone.trans h.level, h.ordered, fun range hrange => ?_, fun k other hk hk' hother => ?_⟩
  · obtain ⟨hle, hdepth, hlevel⟩ := h.balanced range hrange
    exact ⟨Nat.le_of_succ_le hle, hdepth.trans hsame, hlevel⟩
  · rcases Nat.eq_or_lt_of_le hk with rfl | hlt
    · obtain rfl : token = other := Option.some.inj (htoken.symm.trans hother)
      refine ⟨?_, fun hnot => absurd ⟨hkind, rfl⟩ hnot⟩
      rintro ⟨range, hrange, hfirst, -⟩
      have hle := (h.balanced range hrange).1
      omega
    · rw [← hsame]
      exact h.covers k other hlt hk' hother

/-- A statement before others. -/
theorem Partition.cons {start stop : Nat} (range : Range start stop) {ranges : List (Range start stop)}
    (hrange : Encloses code (depthAt code range.first) range.first range.last)
    (h : Partition code range.last stop ranges) : Partition code range.first stop (range :: ranges) := by
  have hsame : depthAt code range.last = depthAt code range.first := hrange.closed
  refine ⟨hrange.level.trans h.level, List.pairwise_cons.2 ⟨?_, h.ordered⟩,
    List.forall_mem_cons.2 ⟨⟨Nat.le_refl _, rfl, hrange.level⟩, fun later hlater => ?_⟩,
    fun k token hk hk' htoken => ?_⟩
  · exact fun later hlater => (h.balanced later hlater).1
  · obtain ⟨hle, hdepth, hlevel⟩ := h.balanced later hlater
    exact ⟨Nat.le_trans range.first_lt.le hle, hdepth.trans hsame, hlevel⟩
  · rcases Nat.lt_or_ge k range.last with hlt | hge
    · refine ⟨fun _ hboth => ?_, fun _ => ⟨range, List.mem_cons_self, hk, hlt⟩⟩
      have habove := hrange.semicolons k token hk hlt htoken hboth.1
      omega
    · rw [← hsame, ← h.covers k token hge hk' htoken]
      constructor
      · rintro ⟨other, hother, hfirst, hlast⟩
        rcases List.mem_cons.1 hother with rfl | hother
        · omega
        · exact ⟨other, hother, hfirst, hlast⟩
      · rintro ⟨other, hother, hwithin⟩
        exact ⟨other, List.mem_cons_of_mem range hother, hwithin⟩

/-- **Statements are found only in a level stretch, and they make it up.** -/
theorem statementsFrom_partition {start stop i : Nat} {hstart : start ≤ i}
    {ranges : List (Range start stop)} (hi : i ≤ stop)
    (h : statementsFrom code start stop i hstart = .ok ranges) : Partition code i stop ranges := by
  induction hn : stop - i using Nat.strongRecOn generalizing i ranges with
  | ind n ih =>
    subst hn
    rw [statementsFrom] at h
    split at h
    · rename_i hlt
      obtain ⟨token, -, h⟩ := except_bind_eq_ok_iff.1 h
      split at h
      · rename_i hsemicolon
        exact .semicolon token.2 hsemicolon (ih (stop - (i + 1)) (by omega) hlt h rfl)
      · rename_i hsemicolon
        obtain ⟨next, hnext, h⟩ := except_bind_eq_ok_iff.1 h
        obtain ⟨rest, hrest, h⟩ := except_bind_eq_ok_iff.1 h
        have hencloses : Encloses code (depthAt code i) i next.1 :=
          endFrom_encloses hnext (by simp)
        have hnext := next.lt token.2 hsemicolon
        have hpartition := ih (stop - next.1) (by omega) next.2.2.1 hrest rfl
        cases h
        exact .cons ⟨i, next.1, hstart, hnext, next.2.2.1⟩ hencloses hpartition
    · cases h
      obtain rfl : i = stop := by omega
      refine ⟨⟨fun k hk hk' => ?_, rfl⟩, .nil, by simp, fun k _ hk hk' => ?_⟩
      · rw [Nat.le_antisymm hk' hk]
      · exact absurd hk' (Nat.not_lt.2 hk)

end Positions

/-! ## Trees in a stretch -/

/-- The stretch holds the tokens of these trees. -/
structure Spans (code : List Code) (i stop : Nat) (trees : List Tree) : Prop where
  balanced : ∀ tree ∈ trees, tree.Balanced
  within : stop ≤ code.length
  length : stop = i + (Tree.listCodes trees).length
  tokens : ∀ k token, (Tree.listCodes trees)[k]? = some token → code[i + k]? = some token

/-- A pair of brackets, with trees inside it and behind it. -/
structure Pairs (code : List Code) (i close stop : Nat) (opening closing : Code)
    (body trees : List Tree) : Prop where
  lt : i < close
  close_lt : close < stop
  first : code[i]? = some opening
  last : code[close]? = some closing
  opens : opening.kind.isOpening = true
  closes : closing.kind.isClosing = true
  inside : Spans code (i + 1) close body
  behind : Spans code (close + 1) stop trees

namespace Pairs

variable {code : List Code} {i close stop : Nat} {opening closing : Code} {body trees : List Tree}
  (h : Pairs code i close stop opening closing body trees)
include h

theorem opening_ne {kind : TokenKind} (hkind : kind.isOpening = false) : opening.kind ≠ kind :=
  TokenKind.ne_of_isOpening h.opens hkind

theorem closing_ne {kind : TokenKind} (hkind : kind.isClosing = false) : closing.kind ≠ kind :=
  TokenKind.ne_of_isClosing h.closes hkind

theorem weight_opening : opening.weight = 1 :=
  Code.weight_opening h.opens

theorem weight_closing : closing.weight = -1 :=
  Code.weight_closing h.closes

end Pairs

namespace Spans

variable {code : List Code} {i j stop : Nat} {trees trees' : List Tree}

theorem le (h : Spans code i stop trees) : i ≤ stop := by
  rw [h.length]
  exact Nat.le_add_right i _

theorem eq_of_nil (h : Spans code i stop []) : i = stop := by
  rw [h.length]
  rfl

theorem nil (h : i ≤ code.length) : Spans code i i [] :=
  ⟨by simp, h, rfl, fun k token hk => by cases hk⟩

theorem append_inv (h : Spans code i stop (trees ++ trees')) :
    ∃ j, Spans code i j trees ∧ Spans code j stop trees' := by
  obtain ⟨hbalanced, hwithin, hlength, htokens⟩ := h
  rw [Tree.listCodes_append] at hlength htokens
  rw [List.length_append] at hlength
  obtain ⟨hfront, hback⟩ := List.forall_mem_append.1 hbalanced
  refine ⟨i + (Tree.listCodes trees).length, ⟨hfront, by omega, rfl, fun k token hk => ?_⟩,
    ⟨hback, hwithin, by omega, fun k token hk => ?_⟩⟩
  · refine htokens k token ?_
    rwa [List.getElem?_append_left (List.getElem?_eq_some_iff.1 hk).1]
  · rw [Nat.add_assoc]
    refine htokens _ token ?_
    rwa [List.getElem?_append_right (Nat.le_add_right _ k), Nat.add_sub_cancel_left]

theorem append (h : Spans code i j trees) (h' : Spans code j stop trees') :
    Spans code i stop (trees ++ trees') := by
  have hlength := h.length
  have hlength' := h'.length
  refine ⟨List.forall_mem_append.2 ⟨h.balanced, h'.balanced⟩, h'.within, ?_, fun k token hk => ?_⟩
  · rw [Tree.listCodes_append, List.length_append]
    omega
  · rw [Tree.listCodes_append] at hk
    rcases Nat.lt_or_ge k (Tree.listCodes trees).length with hlt | hge
    · rw [List.getElem?_append_left hlt] at hk
      exact h.tokens k token hk
    · rw [List.getElem?_append_right hge] at hk
      have htoken := h'.tokens _ token hk
      rwa [show j + (k - (Tree.listCodes trees).length) = i + k by omega] at htoken

theorem uncons {tree : Tree} (h : Spans code i stop (tree :: trees)) :
    ∃ j, Spans code i j [tree] ∧ Spans code j stop trees := by
  rw [← List.singleton_append] at h
  exact h.append_inv

/-- A token that is no bracket at the start of a stretch. -/
theorem leaf {token : Code} (h : Spans code i stop (.leaf token :: trees)) :
    i < stop ∧ code[i]? = some token ∧ Spans code (i + 1) stop trees := by
  obtain ⟨j, hone, hrest⟩ := h.uncons
  obtain rfl : j = i + 1 := hone.length
  exact ⟨hrest.le, hone.tokens 0 token rfl, hrest⟩

theorem leaf_not_bracket {token : Code} (h : Spans code i stop (.leaf token :: trees)) :
    token.kind.isOpening = false ∧ token.kind.isClosing = false := by
  cases h.balanced _ List.mem_cons_self with
  | leaf hopening hclosing => exact ⟨hopening, hclosing⟩

theorem leaf_ne {token : Code} (h : Spans code i stop (.leaf token :: trees)) {kind : TokenKind}
    (hkind : kind.isOpening = true) : token.kind ≠ kind :=
  (TokenKind.ne_of_isOpening hkind h.leaf_not_bracket.1).symm

theorem weight_leaf {token : Code} (h : Spans code i stop (.leaf token :: trees)) :
    token.weight = 0 :=
  Code.weight_other h.leaf_not_bracket.1 h.leaf_not_bracket.2

/-- A pair of brackets at the start of a stretch. -/
theorem group {opening closing : Code} {body : List Tree}
    (h : Spans code i stop (.group opening body closing :: trees)) :
    ∃ close, Pairs code i close stop opening closing body trees := by
  obtain ⟨j, hone, hrest⟩ := h.uncons
  have hcodes : Tree.listCodes [.group opening body closing] =
      opening :: (Tree.listCodes body ++ [closing]) := by
    simp [Tree.listCodes, Tree.codes]
  obtain ⟨hbalanced, hwithin, hlength, htokens⟩ := hone
  rw [hcodes] at hlength htokens
  simp only [List.length_cons, List.length_append, List.length_nil] at hlength
  have hle := hrest.le
  have hstop := hrest.within
  cases hbalanced _ (List.mem_singleton_self _) with
  | group hopening hclosing hbody =>
    have hlast : code[i + (1 + (Tree.listCodes body).length)]? = some closing := by
      refine htokens _ closing ?_
      rw [Nat.add_comm 1, List.getElem?_cons_succ, List.getElem?_concat_length]
    rw [← Nat.add_assoc] at hlast
    refine ⟨i + 1 + (Tree.listCodes body).length, by omega, by omega, htokens 0 opening rfl, hlast,
      hopening, hclosing, ⟨hbody, by omega, rfl, fun k token hk => ?_⟩, ?_⟩
    · rw [Nat.add_assoc, Nat.add_comm 1]
      refine htokens _ token ?_
      rwa [List.getElem?_cons_succ,
        List.getElem?_append_left (List.getElem?_eq_some_iff.1 hk).1]
    · rwa [show i + 1 + (Tree.listCodes body).length + 1 = j by omega]

/-- The token that a stretch starts with. -/
theorem first {tree : Tree} (h : Spans code i stop (tree :: trees)) :
    i < stop ∧ code[i]? = some tree.first := by
  cases tree with
  | leaf token => exact ⟨h.leaf.1, h.leaf.2.1⟩
  | group opening body closing =>
    obtain ⟨close, hpairs⟩ := h.group
    exact ⟨Nat.lt_trans hpairs.lt hpairs.close_lt, hpairs.first⟩

theorem eq_nil_iff (h : Spans code i stop trees) : trees = [] ↔ stop = i := by
  constructor
  · rintro rfl
    exact h.eq_of_nil.symm
  · intro hstop
    cases trees with
    | nil => rfl
    | cons tree trees =>
      have hlt := h.first.1
      omega

theorem first_ne_semicolon {tree : Tree} (h : Spans code i stop (tree :: trees))
    (hsemicolon : tree.isLeaf .semicolon = false) : tree.first.kind ≠ .semicolon := by
  cases tree with
  | leaf token => simpa [Tree.isLeaf, Tree.first] using hsemicolon
  | group opening body closing =>
    obtain ⟨close, hpairs⟩ := h.group
    exact hpairs.opening_ne rfl

theorem first? (h : Spans code i stop trees) :
    trees.head?.map Tree.first = if i < stop then code[i]? else none := by
  cases trees with
  | nil =>
    rw [h.eq_of_nil, if_neg (Nat.lt_irrefl stop)]
    rfl
  | cons tree trees =>
    obtain ⟨hlt, htoken⟩ := h.first
    rw [if_pos hlt, htoken]
    rfl

/-- Code starts with the tokens of balanced trees. -/
theorem front (hbalanced : ∀ tree ∈ trees, tree.Balanced) (rest : List Code) :
    Spans (Tree.listCodes trees ++ rest) 0 (Tree.listCodes trees).length trees where
  balanced := hbalanced
  within := by
    rw [List.length_append]
    exact Nat.le_add_right _ _
  length := (Nat.zero_add _).symm
  tokens k token hk := by
    rw [Nat.zero_add, List.getElem?_append_left (List.getElem?_eq_some_iff.1 hk).1, hk]

/-- What carries over each token inside of brackets carries over balanced trees there. -/
theorem pass {P : Nat → Nat → Prop} {depth : Nat} (h : Spans code i j trees)
    (hstep : ∀ (k : Nat) (token : Code) (depth depth' : Nat), i ≤ k → k < j →
      code[k]? = some token → 0 < depth → 0 < depth' → (depth' : Int) = depth + token.weight →
      P depth' (k + 1) → P depth k)
    (hdepth : 0 < depth) (hend : P depth j) : P depth i := by
  induction hn : sizeOf trees using Nat.strongRecOn generalizing i j trees depth with
  | ind n ih =>
    subst hn
    cases trees with
    | nil => rwa [h.eq_of_nil]
    | cons tree trees =>
      cases tree with
      | leaf token =>
        obtain ⟨hlt, htoken, hrest⟩ := h.leaf
        have hweight := h.weight_leaf
        refine hstep i token depth depth (Nat.le_refl i) hlt htoken hdepth hdepth (by omega) ?_
        exact ih (sizeOf trees) (by simp) hrest
          (fun k token depth depth' hk => hstep k token depth depth' (by omega)) hdepth hend rfl
      | group opening body closing =>
        obtain ⟨close, hpairs⟩ := h.group
        have hlt := hpairs.lt
        have hclose := hpairs.close_lt
        have hrest : P depth (close + 1) :=
          ih (sizeOf trees) (by simp) hpairs.behind
            (fun k token depth depth' hk => hstep k token depth depth' (by omega)) hdepth hend rfl
        have hlast : P (depth + 1) close :=
          hstep close closing (depth + 1) depth (by omega) hclose hpairs.last (by omega) hdepth
            (by rw [hpairs.weight_closing]; omega) hrest
        have hbody : P (depth + 1) (i + 1) :=
          ih (sizeOf body) (by simp; omega) hpairs.inside
            (fun k token depth depth' hk hk' => hstep k token depth depth' (by omega) (by omega))
            (by omega) hlast rfl
        exact hstep i opening depth (depth + 1) (Nat.le_refl i) (by omega) hpairs.first hdepth
          (by omega) (by rw [hpairs.weight_opening]; omega) hbody

end Spans

/-! ## Counting in trees -/

namespace Positions

variable {code : List Code} {start stop i : Nat} {token : Code}

theorem tokenAt_eq (h : code[i]? = some token) : tokenAt code i = .ok ⟨token, h⟩ := by
  obtain ⟨hlt, rfl⟩ := List.getElem?_eq_some_iff.1 h
  rw [tokenAt, dif_pos hlt]

theorem tokenBefore?_of_lt (h : code[i]? = some token) (hi : i < stop) :
    tokenBefore? code i stop = .ok (some token) := by
  rw [tokenBefore?, if_pos hi, tokenAt_eq h]
  rfl

theorem tokenBefore?_of_le (h : stop ≤ i) : tokenBefore? code i stop = .ok none :=
  if_neg (Nat.not_lt.2 h)

/-- Counting goes on behind a token that does not close the last open bracket. -/
theorem closingFrom_step {depth depth' : Nat} {h : start ≤ i} (htoken : code[i]? = some token)
    (hi : i < stop) (hdepth' : 0 < depth') (hweight : (depth' : Int) = depth + token.weight) :
    closingFrom code start stop depth i h =
      closingFrom code start stop depth' (i + 1) (Nat.le_succ_of_le h) := by
  rw [closingFrom, dif_pos hi, tokenAt_eq htoken, except_ok_bind]
  rw [Code.weight] at hweight
  split
  · rename_i hopening
    rw [if_pos hopening] at hweight
    congr 1
    omega
  rename_i hopening
  rw [if_neg hopening] at hweight
  split
  · rename_i hclosing
    rw [if_pos hclosing] at hweight
    rw [if_neg (by omega)]
    congr 1
    omega
  · rename_i hclosing
    rw [if_neg hclosing] at hweight
    congr 1
    omega

/-- The closing bracket is found at the end of the pair. -/
theorem matching_eq {close : Nat} {opening closing : Code} {body trees : List Tree}
    (h : Pairs code i close stop opening closing body trees) :
    matching code i stop = .ok ⟨close, h.lt.le, h.close_lt⟩ := by
  have hlt := h.lt
  have hclose := h.close_lt
  have hlast : closingFrom code i stop 1 close hlt.le = .ok (some ⟨close, hlt.le, hclose⟩) := by
    rw [closingFrom, dif_pos hclose, tokenAt_eq h.last, except_ok_bind,
      if_neg (by simp [TokenKind.not_isOpening_of_isClosing h.closes]), if_pos h.closes]
    rfl
  -- one bracket is open all the way from the opening bracket to the closing one
  have hinside : ∀ hi, closingFrom code i stop 1 (i + 1) hi = .ok (some ⟨close, hlt.le, hclose⟩) := by
    refine h.inside.pass (P := fun depth k => ∀ hk, closingFrom code i stop depth k hk = _) ?_
      Nat.one_pos fun _ => hlast
    intro k token depth depth' _ hk htoken _ hdepth' hweight ih hi
    rw [closingFrom_step htoken (by omega) hdepth' hweight, ih]
  rw [matching, closingFrom_step h.first (by omega) Nat.one_pos (by rw [h.weight_opening]; rfl),
    hinside]
  rfl

/-- Within brackets a statement goes on. -/
theorem endFrom_step {depth depth' : Nat} {hstart : start < stop} {hi : start ≤ i ∧ i ≤ stop}
    (htoken : code[i]? = some token) (hlt : i < stop) (hdepth' : 0 < depth')
    (hweight : (depth' : Int) = depth + token.weight) :
    endFrom code start stop depth i hstart hi =
      endFrom code start stop depth' (i + 1) hstart ⟨Nat.le_succ_of_le hi.1, hlt⟩ := by
  have hsemicolon : ¬ (token.kind = .semicolon ∧ depth = 0) := by
    rintro ⟨hkind, rfl⟩
    rw [Code.weight_semicolon hkind] at hweight
    omega
  have hbreaks : breaksAt code (i + 1) stop depth' token = .ok false :=
    if_neg (by omega)
  rw [endFrom, dif_pos hlt, tokenAt_eq htoken, except_ok_bind, dif_neg hsemicolon,
    depthBehind_eq_ok_iff.2 hweight, except_ok_bind, hbreaks, except_ok_bind]
  rfl

/-- Behind a token that no bracket is open behind, a statement goes on unless it breaks there. -/
theorem endFrom_level {depth : Nat} {breaks : Bool} {hstart : start < stop}
    {hi : start ≤ i ∧ i ≤ stop} (htoken : code[i]? = some token) (hlt : i < stop)
    (hsemicolon : ¬ (token.kind = .semicolon ∧ depth = 0)) (hweight : 0 = depth + token.weight)
    (hbreaks : breaksAt code (i + 1) stop 0 token = .ok breaks) :
    endFrom code start stop depth i hstart hi =
      if breaks then .ok ⟨i + 1, by omega, hlt, by omega⟩
      else endFrom code start stop 0 (i + 1) hstart ⟨by omega, hlt⟩ := by
  have hdepth : depthBehind token depth = .ok 0 := depthBehind_eq_ok_iff.2 hweight
  rw [endFrom, dif_pos hlt, tokenAt_eq htoken, except_ok_bind, dif_neg hsemicolon, hdepth,
    except_ok_bind, hbreaks, except_ok_bind]
  rfl

/-- The statement ends behind this tree, if that is on a line that ends there. -/
def breaksBehind (tree : Tree) (next : Option Code) : Bool :=
  next.any (·.newlineBefore) && tree.last.endsStatement

/-- The next token is the one that the next tree starts with, or the one behind the trees. -/
theorem tokenBefore?_or {j : Nat} {trees : List Tree} {follow : Option Code}
    (h : Spans code i j trees) (hj : j ≤ stop) (hfollow : tokenBefore? code j stop = .ok follow) :
    tokenBefore? code i stop = .ok ((trees.head?.map Tree.first).or follow) := by
  cases trees with
  | nil =>
    rw [h.eq_of_nil, hfollow]
    rfl
  | cons tree trees => exact tokenBefore?_of_lt h.first.2 (Nat.lt_of_lt_of_le h.first.1 hj)

theorem tokenBefore?_eq {trees : List Tree} (h : Spans code i stop trees) :
    tokenBefore? code i stop = .ok (trees.head?.map Tree.first) := by
  rw [tokenBefore?_or h (Nat.le_refl stop) (tokenBefore?_of_le (Nat.le_refl stop)), Option.or_none]

/-- A statement goes on behind a tree, unless it breaks there. -/
theorem endFrom_tree {j : Nat} {tree : Tree} {next : Option Code} (hstart : start < stop)
    (hi : start ≤ i) (hlt : i < j) (hj : j ≤ stop) (h : Spans code i j [tree])
    (hnext : tokenBefore? code j stop = .ok next) (hsemicolon : tree.isLeaf .semicolon = false) :
    endFrom code start stop 0 i hstart ⟨hi, by omega⟩ =
      if breaksBehind tree next then .ok ⟨j, by omega, hj, by omega⟩
      else endFrom code start stop 0 j hstart ⟨by omega, hj⟩ := by
  have hbreaks : breaksAt code j stop 0 tree.last = .ok (breaksBehind tree next) := by
    rw [breaksAt, if_pos rfl, hnext]
    rfl
  cases tree with
  | leaf token =>
    obtain ⟨-, htoken, hnil⟩ := h.leaf
    obtain rfl : i + 1 = j := hnil.eq_of_nil
    have hweight : token.weight = 0 := h.weight_leaf
    have hkind : ¬ token.kind = .semicolon := by simpa [Tree.isLeaf] using hsemicolon
    exact endFrom_level htoken hj (fun hboth => hkind hboth.1) (by rw [hweight]; rfl) hbreaks
  | group opening body closing =>
    obtain ⟨close, hpairs⟩ := h.group
    obtain rfl : close + 1 = j := hpairs.behind.eq_of_nil
    have hclose := hpairs.lt
    have hinside : ∀ hi', endFrom code start stop 1 (i + 1) hstart hi' =
        endFrom code start stop 1 close hstart ⟨by omega, by omega⟩ := by
      refine hpairs.inside.pass (P := fun depth k => ∀ hk, endFrom code start stop depth k hstart hk =
        endFrom code start stop 1 close hstart ⟨by omega, by omega⟩) ?_ Nat.one_pos fun _ => rfl
      intro k token depth depth' _ hk htoken _ hdepth' hweight ih hi
      rw [endFrom_step htoken (by omega) hdepth' hweight, ih]
    rw [endFrom_step hpairs.first (by omega) Nat.one_pos (by rw [hpairs.weight_opening]; rfl), hinside]
    -- the line may end behind the closing bracket, not before it
    exact endFrom_level hpairs.last hj (fun hboth => absurd hboth.2 Nat.one_ne_zero)
      (by rw [hpairs.weight_closing]; rfl) hbreaks

theorem endFrom_stop (hstart : start < stop) :
    endFrom code start stop 0 stop hstart ⟨hstart.le, Nat.le_refl stop⟩ =
      .ok ⟨stop, hstart.le, Nat.le_refl stop, by omega⟩ := by
  rw [endFrom, dif_neg (Nat.lt_irrefl stop), if_pos rfl]
  rfl

theorem endFrom_semicolon {hstart : start < stop} (hi : start < i) (hlt : i < stop)
    (htoken : code[i]? = some token) (hkind : token.kind = .semicolon) :
    endFrom code start stop 0 i hstart ⟨hi.le, hlt.le⟩ = .ok ⟨i, hi.le, hlt.le, by omega⟩ := by
  rw [endFrom, dif_pos hlt, tokenAt_eq htoken, except_ok_bind, dif_pos ⟨hkind, rfl⟩]
  rfl

/-- The first statement of trees with a token behind them. It ends before one of the trees or before
the token, or it goes on to the token, as a statement with that token in it does. -/
theorem endFrom_trees {j : Nat} {tree : Tree} {trees : List Tree} {follow : Option Code}
    (hstart : start < stop) (hi : start ≤ i ∧ i ≤ stop) (h : Spans code i j (tree :: trees))
    (hj : j ≤ stop) (hfollow : tokenBefore? code j stop = .ok follow)
    (hkind : ∀ token ∈ follow, token.kind ≠ .semicolon)
    (hsemicolon : tree.isLeaf .semicolon = false) :
    (∃ s rest next, Statement.split (tree :: (trees ++ follow.toList.map .leaf)) =
        s :: Statement.split (rest ++ follow.toList.map .leaf) ∧
      s.follow = (rest.head?.map Tree.first).or follow ∧
      endFrom code start stop 0 i hstart hi = .ok next ∧
      Spans code i next.1 s.trees ∧ Spans code next.1 j rest) ∨
    (Statement.split (tree :: (trees ++ follow.toList.map .leaf)) =
        [⟨tree, trees ++ follow.toList.map .leaf, none⟩] ∧
      ∀ hj', endFrom code start stop 0 i hstart hi = endFrom code start stop 0 j hstart hj') := by
  induction trees generalizing i tree with
  | nil =>
    have hend := endFrom_tree hstart hi.1 h.first.1 hj h hfollow hsemicolon
    cases follow with
    | none => exact .inr ⟨by simp [Statement.split, Statement.joins, hsemicolon], fun _ => hend⟩
    | some token =>
      have hleaf : (Tree.leaf token).isLeaf .semicolon = false := by
        simpa [Tree.isLeaf] using hkind token rfl
      have hjoins : Statement.joins tree (some (.leaf token)) =
          !breaksBehind tree (some token) := by
        rw [Statement.joins, hleaf]
        rfl
      cases hbreaks : breaksBehind tree (some token) with
      | true =>
        rw [hbreaks, if_pos rfl] at hend
        refine .inl ⟨⟨tree, [], some token⟩, [], _, ?_, rfl, hend, h, .nil h.within⟩
        simp [Statement.split, hsemicolon, hjoins, hbreaks, Tree.first]
      | false =>
        rw [hbreaks, if_neg Bool.false_ne_true] at hend
        have hlast : Statement.split [.leaf token] = [⟨.leaf token, [], none⟩] := by
          simp [Statement.split, Statement.joins, hleaf]
        refine .inr ⟨?_, fun _ => hend⟩
        show Statement.split [tree, .leaf token] = _
        rw [Statement.split, if_neg (by simp [hsemicolon]), List.head?_cons, hjoins, hbreaks, hlast]
        rfl
  | cons tree' trees ih =>
    obtain ⟨k, hone, hrest⟩ := h.uncons
    have hlt := hone.first.1
    have hle := hrest.le
    have hend := endFrom_tree hstart hi.1 hlt (by omega) hone (tokenBefore?_or hrest hj hfollow)
      hsemicolon
    have hjoins : Statement.joins tree (some tree') =
        (!tree'.isLeaf .semicolon && !breaksBehind tree (some tree'.first)) := rfl
    rw [List.cons_append, Statement.split, if_neg (by simp [hsemicolon]), List.head?_cons, hjoins]
    rw [List.head?_cons, Option.map_some, Option.some_or] at hend
    cases hbreaks : breaksBehind tree (some tree'.first) with
    | true =>
      rw [hbreaks, if_pos rfl] at hend
      exact .inl ⟨⟨tree, [], some tree'.first⟩, tree' :: trees, _, by simp, rfl, hend, hone, hrest⟩
    | false =>
      rw [hbreaks, if_neg Bool.false_ne_true] at hend
      cases hsemicolon' : tree'.isLeaf .semicolon with
      | true =>
        obtain ⟨token, rfl, hkind'⟩ := Tree.eq_leaf_of_isLeaf hsemicolon'
        obtain ⟨hlt', htoken, -⟩ := hrest.leaf
        rw [endFrom_semicolon (by omega) (by omega) htoken hkind'] at hend
        exact .inl ⟨⟨tree, [], some token⟩, .leaf token :: trees, _, by simp [Tree.first], rfl, hend,
          hone, hrest⟩
      | false =>
        -- the statement that the next tree starts is a part of this one
        rcases ih ⟨by omega, by omega⟩ hrest hsemicolon' with
          ⟨s, rest, next, hsplit, hfollow', hnext, hs, hbehind⟩ | ⟨hsplit, hnext⟩
        · refine .inl ⟨{ s with head := tree, tail := s.trees }, rest, next, ?_, hfollow', ?_, ?_,
            hbehind⟩
          · rw [hsplit]
            rfl
          · rw [hend, hnext]
          · exact hone.append hs
        · refine .inr ⟨?_, fun hj' => ?_⟩
          · rw [hsplit]
            rfl
          · rw [hend, hnext]

/-- The first statement of trees, and the trees behind it. -/
theorem endFrom_split {tree : Tree} {trees : List Tree} (hstart : start < stop)
    (hi : start ≤ i ∧ i ≤ stop) (h : Spans code i stop (tree :: trees))
    (hsemicolon : tree.isLeaf .semicolon = false) :
    ∃ s rest next, Statement.split (tree :: trees) = s :: Statement.split rest ∧
      s.follow = rest.head?.map Tree.first ∧
      endFrom code start stop 0 i hstart hi = .ok next ∧
      Spans code i next.1 s.trees ∧ Spans code next.1 stop rest := by
  have hcases := endFrom_trees hstart hi h (Nat.le_refl stop) (tokenBefore?_of_le (Nat.le_refl stop))
    (by simp) hsemicolon
  simp only [Option.toList_none, List.map_nil, List.append_nil, Option.or_none] at hcases
  rcases hcases with hends | ⟨hsplit, hend⟩
  · exact hends
  · exact ⟨⟨tree, trees, none⟩, [], ⟨stop, hstart.le, Nat.le_refl stop, by omega⟩, hsplit, rfl,
      (hend ⟨hstart.le, Nat.le_refl stop⟩).trans (endFrom_stop hstart), h, .nil h.within⟩

/-- The statement stands in the range. -/
structure Holds (code : List Code) {start stop : Nat} (range : Range start stop) (s : Statement) :
    Prop where
  spans : Spans code range.first range.last s.trees
  follow : s.follow = if range.last < stop then code[range.last]? else none

/-- From any place of a range on, counting brackets finds the statements of the trees that are left
there. The induction needs this for the places at which statements start. -/
theorem statementsFrom_split {trees : List Tree} (hi : start ≤ i) (h : Spans code i stop trees) :
    ∃ ranges, statementsFrom code start stop i hi = .ok ranges ∧
      List.Forall₂ (Holds code) ranges (Statement.split trees) := by
  induction hn : stop - i using Nat.strongRecOn generalizing i trees with
  | ind n ih =>
    subst hn
    cases trees with
    | nil =>
      rw [statementsFrom, dif_neg (Nat.not_lt.2 h.eq_of_nil.ge)]
      exact ⟨[], rfl, .nil⟩
    | cons tree trees =>
      obtain ⟨hlt, htoken⟩ := h.first
      rw [statementsFrom, dif_pos hlt, tokenAt_eq htoken, except_ok_bind]
      cases hsemicolon : tree.isLeaf .semicolon with
      | true =>
        obtain ⟨token, rfl, hkind⟩ := Tree.eq_leaf_of_isLeaf hsemicolon
        rw [dif_pos (show (Tree.leaf token).first.kind = .semicolon from hkind), Statement.split,
          if_pos hsemicolon]
        exact ih (stop - (i + 1)) (by omega) (by omega) h.leaf.2.2 rfl
      | false =>
        have hkind : tree.first.kind ≠ .semicolon := h.first_ne_semicolon hsemicolon
        obtain ⟨s, rest, next, hsplit, hfollow, hnext, hs, hbehind⟩ :=
          endFrom_split hlt ⟨Nat.le_refl i, hlt.le⟩ h hsemicolon
        have hnext' := next.lt htoken hkind
        obtain ⟨ranges, hranges, hforall⟩ :=
          ih (stop - next.1) (by omega) (Nat.le_trans hi next.2.1) hbehind rfl
        rw [dif_neg hkind, hnext, except_ok_bind, hsplit]
        dsimp only
        rw [hranges]
        refine ⟨_, rfl, .cons ⟨hs, ?_⟩ hforall⟩
        rw [hfollow, hbehind.first?]

/-- **The statements of trees are found by counting brackets.** -/
theorem statements_split {trees : List Tree} (h : Spans code start stop trees) :
    ∃ ranges, statements code start stop = .ok ranges ∧
      List.Forall₂ (Holds code) ranges (Statement.split trees) :=
  statementsFrom_split (Nat.le_refl start) h

end Positions

/-! ## Trees from counting -/

theorem depthAt_cons (token : Code) (code : List Code) (k : Nat) :
    depthAt (token :: code) (k + 1) = token.weight + depthAt code k := by
  simp [depthAt]

namespace Tree

/-- Brackets that are opened before they are closed, and closed in the end, form trees. -/
theorem exists_build {frames : List Frame} {code : List Code} (level : List Tree)
    (habove : ∀ k ≤ code.length, 0 ≤ frames.length + depthAt code k)
    (hclosed : frames.length + depthAt code code.length = 0) :
    ∃ trees, build frames level code = .ok trees := by
  induction code generalizing frames level with
  | nil =>
    have hlength : (frames.length : Int) = 0 := by simpa [depthAt] using hclosed
    obtain rfl : frames = [] := List.eq_nil_of_length_eq_zero (by omega)
    exact ⟨level.reverse, rfl⟩
  | cons token code ih =>
    have habove' : ∀ k ≤ code.length, 0 ≤ frames.length + (token.weight + depthAt code k) := by
      intro k hk
      rw [← depthAt_cons]
      exact habove (k + 1) (Nat.succ_le_succ hk)
    have hfirst := habove' 0 (Nat.zero_le _)
    rw [List.length_cons, depthAt_cons] at hclosed
    rw [depthAt_zero] at hfirst
    by_cases hopening : token.kind.isOpening = true
    · have hweight := Code.weight_opening hopening
      rw [build_opening _ _ _ hopening]
      refine ih [] (fun k hk => ?_) ?_
      · have hk' := habove' k hk
        rw [List.length_cons]
        omega
      · rw [List.length_cons]
        omega
    by_cases hclosing : token.kind.isClosing = true
    · have hweight := Code.weight_closing hclosing
      cases frames with
      | nil =>
        rw [List.length_nil] at hfirst
        omega
      | cons frame outer =>
        rw [List.length_cons] at habove' hclosed
        rw [build_closing _ _ _ (by simpa using hopening) hclosing]
        refine ih _ (fun k hk => ?_) (by omega)
        have hk' := habove' k hk
        omega
    · rw [Bool.not_eq_true] at hopening hclosing
      have hweight := Code.weight_other hopening hclosing
      rw [build_leaf _ _ _ hopening hclosing]
      refine ih _ (fun k hk => ?_) (by omega)
      have hk' := habove' k hk
      omega

/-- An open bracket, and balanced trees before it. -/
def Frame.Balanced (frame : Frame) : Prop :=
  frame.1.kind.isOpening = true ∧ ∀ tree ∈ frame.2, tree.Balanced

theorem balanced_of_build {frames : List Frame} {level trees : List Tree} {code : List Code}
    (h : build frames level code = .ok trees) (hframes : ∀ frame ∈ frames, frame.Balanced)
    (hlevel : ∀ tree ∈ level, tree.Balanced) : ∀ tree ∈ trees, tree.Balanced := by
  fun_induction build frames level code with
  | case1 frames level hlast =>
    cases h
    simpa using hlevel
  | case2 => cases h
  | case3 frames level token rest hopening ih =>
    exact ih h (List.forall_mem_cons.2 ⟨⟨hopening, hlevel⟩, hframes⟩) (by simp)
  | case4 => cases h
  | case5 level token rest hopening hclosing opening before outer ih =>
    obtain ⟨⟨hopens, hbefore⟩, houter⟩ := List.forall_mem_cons.1 hframes
    refine ih h houter (List.forall_mem_cons.2 ⟨.group hopens hclosing ?_, hbefore⟩)
    simpa using hlevel
  | case6 frames level token rest hopening hclosing ih =>
    refine ih h hframes (List.forall_mem_cons.2 ⟨.leaf ?_ ?_, hlevel⟩)
    · simpa using hopening
    · simpa using hclosing

end Tree

theorem spans_of_ofCode {code : List Code} {trees : List Tree} (h : Tree.ofCode code = .ok trees) :
    Spans code 0 code.length trees := by
  have hbalanced := Tree.balanced_of_build h (by simp) (by simp)
  have hfront := Spans.front hbalanced []
  rwa [List.append_nil, Tree.listCodes_of_ofCode h] at hfront

/-- The depth of brackets is never below zero and is zero in the end. -/
def Nested (code : List Code) : Prop :=
  (∀ k ≤ code.length, 0 ≤ depthAt code k) ∧ depthAt code code.length = 0

theorem nested_iff_level {code : List Code} : Nested code ↔ Level code 0 code.length := by
  constructor
  · rintro ⟨habove, hclosed⟩
    exact ⟨fun k _ hk => habove k hk, hclosed⟩
  · rintro ⟨habove, hclosed⟩
    exact ⟨fun k hk => habove k (Nat.zero_le k) hk, hclosed⟩

/-- Code is nested if and only if it forms trees. -/
theorem nested_iff_ofCode {code : List Code} : Nested code ↔ ∃ trees, Tree.ofCode code = .ok trees := by
  constructor
  · rintro ⟨habove, hclosed⟩
    refine Tree.exists_build [] (fun k hk => ?_) ?_
    · simpa using habove k hk
    · simpa using hclosed
  · rintro ⟨trees, htrees⟩
    obtain ⟨ranges, hranges, -⟩ := Positions.statements_split (spans_of_ofCode htrees)
    exact nested_iff_level.2 (Positions.statementsFrom_partition (Nat.zero_le _) hranges).level

/-- Code is nested if and only if counting finds its statements. -/
theorem nested_iff_statements {code : List Code} :
    Nested code ↔ ∃ ranges, Positions.statements code 0 code.length = .ok ranges := by
  constructor
  · intro h
    obtain ⟨trees, htrees⟩ := nested_iff_ofCode.1 h
    obtain ⟨ranges, hranges, -⟩ := Positions.statements_split (spans_of_ofCode htrees)
    exact ⟨ranges, hranges⟩
  · rintro ⟨ranges, hranges⟩
    exact nested_iff_level.2 (Positions.statementsFrom_partition (Nat.zero_le _) hranges).level

end ApiDocs.Source
