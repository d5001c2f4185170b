/-
  ApiDocs.Proofs.Source.Unbalanced

  Code whose brackets do not nest. Either a bracket closes none that is open, behind balanced trees,
  or a bracket behind balanced trees is never closed (`Fails`). Counting comes to that bracket at
  depth zero, with the statement that it stands in, and so refuses the code with the error that
  nesting has (`statements_of_error`).
-/

import ApiDocs.Proofs.Source.Nesting

namespace ApiDocs.Source

/-! ## Where nesting fails -/

/-- The depth of brackets never falls below that of the start. -/
def Rises (code : List Code) : Prop :=
  ∀ k ≤ code.length, 0 ≤ depthAt code k

theorem depthAt_append (code code' : List Code) (k : Nat) :
    depthAt (code ++ code') (code.length + k) = depthAt code code.length + depthAt code' k := by
  rw [depthAt, depthAt, depthAt, List.take_length_add_append, List.map_append, List.sum_append,
    List.take_length]

theorem depthAt_append_of_le {code : List Code} (code' : List Code) {k : Nat} (h : k ≤ code.length) :
    depthAt (code ++ code') k = depthAt code k := by
  rw [depthAt, List.take_append_of_le_length h, depthAt]

theorem Rises.append {code code' : List Code} (h : Rises code) (h' : Rises code') :
    Rises (code ++ code') := by
  intro k hk
  rw [List.length_append] at hk
  rcases Nat.le_total k code.length with hle | hge
  · rw [depthAt_append_of_le code' hle]
    exact h k hle
  · obtain ⟨m, rfl⟩ := Nat.exists_eq_add_of_le hge
    have hfront := h code.length (Nat.le_refl _)
    have hback := h' m (by omega)
    rw [depthAt_append]
    omega

theorem rises_nil : Rises [] := by
  intro k _
  simp [depthAt]

theorem rises_opening {opening : Code} (h : opening.kind.isOpening = true) : Rises [opening] := by
  intro k _
  cases k with
  | zero => exact Int.le_refl 0
  | succ k =>
    rw [depthAt_cons, Code.weight_opening h]
    simp [depthAt]

theorem rises_listCodes {trees : List Tree} (h : ∀ tree ∈ trees, tree.Balanced) :
    Rises (Tree.listCodes trees) :=
  (nested_iff_ofCode.2 ⟨trees, Tree.ofCode_listCodes h⟩).1

/-- The code has a bracket that does not nest, behind balanced trees. -/
inductive Fails : List Code → BracketError → Prop where
  | unexpected {trees : List Tree} {closing : Code} (hbalanced : ∀ tree ∈ trees, tree.Balanced)
      (hclosing : closing.kind.isClosing = true) (rest : List Code) :
      Fails (Tree.listCodes trees ++ closing :: rest) (.unexpected closing)
  | unclosed {trees : List Tree} {opening : Code} {rest : List Code}
      (hbalanced : ∀ tree ∈ trees, tree.Balanced) (hopening : opening.kind.isOpening = true)
      (hrises : Rises rest) :
      Fails (Tree.listCodes trees ++ opening :: rest) (.unclosed trees opening)

namespace Tree

/-- The outermost open bracket stands behind its trees, and no bracket behind it is closed. -/
theorem framesCodes_eq {frames : List Frame} (h : ∀ frame ∈ frames, frame.Balanced) {outermost : Frame}
    (hlast : frames.getLast? = some outermost) :
    ∃ rest, framesCodes frames = listCodes outermost.2.reverse ++ outermost.1 :: rest ∧ Rises rest := by
  induction frames with
  | nil => cases hlast
  | cons frame outer ih =>
    obtain ⟨hframe, houter⟩ := List.forall_mem_cons.1 h
    cases outer with
    | nil =>
      obtain rfl : frame = outermost := by simpa using hlast
      exact ⟨[], by simp [framesCodes], rises_nil⟩
    | cons next outer =>
      obtain ⟨rest, hcodes, hrises⟩ := ih houter (by simpa using hlast)
      have hbefore : Rises (listCodes frame.2.reverse) := rises_listCodes (by simpa using hframe.2)
      refine ⟨rest ++ listCodes frame.2.reverse ++ [frame.1], ?_,
        (hrises.append hbefore).append (rises_opening hframe.1)⟩
      rw [framesCodes, hcodes]
      simp

theorem fails_of_build {frames : List Frame} {level : List Tree} {code : List Code} {e : BracketError}
    (h : build frames level code = .error e) (hframes : ∀ frame ∈ frames, frame.Balanced)
    (hlevel : ∀ tree ∈ level, tree.Balanced) :
    Fails (framesCodes frames ++ listCodes level.reverse ++ code) e := by
  fun_induction build frames level code with
  | case1 => cases h
  | case2 frames level opening before hlast =>
    cases h
    obtain ⟨rest, hcodes, hrises⟩ := framesCodes_eq hframes hlast
    obtain ⟨hopening, hbefore⟩ := hframes _ (List.mem_of_getLast? hlast)
    have hlevel' : Rises (listCodes level.reverse) := rises_listCodes (by simpa using hlevel)
    have hbefore' : ∀ tree ∈ before.reverse, tree.Balanced := by simpa using hbefore
    have hfails := Fails.unclosed hbefore' hopening (hrises.append hlevel')
    rw [hcodes]
    simpa using hfails
  | case3 frames level token rest hopening ih =>
    have hfails := ih h (List.forall_mem_cons.2 ⟨⟨hopening, hlevel⟩, hframes⟩) (by simp)
    simpa [framesCodes, listCodes] using hfails
  | case4 level token rest hopening hclosing =>
    cases h
    exact .unexpected (by simpa using hlevel) hclosing rest
  | case5 level token rest hopening hclosing opening before outer ih =>
    obtain ⟨⟨hopens, hbefore⟩, houter⟩ := List.forall_mem_cons.1 hframes
    have hfails := ih h houter
      (List.forall_mem_cons.2 ⟨.group hopens hclosing (by simpa using hlevel), hbefore⟩)
    simpa [framesCodes, listCodes, codes, listCodes_append] using hfails
  | case6 frames level token rest hopening hclosing ih =>
    have hfails := ih h hframes
      (List.forall_mem_cons.2 ⟨.leaf (by simpa using hopening) (by simpa using hclosing), hlevel⟩)
    simpa [listCodes, codes, listCodes_append] using hfails

theorem fails_of_ofCode {code : List Code} {e : BracketError} (h : ofCode code = .error e) :
    Fails code e :=
  fails_of_build h (by simp) (by simp)

end Tree

/-! ## Where counting fails -/

theorem Statement.split_concat_ne_nil (trees : List Tree) {token : Code}
    (h : token.kind ≠ .semicolon) : split (trees ++ [.leaf token]) ≠ [] := by
  induction trees with
  | nil => simp [split, joins, Tree.isLeaf, h]
  | cons tree trees ih =>
    rw [List.cons_append, split]
    split
    · exact ih
    split
    · split
      · exact List.cons_ne_nil _ _
      · exact List.cons_ne_nil _ _
    · exact List.cons_ne_nil _ _

/-- The token that the last statement starts with, where a further token belongs to the trees. -/
def lastStart (trees : List Tree) (token : Code) : Code :=
  ((Statement.split (trees ++ [.leaf token])).getLast?.map (·.head.first)).getD token

namespace Positions

variable {code : List Code} {start stop i j : Nat} {trees : List Tree} {token : Code}

/-- If no statement gets past a token, then the last one before it fails. -/
theorem statementsFrom_fails {error : Code → Fault} (hi : start ≤ i) (h : Spans code i j trees)
    (hlt : j < stop) (htoken : code[j]? = some token) (hkind : token.kind ≠ .semicolon)
    (herror : ∀ {start first}, code[start]? = some first → ∀ hstart hj,
      endFrom code start stop 0 j hstart hj = .error (error first)) :
    statementsFrom code start stop i hi = .error (error (lastStart trees token)) := by
  induction hn : stop - i using Nat.strongRecOn generalizing i trees with
  | ind n ih =>
    subst hn
    have hle := h.le
    cases trees with
    | nil =>
      obtain rfl := h.eq_of_nil
      have hstart : lastStart [] token = token := by
        simp [lastStart, Statement.split, Statement.joins, Tree.isLeaf, Tree.first, hkind]
      rw [statementsFrom, dif_pos hlt, tokenAt_eq htoken, except_ok_bind, dif_neg hkind,
        herror htoken, hstart]
      rfl
    | cons tree trees =>
      obtain ⟨hlt', hfirst⟩ := h.first
      rw [statementsFrom, dif_pos (by omega), tokenAt_eq hfirst, except_ok_bind]
      cases hsemicolon : tree.isLeaf .semicolon with
      | true =>
        obtain ⟨semicolon, rfl, hkind'⟩ := Tree.eq_leaf_of_isLeaf hsemicolon
        have hstart : lastStart (.leaf semicolon :: trees) token = lastStart trees token := by
          rw [lastStart, List.cons_append, Statement.split, if_pos hsemicolon, lastStart]
        rw [dif_pos (show (Tree.leaf semicolon).first.kind = .semicolon from hkind'), hstart]
        exact ih (stop - (i + 1)) (by omega) (by omega) h.leaf.2.2 rfl
      | false =>
        have hkind' : tree.first.kind ≠ .semicolon := h.first_ne_semicolon hsemicolon
        rw [dif_neg hkind']
        have hcases := endFrom_trees (Nat.lt_trans hlt' hlt) ⟨Nat.le_refl i, by omega⟩ h hlt.le
          (tokenBefore?_of_lt htoken hlt) (by simpa using hkind) hsemicolon
        simp only [Option.toList_some, List.map_cons, List.map_nil] at hcases
        rcases hcases with ⟨s, rest, next, hsplit, -, hnext, -, hbehind⟩ | ⟨hsplit, hnext⟩
        · -- the statement ends before the token, and one behind it fails
          have hlt'' := next.lt hfirst hkind'
          have hstart : lastStart (tree :: trees) token = lastStart rest token := by
            obtain ⟨last, hlast⟩ := Option.isSome_iff_exists.1
              (List.getLast?_isSome.2 (Statement.split_concat_ne_nil rest hkind))
            rw [lastStart, List.cons_append, hsplit, List.getLast?_cons, lastStart, hlast]
            rfl
          have hrest := ih (stop - next.1) (by omega) (Nat.le_trans hi next.2.1) hbehind rfl
          rw [hnext, except_ok_bind, hstart]
          dsimp only
          rw [hrest]
          rfl
        · have hstart : lastStart (tree :: trees) token = tree.first := by
            rw [lastStart, List.cons_append, hsplit]
            rfl
          rw [hnext ⟨by omega, hlt.le⟩, herror hfirst, hstart]
          rfl

theorem endFrom_closing (hstart : start < stop) (hj : start ≤ j ∧ j ≤ stop) (hlt : j < stop)
    (htoken : code[j]? = some token) (hclosing : token.kind.isClosing = true) :
    endFrom code start stop 0 j hstart hj =
      .error (.refused (.unexpectedBracket token.line token.text)) := by
  have hkind : token.kind ≠ .semicolon := TokenKind.ne_of_isClosing hclosing rfl
  have hdepth : depthBehind token 0 = .error (.refused (.unexpectedBracket token.line token.text)) := by
    rw [depthBehind, if_neg (by simp [TokenKind.not_isOpening_of_isClosing hclosing]),
      if_pos hclosing, if_pos rfl]
  rw [endFrom, dif_pos hlt, tokenAt_eq htoken, except_ok_bind, dif_neg (fun hboth => hkind hboth.1),
    hdepth]
  rfl

/-- A statement in which a bracket stays open fails. -/
theorem endFrom_open {first : Code} {depth : Nat} (hstart : start < stop) (hi : start ≤ i ∧ i ≤ stop)
    (hstop : stop ≤ code.length) (hfirst : code[start]? = some first)
    (hopen : ∀ k, i ≤ k → k ≤ stop → depthAt code i < depth + depthAt code k) :
    endFrom code start stop depth i hstart hi = .error (.refused (.unbalancedBrackets first.line)) := by
  induction hn : stop - i using Nat.strongRecOn generalizing i depth with
  | ind n ih =>
    subst hn
    rcases Nat.lt_or_ge i stop with hlt | hge
    · obtain ⟨token, htoken⟩ : ∃ token, code[i]? = some token :=
        ⟨_, List.getElem?_eq_getElem (Nat.lt_of_lt_of_le hlt hstop)⟩
      have hnext := hopen (i + 1) (Nat.le_succ i) hlt
      have hbehind := depthAt_succ htoken
      obtain ⟨depth', hweight⟩ : ∃ depth' : Nat, (depth' : Int) = depth + token.weight :=
        ⟨(depth + token.weight).toNat, by omega⟩
      rw [endFrom_step htoken hlt (by omega) hweight]
      have hi' : start ≤ i + 1 ∧ i + 1 ≤ stop := by omega
      refine ih (stop - (i + 1)) (by omega) hi' (fun k hk hk' => ?_) rfl
      have hdepth := hopen k (by omega) hk'
      omega
    · have hdepth := hopen i (Nat.le_refl i) hi.2
      rw [endFrom, dif_neg (Nat.not_lt.2 hge), if_neg (by omega), tokenAt_eq hfirst]
      rfl

/-- An opening bracket stays open if the depth does not fall behind it. -/
theorem endFrom_opening {first : Code} (hstart : start < stop) (hj : start ≤ j ∧ j ≤ stop)
    (hlt : j < stop) (hstop : stop ≤ code.length) (hfirst : code[start]? = some first)
    (htoken : code[j]? = some token) (hopening : token.kind.isOpening = true)
    (hrises : ∀ k, j < k → k ≤ stop → depthAt code j < depthAt code k) :
    endFrom code start stop 0 j hstart hj = .error (.refused (.unbalancedBrackets first.line)) := by
  have hweight := Code.weight_opening hopening
  have hbehind := depthAt_succ htoken
  rw [endFrom_step htoken hlt Nat.one_pos (by rw [hweight]; rfl)]
  refine endFrom_open hstart _ hstop hfirst fun k hk hk' => ?_
  have hdepth := hrises k hk hk'
  omega

/-- **Counting refuses what does not nest, with the same error.** -/
theorem statements_of_error {e : BracketError} (h : Tree.ofCode code = .error e) :
    ∃ error, topLevel code = .error error ∧
      statements code 0 code.length = .error (.refused error) := by
  rw [topLevel, h]
  cases Tree.fails_of_ofCode h with
  | @unexpected trees closing hbalanced hclosing rest =>
    have hlt : (Tree.listCodes trees).length < (Tree.listCodes trees ++ closing :: rest).length := by simp
    have htoken : (Tree.listCodes trees ++ closing :: rest)[(Tree.listCodes trees).length]? =
        some closing := by simp
    have hkind : closing.kind ≠ .semicolon := TokenKind.ne_of_isClosing hclosing rfl
    refine ⟨_, rfl, ?_⟩
    exact statementsFrom_fails (Nat.le_refl 0) (Spans.front hbalanced (closing :: rest)) hlt htoken hkind
      fun _ hstart hj => endFrom_closing hstart hj hlt htoken hclosing
  | @unclosed trees opening rest hbalanced hopening hrises =>
    have hlt : (Tree.listCodes trees).length < (Tree.listCodes trees ++ opening :: rest).length := by simp
    have htoken : (Tree.listCodes trees ++ opening :: rest)[(Tree.listCodes trees).length]? =
        some opening := by simp
    have hkind : opening.kind ≠ .semicolon := TokenKind.ne_of_isOpening hopening rfl
    have hopen : ∀ k, (Tree.listCodes trees).length < k →
        k ≤ (Tree.listCodes trees ++ opening :: rest).length →
        depthAt (Tree.listCodes trees ++ opening :: rest) (Tree.listCodes trees).length <
          depthAt (Tree.listCodes trees ++ opening :: rest) k := by
      intro k hk hk'
      obtain ⟨m, rfl⟩ := Nat.exists_eq_add_of_lt hk
      have hrest := hrises m (by simp at hk'; omega)
      rw [Nat.add_assoc, depthAt_append, depthAt_append_of_le _ (Nat.le_refl _), depthAt_cons,
        Code.weight_opening hopening]
      omega
    refine ⟨_, rfl, ?_⟩
    exact statementsFrom_fails (Nat.le_refl 0) (Spans.front hbalanced (opening :: rest)) hlt htoken hkind
      fun hfirst hstart hj =>
        endFrom_opening hstart hj hlt (Nat.le_refl _) hfirst htoken hopening hopen

end Positions

end ApiDocs.Source
