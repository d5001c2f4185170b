/-
  ApiDocs.Proofs.Source.Agreement

  Reading by positions and reading trees give the same types. Where a stretch of code holds the
  tokens of trees (`Spans`), each reader of positions meets no fault and returns what the reader of
  these trees does. Tokens, names and the parts of a field line come first; types and field lines
  hold each other, so that they are read by induction on the length of the stretch (`reads`).
-/

import ApiDocs.Proofs.Source.Nesting
import ApiDocs.Proofs.Source.Places

namespace ApiDocs.Source.Positions

variable {code : List Code} {start stop i : Nat} {trees : List Tree}

/-! ## Tokens -/

theorem identifierAt_eq (h : Spans code i stop trees) :
    identifierAt code i stop = .ok (trees.head?.bind (·.leafText? .identifier)) := by
  rw [identifierAt, tokenBefore?_eq h, except_ok_bind]
  cases trees with
  | nil => rfl
  | cons tree trees =>
    cases tree with
    | leaf token =>
      by_cases hkind : token.kind = .identifier <;>
        simp [Tree.first, Tree.leafText?, hkind, pure, Except.pure]
    | group opening body closing =>
      obtain ⟨close, hpairs⟩ := h.group
      have hne : opening.kind ≠ .identifier := hpairs.opening_ne rfl
      simp [Tree.first, Tree.leafText?, hne, pure, Except.pure]

/-- The stretch goes on with a token that is no bracket. -/
theorem kindAt_leaf (h : Spans code i stop trees) {kind : TokenKind} (hkind : kind.isOpening = false) :
    kindAt code i stop kind = .ok (trees.head?.any (·.isLeaf kind)) := by
  rw [kindAt, tokenBefore?_eq h, except_ok_bind]
  cases trees with
  | nil => rfl
  | cons tree trees =>
    cases tree with
    | leaf token => rfl
    | group opening body closing =>
      obtain ⟨close, hpairs⟩ := h.group
      have hne := hpairs.opening_ne hkind
      simp [Tree.first, Tree.isLeaf, hne, pure, Except.pure]

/-- The stretch goes on with a pair of brackets. -/
theorem kindAt_group (h : Spans code i stop trees) {kind : TokenKind} (hkind : kind.isOpening = true) :
    kindAt code i stop kind = .ok (trees.head?.bind (·.body? kind)).isSome := by
  rw [kindAt, tokenBefore?_eq h, except_ok_bind]
  cases trees with
  | nil => rfl
  | cons tree trees =>
    cases tree with
    | leaf token =>
      have hne := h.leaf_ne hkind
      simp [Tree.first, Tree.body?, hne, pure, Except.pure]
    | group opening body closing =>
      by_cases hsame : opening.kind = kind <;> simp [Tree.first, Tree.body?, hsame, pure, Except.pure]

/-- A word that may stand before a type is skipped. -/
theorem textAt_drop (h : Spans code (i + 1) stop trees) (text : String) :
    ∃ found, textAt code (i + 1) stop text = .ok found ∧
      Spans code (if found then i + 2 else i + 1) stop (dropToken text trees) := by
  rw [textAt, tokenBefore?_eq h, except_ok_bind]
  cases trees with
  | nil => exact ⟨false, rfl, h⟩
  | cons tree trees =>
    cases tree with
    | leaf token =>
      have hopening := h.leaf_not_bracket.1
      rw [dropToken]
      by_cases htext : token.text = text
      · refine ⟨true, ?_, ?_⟩
        · simp [Tree.first, hopening, htext, pure, Except.pure]
        · rw [if_pos htext]
          exact h.leaf.2.2
      · refine ⟨false, ?_, ?_⟩
        · simp [Tree.first, htext, pure, Except.pure]
        · rw [if_neg htext]
          exact h
    | group opening body closing =>
      obtain ⟨close, hpairs⟩ := h.group
      exact ⟨false, by simp [Tree.first, hpairs.opens, pure, Except.pure], h⟩

theorem tokensOf_eq (h : Spans code i stop trees) : tokensOf code i stop = .ok (Tree.listCodes trees) := by
  have hlength := h.length
  have hwithin := h.within
  rw [tokensOf, if_pos ⟨h.le, hwithin⟩]
  congr 1
  refine List.ext_getElem? fun k => ?_
  rcases Nat.lt_or_ge k (Tree.listCodes trees).length with hlt | hge
  · rw [List.getElem?_take_of_lt (by omega), List.getElem?_drop, List.getElem?_eq_getElem hlt]
    exact h.tokens k _ (List.getElem?_eq_getElem hlt)
  · rw [List.getElem?_eq_none hge, List.getElem?_take_eq_none (by omega)]

theorem docOf_eq {tree : Tree} (h : Spans code i stop (tree :: trees)) :
    docOf code i = tree.first.doc := by
  rw [docOf, h.first.2]
  rfl

theorem lineOf_eq {tree : Tree} (h : Spans code i stop (tree :: trees)) :
    lineOf code i = tree.first.line := by
  rw [lineOf, h.first.2]
  rfl

/-- Within the code, there is a token before the end of a stretch. -/
theorem exists_tokenBefore? (hstop : stop ≤ code.length) (i : Nat) :
    ∃ token, tokenBefore? code i stop = .ok token := by
  rcases Nat.lt_or_ge i stop with hlt | hge
  · exact ⟨_, tokenBefore?_of_lt (List.getElem?_eq_getElem (Nat.lt_of_lt_of_le hlt hstop)) hlt⟩
  · exact ⟨_, tokenBefore?_of_le hge⟩

/-! ## Names of types -/

/-- Type arguments that may follow a name are passed. -/
theorem exists_argumentsAt (h : Spans code i stop trees) : ∃ next, argumentsAt code i stop = .ok next := by
  rw [argumentsAt, tokenBefore?_eq h, except_ok_bind]
  cases trees with
  | nil => exact ⟨i, rfl⟩
  | cons tree trees =>
    rw [List.head?_cons, Option.map_some]
    dsimp only
    split
    · rename_i hcond
      cases tree with
      | leaf token =>
        exact absurd (of_decide_eq_true (Bool.and_eq_true_iff.1 hcond).1) (h.leaf_ne rfl)
      | group opening body closing =>
        obtain ⟨close, hpairs⟩ := h.group
        exact ⟨close + 1, by rw [matching_eq hpairs]; rfl⟩
    · exact ⟨i, rfl⟩

theorem nameAt_eq (name : String) (h : Spans code i stop trees) :
    ∃ next, nameAt code name i stop = .ok ((readName name trees).1, next) := by
  obtain ⟨next, hnext⟩ := exists_argumentsAt h
  obtain ⟨token, htoken⟩ := exists_tokenBefore? h.within (i + 1)
  have hdot := kindAt_leaf h (show TokenKind.isOpening .dot = false from rfl)
  have hidentifier : ∃ member, identifierAt code (i + 1) stop = .ok member := by
    rw [identifierAt, htoken]
    exact ⟨_, rfl⟩
  obtain ⟨member, hmember⟩ := hidentifier
  -- the name stands alone unless a dot and an identifier follow
  have hplain : (member.filter fun _ => trees.head?.any (·.isLeaf .dot)) = none →
      nameAt code name i stop = .ok (.named none name, next) := by
    intro hnone
    rw [nameAt, hdot, except_ok_bind, hmember, except_ok_bind, hnone]
    dsimp only
    rw [hnext]
    rfl
  rcases trees with _ | ⟨dot | _, rest⟩
  · exact ⟨next, hplain (by simp)⟩
  · rw [identifierAt_eq h.leaf.2.2] at hmember
    rcases rest with _ | ⟨found | _, rest⟩
    · cases hmember
      exact ⟨next, hplain rfl⟩
    · have hfound := identifierAt_eq h.leaf.2.2
      cases hmember
      rw [readName]
      split
      · rename_i hcond
        obtain ⟨next', hnext'⟩ := exists_argumentsAt h.leaf.2.2.leaf.2.2
        obtain ⟨hkind, hkind'⟩ : dot.kind = .dot ∧ found.kind = .identifier := by simpa using hcond
        rw [nameAt, hdot, except_ok_bind, hfound, except_ok_bind]
        simp only [List.head?_cons, Option.bind_some, Option.any_some, Tree.leafText?, Tree.isLeaf,
          hkind, hkind', if_true, decide_true, Option.filter_some]
        rw [hnext']
        exact ⟨next', rfl⟩
      · rename_i hcond
        refine ⟨next, hplain ?_⟩
        by_cases hkind : found.kind = .identifier <;> simp_all [Tree.leafText?, Tree.isLeaf]
    · cases hmember
      exact ⟨next, hplain rfl⟩
  · exact ⟨next, hplain (by simp [Tree.isLeaf])⟩

/-! ## Parts of a field line -/

theorem tagAt_eq {line : List Tree} (h : Spans code i stop line) :
    ∃ last : {last // last ≤ stop}, tagAt code i stop = .ok ((splitTag line).1, last) ∧
      Spans code i last.1 (splitTag line).2 := by
  rw [tagAt, splitTag]
  rcases List.eq_nil_or_concat' line with rfl | ⟨front, tree, rfl⟩
  · rw [if_neg (by rw [h.eq_of_nil]; exact Nat.lt_irrefl stop)]
    exact ⟨_, rfl, h⟩
  obtain ⟨j, hfront, hone⟩ := h.append_inv
  have hle := hfront.le
  rw [List.getLast?_concat, List.dropLast_concat]
  cases tree with
  | leaf token =>
    obtain ⟨hlt, htoken, hnil⟩ := hone.leaf
    obtain rfl : j + 1 = stop := hnil.eq_of_nil
    rw [if_pos (by omega), tokenAt_eq (show code[j + 1 - 1]? = some token from htoken), except_ok_bind]
    dsimp only
    split
    · exact ⟨_, rfl, hfront⟩
    · exact ⟨_, rfl, h⟩
  | group opening body closing =>
    -- no bracket is a tag
    obtain ⟨close, hpairs⟩ := hone.group
    obtain rfl : close + 1 = stop := hpairs.behind.eq_of_nil
    have hlt := hpairs.lt
    have hstring : ¬ closing.kind.isString = true := by
      have hcloses := hpairs.closes
      cases hkind : closing.kind <;> simp_all [TokenKind.isString, TokenKind.isClosing]
    rw [if_pos (by omega), tokenAt_eq (show code[close + 1 - 1]? = some closing from hpairs.last),
      except_ok_bind, if_neg hstring]
    exact ⟨_, rfl, h⟩

theorem embedsAt_eq {tree : Tree} (h : Spans code i stop (tree :: trees)) :
    embedsAt code i stop = .ok (embeds (tree :: trees)) := by
  cases tree with
  | group opening body closing =>
    obtain ⟨close, hpairs⟩ := h.group
    have hstar : opening.kind ≠ .star := hpairs.opening_ne rfl
    have hword : opening.kind ≠ .identifier := hpairs.opening_ne rfl
    rw [embedsAt, tokenAt_eq hpairs.first, except_ok_bind, if_neg hstar, if_neg hword]
    rfl
  | leaf first =>
    obtain ⟨-, htoken, hrest⟩ := h.leaf
    rw [embedsAt, tokenAt_eq htoken, except_ok_bind]
    by_cases hstar : first.kind = .star
    · rw [if_pos hstar]
      rcases trees with _ | ⟨_ | _, _ | ⟨_ | _, _ | _⟩⟩ <;> simp [embeds, hstar, pure, Except.pure]
    by_cases hword : first.kind = .identifier
    · rw [if_neg hstar, if_pos hword]
      rcases trees with _ | ⟨second | ⟨opening, body, closing⟩, rest⟩
      · have hstop := hrest.eq_of_nil
        rw [if_pos (by omega)]
        simp [embeds, hword, pure, Except.pure]
      · -- only three tokens can be a qualified name
        obtain ⟨hlt, htoken, hrest⟩ := hrest.leaf
        rw [if_neg (by omega), tokenAt_eq htoken, except_ok_bind]
        rcases rest with _ | ⟨third | ⟨opening, body, closing⟩, rest⟩
        · have hstop := hrest.eq_of_nil
          rw [if_neg (by omega)]
          simp [embeds, hstar, pure, Except.pure]
        · obtain ⟨-, -, hrest⟩ := hrest.leaf
          cases rest with
          | nil =>
            have hstop := hrest.eq_of_nil
            rw [if_pos (by omega)]
            simp [embeds, hword, pure, Except.pure]
          | cons fourth rest =>
            have hstop := hrest.first.1
            rw [if_neg (by omega)]
            simp [embeds, hstar, pure, Except.pure]
        · obtain ⟨close, hpairs⟩ := hrest.group
          have hclose := hpairs.lt
          have hstop := hpairs.close_lt
          rw [if_neg (by omega)]
          simp [embeds, hstar, pure, Except.pure]
      · -- what follows is a bracket, and so no dot
        obtain ⟨close, hpairs⟩ := hrest.group
        have hclose := hpairs.lt
        have hstop := hpairs.close_lt
        have hdot : opening.kind ≠ .dot := hpairs.opening_ne rfl
        rw [if_neg (by omega), tokenAt_eq hpairs.first, except_ok_bind]
        simp [embeds, hstar, hdot, pure, Except.pure]
    · rw [if_neg hstar, if_neg hword]
      rcases trees with _ | ⟨_ | _, _ | ⟨_ | _, _ | _⟩⟩ <;>
        simp [embeds, hstar, hword, pure, Except.pure]

/-- Where no name stands, there are none. -/
theorem namesFrom_none (h : Spans code i stop trees) (hi : start ≤ i)
    (hhead : trees.head?.bind (·.leafText? .identifier) = none) :
    namesFrom code start stop i hi = .ok ([], ⟨i, hi⟩) := by
  rw [namesFrom]
  split
  · rw [identifierAt_eq h, hhead]
    rfl
  · rfl

/-- A name without a comma is the last one. -/
theorem namesFrom_last {name : Code} (h : Spans code i stop (.leaf name :: trees)) (hi : start ≤ i)
    (hkind : name.kind = .identifier) (hcomma : trees.head?.any (·.isLeaf .comma) = false) :
    namesFrom code start stop i hi = .ok ([name.text], ⟨i + 1, Nat.le_succ_of_le hi⟩) := by
  obtain ⟨hlt, -, hrest⟩ := h.leaf
  have hname : identifierAt code i stop = .ok (some name.text) := by
    rw [identifierAt_eq h, List.head?_cons, Option.bind_some, Tree.leafText?, if_pos hkind]
  rw [namesFrom, if_pos hlt, hname, except_ok_bind, if_neg (by simp), kindAt_leaf hrest rfl, hcomma]
  rfl

theorem namesFrom_eq {line : List Tree} (h : Spans code i stop line) (hi : start ≤ i) :
    ∃ next : {next // start ≤ next},
      namesFrom code start stop i hi = .ok ((leadingNames line).1, next) ∧
      Spans code next.1 stop (leadingNames line).2 := by
  fun_induction leadingNames line generalizing i with
  | case1 name hkind comma after hcomma names type hnames ih =>
    obtain ⟨hlt, -, hrest⟩ := h.leaf
    obtain ⟨next, hnext, hspans⟩ := ih hrest.leaf.2.2 (by omega)
    have hname : identifierAt code i stop = .ok (some name.text) := by
      rw [identifierAt_eq h, List.head?_cons, Option.bind_some, Tree.leafText?, if_pos hkind]
    have hkindAt : kindAt code (i + 1) stop .comma = .ok true := by
      rw [kindAt_leaf hrest rfl]
      simp [Tree.isLeaf, hcomma]
    rw [hnames] at hnext hspans
    refine ⟨next, ?_, hspans⟩
    rw [namesFrom, if_pos hlt, hname, except_ok_bind, if_neg (by simp), hkindAt, except_ok_bind,
      if_pos rfl, hnext]
    rfl
  | case2 name hkind other after hcomma =>
    exact ⟨_, namesFrom_last h hi hkind (by simp [Tree.isLeaf, hcomma]), h.leaf.2.2⟩
  | case3 name rest hkind hrest =>
    refine ⟨_, namesFrom_last h hi hkind ?_, h.leaf.2.2⟩
    rcases rest with _ | ⟨other | _, rest⟩
    · rfl
    · exact absurd rfl (hrest other rest)
    · rfl
  | case4 other rest hkind => exact ⟨_, namesFrom_none h hi (by simp [Tree.leafText?, hkind]), h⟩
  | case5 trees htrees =>
    refine ⟨_, namesFrom_none h hi ?_, h⟩
    rcases trees with _ | ⟨other | _, trees⟩
    · rfl
    · exact absurd rfl (htrees other trees)
    · rfl

/-! ## Types -/

/-- From stretches of up to `n` tokens, the type is read that their trees have. -/
def Reads (code : List Code) (n : Nat) : Prop :=
  ∀ ⦃trees i stop⦄, stop - i ≤ n → Spans code i stop trees →
    ∃ next, readType code i stop = .ok ((TypeExpr.read trees).1, next)

section Reads

variable {n : Nat} (ih : Reads code n)
include ih

theorem readField?_eq {tree : Tree} (hn : stop - i ≤ n) (h : Spans code i stop (tree :: trees)) :
    readField? code i stop = .ok (TypeExpr.readField? tree.first.doc (tree :: trees)) := by
  obtain ⟨last, htag, hline⟩ := tagAt_eq h
  have hlast := last.2
  rw [readField?, htag, except_ok_bind, TypeExpr.readField?, docOf_eq h]
  dsimp only
  rcases hparts : (splitTag (tree :: trees)).2 with _ | ⟨first, rest⟩
  · rw [hparts] at hline
    rw [if_pos (hline.eq_nil_iff.1 rfl)]
    rfl
  rw [hparts] at hline
  have hne : ¬ last.1 = i := fun heq => by simpa using hline.eq_nil_iff.2 heq
  rw [if_neg hne, embedsAt_eq hline, except_ok_bind, List.isEmpty_cons, if_neg Bool.false_ne_true]
  split
  · obtain ⟨next, hread⟩ := ih (by omega) hline
    rw [hread]
    rfl
  · obtain ⟨behind, hnames, hrest⟩ := namesFrom_eq hline (Nat.le_refl i)
    have hbehind := behind.2
    obtain ⟨next, hread⟩ := ih (by omega) hrest
    rw [hnames, except_ok_bind, hread]
    rfl

theorem readFields_eq {body : List Tree} (hn : stop - i ≤ n) (h : Spans code i stop body) :
    readFields code i stop = .ok (TypeExpr.readFields body) := by
  obtain ⟨ranges, hranges, hholds⟩ := statements_split h
  have hfields : ranges.mapM (fun range => readField? code range.first range.last) =
      .ok ((Statement.split body).map fun s => TypeExpr.readField? s.head.first.doc s.trees) := by
    refine mapM_eq_ok_iff.2 (List.forall₂_map_right_iff.2 (hholds.imp fun range s hs => ?_))
    have hstart := range.start_le
    have hlast := range.last_le
    exact readField?_eq ih (by omega) hs.spans
  rw [readFields, hranges, except_ok_bind, hfields, except_ok_bind, TypeExpr.readFields_eq,
    List.filterMap_map]
  rfl

variable {token : Code} (hn : stop - i ≤ n + 1)
include hn

/-- A type that starts with a bracket. -/
theorem readType_group {opening closing : Code} {body : List Tree}
    (h : Spans code i stop (.group opening body closing :: trees)) :
    ∃ next, readType code i stop =
      .ok ((TypeExpr.read (.group opening body closing :: trees)).1, next) := by
  obtain ⟨close, hpairs⟩ := h.group
  have hlt := hpairs.lt
  have hclose := hpairs.close_lt
  have hkinds : opening.kind = .leftBracket ∨ opening.kind = .leftParen ∨ opening.kind = .leftBrace := by
    have hopens := hpairs.opens
    cases hkind : opening.kind <;> simp_all [TokenKind.isOpening]
  rw [readType, if_pos (by omega), tokenAt_eq hpairs.first, except_ok_bind, TypeExpr.read.eq_def]
  rcases hkinds with hkind | hkind | hkind
  · obtain ⟨next, hread⟩ := ih (by omega) hpairs.behind
    simp only [hkind]
    rw [matching_eq hpairs, except_ok_bind, hread, except_ok_bind]
    refine ⟨next, ?_⟩
    by_cases hempty : body = []
    · rw [if_pos (hpairs.inside.eq_nil_iff.1 hempty), if_pos (by simp [hempty])]
      rfl
    · rw [if_neg (fun heq => hempty (hpairs.inside.eq_nil_iff.2 heq)), if_neg (by simp [hempty])]
      rfl
  · obtain ⟨next, hread⟩ := ih (by omega) hpairs.inside
    simp only [hkind]
    rw [matching_eq hpairs, except_ok_bind, hread, except_ok_bind]
    exact ⟨close + 1, rfl⟩
  · simp only [hkind]
    exact ⟨i + 1, rfl⟩

/-- A type that starts with a word other than `func` and `chan`. -/
theorem readType_word (h : Spans code i stop (.leaf token :: trees)) (hkind : token.kind = .identifier)
    (hfunc : token.text ≠ "func") (hchan : token.text ≠ "chan") :
    ∃ next, readType code i stop = .ok ((TypeExpr.read (.leaf token :: trees)).1, next) := by
  obtain ⟨hlt, htoken, hrest⟩ := h.leaf
  rw [readType, if_pos hlt, tokenAt_eq htoken, except_ok_bind]
  simp only [hkind]
  rw [if_neg hfunc, if_neg hchan, tokenBefore?_eq hrest, except_ok_bind]
  obtain ⟨next, hname⟩ := nameAt_eq token.text hrest
  rcases trees with _ | ⟨other | ⟨opening, body, closing⟩, rest⟩
  · rw [TypeExpr.read_word hkind hfunc hchan (by simp)]
    simp only [List.head?_nil, Option.map_none, Option.any_none, Bool.and_false, Bool.false_eq_true,
      if_false]
    exact ⟨next, hname⟩
  · have hbracket : other.kind ≠ .leftBracket := hrest.leaf_ne rfl
    have hbrace : other.kind ≠ .leftBrace := hrest.leaf_ne rfl
    rw [TypeExpr.read_word hkind hfunc hchan (by simp)]
    simp only [List.head?_cons, Option.map_some, Option.any_some, Tree.first, hbracket, hbrace,
      decide_false, Bool.and_false, Bool.false_eq_true, if_false]
    exact ⟨next, hname⟩
  · rw [TypeExpr.read_wordGroup hkind hfunc hchan]
    obtain ⟨close, hpairs⟩ := hrest.group
    have hclose := hpairs.lt
    have hstop := hpairs.close_lt
    rw [List.head?_cons, Option.map_some, Option.any_some, Option.any_some, Tree.first]
    by_cases hmap : (decide (token.text = "map") && decide (opening.kind = .leftBracket)) = true
    · obtain ⟨key, hkey⟩ := ih (by omega) hpairs.inside
      obtain ⟨next, hvalue⟩ := ih (by omega) hpairs.behind
      rw [if_pos hmap, if_pos hmap, matching_eq hpairs, except_ok_bind, hkey, except_ok_bind, hvalue]
      exact ⟨next, rfl⟩
    rw [if_neg hmap, if_neg hmap]
    by_cases hstruct : (decide (token.text = "struct") && decide (opening.kind = .leftBrace)) = true
    · rw [if_pos hstruct, if_pos hstruct, matching_eq hpairs, except_ok_bind,
        readFields_eq ih (by omega) hpairs.inside]
      exact ⟨close + 1, rfl⟩
    rw [if_neg hstruct, if_neg hstruct, matching_eq hpairs]
    split
    · exact ⟨close + 1, rfl⟩
    · exact ⟨next, hname⟩

/-- A type that starts with a token other than a bracket. -/
theorem readType_leaf (h : Spans code i stop (.leaf token :: trees)) :
    ∃ next, readType code i stop = .ok ((TypeExpr.read (.leaf token :: trees)).1, next) := by
  obtain ⟨hlt, htoken, hrest⟩ := h.leaf
  by_cases hword : token.kind = .identifier ∧ token.text ≠ "func" ∧ token.text ≠ "chan"
  · exact readType_word ih hn h hword.1 hword.2.1 hword.2.2
  rw [readType, if_pos hlt, tokenAt_eq htoken, except_ok_bind]
  by_cases hstar : token.kind = .star
  · obtain ⟨next, hread⟩ := ih (by omega) hrest
    simp only [hstar]
    rw [hread, TypeExpr.read_star hstar]
    exact ⟨next, rfl⟩
  by_cases hoperator : token.kind = .operator
  · simp only [hoperator]
    rw [TypeExpr.read_operator hoperator]
    split
    · obtain ⟨found, hfound, hdrop⟩ := textAt_drop hrest "chan"
      obtain ⟨next, hread⟩ := ih (by split <;> omega) hdrop
      rw [hfound, except_ok_bind, hread]
      exact ⟨next, rfl⟩
    · exact ⟨i + 1, rfl⟩
  by_cases hkind : token.kind = .identifier
  · simp only [hkind]
    by_cases hfunc : token.text = "func"
    · rw [if_pos hfunc, TypeExpr.read_func hkind hfunc]
      exact ⟨stop, rfl⟩
    · have hchan : token.text = "chan" := by
        by_contra hchan
        exact hword ⟨hkind, hfunc, hchan⟩
      obtain ⟨found, hfound, hdrop⟩ := textAt_drop hrest "<-"
      obtain ⟨next, hread⟩ := ih (by split <;> omega) hdrop
      rw [if_neg hfunc, if_pos hchan, hfound, except_ok_bind, hread, TypeExpr.read_chan hkind hchan]
      exact ⟨next, rfl⟩
  · rw [TypeExpr.read_leaf hstar hoperator hkind]
    have hbracket : token.kind ≠ .leftBracket := h.leaf_ne rfl
    have hparen : token.kind ≠ .leftParen := h.leaf_ne rfl
    refine ⟨i + 1, ?_⟩
    simp only
    rfl

end Reads

theorem reads (n : Nat) : Reads code n := by
  induction n with
  | zero =>
    intro trees i stop hn h
    have hle := h.le
    obtain rfl := h.eq_nil_iff.2 (by omega)
    rw [readType, if_neg (by omega), TypeExpr.read]
    exact ⟨i, rfl⟩
  | succ n ih =>
    intro trees i stop hn h
    rcases trees with _ | ⟨token | ⟨opening, body, closing⟩, trees⟩
    · rw [readType, if_neg (Nat.not_lt.2 h.eq_of_nil.ge), TypeExpr.read]
      exact ⟨i, rfl⟩
    · exact readType_leaf ih hn h
    · exact readType_group ih hn h

end ApiDocs.Source.Positions
