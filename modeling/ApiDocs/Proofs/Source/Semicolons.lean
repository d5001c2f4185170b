/-
  ApiDocs.Proofs.Source.Semicolons

  Statements by semicolons. In the language a statement ends at a semicolon, and a line end counts
  as one behind names, literals, closing brackets, `++`, `--` and four of the keywords
  (`Code.takesSemicolon`). Here keywords are names like any other, so that a line end behind every
  keyword ends a statement. Telling statements apart is splitting at semicolons with that rule in
  place of the language's; the two agree exactly where no line ends behind one of the other
  keywords, outside of brackets and with something to follow (`split_eq_semicolons_iff`).
-/

import ApiDocs.Proofs.Source.Unbalanced
import Mathlib.Data.List.Chain

namespace ApiDocs.Source

/-! ## The language's rule -/

/-- The words that are not names. -/
def keywords : List String :=
  ["break", "case", "chan", "const", "continue", "default", "defer", "else", "fallthrough", "for", "func",
    "go", "goto", "if", "import", "interface", "map", "package", "range", "return", "select", "struct",
    "switch", "type", "var"]

/-- The keywords that can stand at the end of a statement. -/
def finalKeywords : List String :=
  ["break", "continue", "fallthrough", "return"]

namespace Code

/-- The token is a keyword that something has to follow. -/
def isOpenKeyword (token : Code) : Bool :=
  token.kind = .identifier && keywords.contains token.text && !finalKeywords.contains token.text

/-- A semicolon is inserted at a line end behind this token. -/
def takesSemicolon (token : Code) : Bool :=
  match token.kind with
  | .identifier => !keywords.contains token.text || finalKeywords.contains token.text
  | .number | .string | .rawString | .rune => true
  | .rightParen | .rightBracket | .rightBrace => true
  | .operator => token.text = "++" || token.text = "--"
  | _ => false

/-- A line end ends a statement where the language has a semicolon, and behind all keywords. -/
theorem endsStatement_eq (token : Code) :
    token.endsStatement = (token.takesSemicolon || token.isOpenKeyword) := by
  rw [endsStatement, takesSemicolon, isOpenKeyword]
  cases token.kind <;> simp only [reduceCtorEq, decide_true, decide_false, Bool.true_and,
    Bool.false_and, Bool.or_false]
  generalize keywords.contains token.text = keyword, finalKeywords.contains token.text = final
  revert keyword final
  decide

theorem takesSemicolon_of_isOpenKeyword {token : Code} (h : token.isOpenKeyword = true) :
    token.takesSemicolon = false := by
  simp only [isOpenKeyword, Bool.and_eq_true, decide_eq_true_eq, Bool.not_eq_true'] at h
  obtain ⟨⟨hkind, hkeyword⟩, hfinal⟩ := h
  rw [takesSemicolon, hkind]
  simp only [hkeyword, hfinal, Bool.not_true, Bool.or_false]

end Code

/-! ## Inserting semicolons and splitting at them -/

section Split

variable (ends : Code → Bool)

/-- The semicolon at the end of the line behind a token. -/
def lineEnd (token : Code) (rest : List Code) : List (Option Code) :=
  if rest.head?.any (·.newlineBefore) && ends token then [none] else []

/-- The tokens, with a semicolon at each line end behind a token that takes one. An inserted
semicolon is no token. -/
def withSemicolons : List Code → List (Option Code)
  | [] => []
  | token :: rest => some token :: (lineEnd ends token rest ++ withSemicolons rest)

/-- The stretches between semicolons outside of brackets, some of which may be empty; `depth` is the
number of brackets that are open. -/
def splitLevel : (depth : Nat) → List (Option Code) → List (List Code)
  | _, [] => [[]]
  | depth, none :: rest =>
    if depth = 0 then [] :: splitLevel depth rest else splitLevel depth rest
  | depth, some token :: rest =>
    if token.kind = .semicolon ∧ depth = 0 then
      [] :: splitLevel depth rest
    else
      (splitLevel (depth + token.weight).toNat rest).modifyHead (token :: ·)

/-- The statements of code by its semicolons. -/
def semicolonSplit (code : List Code) : List (List Code) :=
  (splitLevel 0 (withSemicolons ends code)).filter (!·.isEmpty)

end Split

/-! ## Inside of brackets -/

namespace Tree

variable {ends : Code → Bool}

/-- Inside of brackets, inserted semicolons do not matter. -/
theorem splitLevel_lineEnd (depth : Nat) (token : Code) (rest : List Code) (more : List (Option Code)) :
    splitLevel (depth + 1) (lineEnd ends token rest ++ more) = splitLevel (depth + 1) more := by
  rw [lineEnd]
  split
  · rw [List.singleton_append, splitLevel, if_neg (Nat.succ_ne_zero depth)]
  · rfl

/-- A token that is no semicolon outside of brackets belongs to the stretch that follows. -/
theorem splitLevel_token {depth depth' : Nat} {token : Code} (rest : List Code)
    (hnot : ¬ (token.kind = .semicolon ∧ depth = 0)) (hdepth : (depth' : Int) = depth + token.weight) :
    splitLevel depth (withSemicolons ends (token :: rest)) =
      (splitLevel depth' (lineEnd ends token rest ++ withSemicolons ends rest)).modifyHead (token :: ·) := by
  rw [withSemicolons, splitLevel, if_neg hnot, ← hdepth, Int.toNat_natCast]

theorem modifyHead_append (front back : List Code) (pieces : List (List Code)) :
    (pieces.modifyHead (back ++ ·)).modifyHead (front ++ ·) = pieces.modifyHead ((front ++ back) ++ ·) := by
  cases pieces with
  | nil => rfl
  | cons piece rest => simp

/-- Trees inside of brackets whose tokens belong to the stretch that follows. -/
theorem splitLevel_listCodes {depth : Nat} {trees : List Tree}
    (h : ∀ tree ∈ trees, ∀ rest, splitLevel (depth + 1) (withSemicolons ends (codes tree ++ rest)) =
      (splitLevel (depth + 1) (withSemicolons ends rest)).modifyHead (codes tree ++ ·))
    (rest : List Code) :
    splitLevel (depth + 1) (withSemicolons ends (listCodes trees ++ rest)) =
      (splitLevel (depth + 1) (withSemicolons ends rest)).modifyHead (listCodes trees ++ ·) := by
  induction trees with
  | nil =>
    rw [listCodes, List.nil_append]
    cases splitLevel (depth + 1) (withSemicolons ends rest) <;> rfl
  | cons tree trees ih =>
    obtain ⟨htree, htrees⟩ := List.forall_mem_cons.1 h
    rw [listCodes, List.append_assoc, htree, ih htrees, modifyHead_append]

/-- From its opening bracket to its closing one, a group belongs to one stretch. -/
theorem splitLevel_group {depth : Nat} {opening closing : Code} {body : List Tree}
    (hopening : opening.kind.isOpening = true) (hclosing : closing.kind.isClosing = true)
    (h : ∀ tree ∈ body, ∀ rest, splitLevel (depth + 1) (withSemicolons ends (codes tree ++ rest)) =
      (splitLevel (depth + 1) (withSemicolons ends rest)).modifyHead (codes tree ++ ·))
    (rest : List Code) :
    splitLevel depth (withSemicolons ends (codes (.group opening body closing) ++ rest)) =
      (splitLevel depth (lineEnd ends closing rest ++ withSemicolons ends rest)).modifyHead
        (codes (.group opening body closing) ++ ·) := by
  have hopen : ¬ (opening.kind = .semicolon ∧ depth = 0) := fun hkind =>
    TokenKind.ne_of_isOpening hopening rfl hkind.1
  have hclose : ¬ (closing.kind = .semicolon ∧ depth + 1 = 0) := fun hkind =>
    TokenKind.ne_of_isClosing hclosing rfl hkind.1
  have hin : ((depth + 1 : Nat) : Int) = depth + opening.weight := by
    rw [Code.weight_opening hopening]
    omega
  have hout : (depth : Int) = (depth + 1 : Nat) + closing.weight := by
    rw [Code.weight_closing hclosing]
    omega
  rw [codes, List.append_assoc, List.cons_append, splitLevel_token _ hopen hin, splitLevel_lineEnd,
    splitLevel_listCodes h, List.singleton_append, splitLevel_token _ hclose hout]
  generalize splitLevel depth (lineEnd ends closing rest ++ withSemicolons ends rest) = pieces
  cases pieces with
  | nil => rfl
  | cons piece rest => simp

/-- Inside of brackets, no semicolon ends a stretch. -/
theorem Balanced.splitLevel_inside {tree : Tree} (h : tree.Balanced) (depth : Nat) (rest : List Code) :
    splitLevel (depth + 1) (withSemicolons ends (codes tree ++ rest)) =
      (splitLevel (depth + 1) (withSemicolons ends rest)).modifyHead (codes tree ++ ·) := by
  induction h generalizing depth rest with
  | @leaf token hopening hclosing =>
    have hdepth : ((depth + 1 : Nat) : Int) = (depth + 1 : Nat) + token.weight := by
      rw [Code.weight_other hopening hclosing, Int.add_zero]
    rw [codes, List.singleton_append, splitLevel_token _ (fun hkind => Nat.succ_ne_zero _ hkind.2) hdepth,
      splitLevel_lineEnd]
    rfl
  | group hopening hclosing _ ih =>
    rw [splitLevel_group hopening hclosing fun tree htree => ih tree htree (depth + 1),
      splitLevel_lineEnd]

/-- Outside of brackets, a tree that is no semicolon belongs to one stretch, which ends behind it if
its line does and its last token takes a semicolon. -/
theorem Balanced.splitLevel_outside {tree : Tree} (h : tree.Balanced)
    (hsemicolon : tree.isLeaf .semicolon = false) (rest : List Code) :
    splitLevel 0 (withSemicolons ends (codes tree ++ rest)) =
      (splitLevel 0 (lineEnd ends tree.last rest ++ withSemicolons ends rest)).modifyHead
        (codes tree ++ ·) := by
  cases h with
  | @leaf token hopening hclosing =>
    have hdepth : ((0 : Nat) : Int) = (0 : Nat) + token.weight := by
      rw [Code.weight_other hopening hclosing, Int.add_zero]
    have hnot : ¬ (token.kind = .semicolon ∧ 0 = 0) := fun hkind =>
      of_decide_eq_false hsemicolon hkind.1
    rw [codes, List.singleton_append, splitLevel_token _ hnot hdepth]
    rfl
  | group hopening hclosing hbody =>
    exact splitLevel_group hopening hclosing (fun tree htree => (hbody tree htree).splitLevel_inside 0) rest

end Tree

/-! ## Statements of trees -/

section Stretches

variable (ends : Code → Bool)

/-- The tree that follows `t` belongs to the same stretch. -/
def joinsUnder (t : Tree) : Option Tree → Bool
  | none => false
  | some next => !next.isLeaf .semicolon && !(next.first.newlineBefore && ends t.last)

/-- The stretches of tokens that trees make up between semicolons. -/
def stretches : List Tree → List (List Code)
  | [] => []
  | t :: ts =>
    if t.isLeaf .semicolon then
      stretches ts
    else if joinsUnder ends t ts.head? then
      (stretches ts).modifyHead (t.codes ++ ·)
    else
      t.codes :: stretches ts

variable {ends}

theorem Tree.codes_ne_nil (t : Tree) : t.codes ≠ [] := by
  cases t with
  | leaf | group => simp [codes]

/-- A tree that is no semicolon starts a stretch. -/
theorem stretches_cons (ts : List Tree) {t : Tree} (ht : t.isLeaf .semicolon = false) :
    ∃ more rest, stretches ends (t :: ts) = (t.codes ++ more) :: rest := by
  induction ts generalizing t with
  | nil => exact ⟨[], [], by simp [stretches, ht, joinsUnder]⟩
  | cons next ts ih =>
    rw [stretches, if_neg (by simp [ht])]
    split
    · rename_i hjoins
      have hnext : next.isLeaf .semicolon = false := by
        simp only [List.head?_cons, joinsUnder, Bool.and_eq_true, Bool.not_eq_true'] at hjoins
        exact hjoins.1
      obtain ⟨more, rest, hstretches⟩ := ih hnext
      exact ⟨next.codes ++ more, rest, by rw [hstretches]; rfl⟩
    · exact ⟨[], _, by rw [List.append_nil]⟩

/-- Trees are told apart into stretches, with the rule for line ends that statements have. -/
theorem map_split_eq_stretches (trees : List Tree) :
    (Statement.split trees).map (fun s => Tree.listCodes s.trees) = stretches Code.endsStatement trees := by
  induction trees with
  | nil => rfl
  | cons t ts ih =>
    have hjoins : Statement.joins t ts.head? = joinsUnder Code.endsStatement t ts.head? := by
      cases ts.head? <;> rfl
    rw [Statement.split, stretches, ← ih, hjoins]
    split
    · rfl
    split
    · rename_i hjoins
      cases hsplit : Statement.split ts with
      | cons s rest => simp [Statement.trees, Tree.listCodes]
      | nil =>
        -- the tree that is joined would start a statement
        cases ts with
        | nil => cases hjoins
        | cons next ts =>
          simp only [List.head?_cons, joinsUnder, Bool.and_eq_true, Bool.not_eq_true'] at hjoins
          obtain ⟨more, rest, hstretches⟩ : ∃ more rest,
              stretches Code.endsStatement (next :: ts) = (next.codes ++ more) :: rest :=
            stretches_cons ts hjoins.1
          rw [hsplit, hstretches] at ih
          cases ih
    · simp [Statement.trees, Tree.listCodes]

theorem splitLevel_ne_nil (depth : Nat) (tokens : List (Option Code)) : splitLevel depth tokens ≠ [] := by
  fun_induction splitLevel depth tokens with
  | case1 | case2 | case4 => simp
  | case3 _ _ _ ih => exact ih
  | case5 _ _ _ _ ih => simpa [List.modifyHead_eq_nil_iff] using ih

/-- The first stretch is empty where a semicolon or nothing comes first. -/
theorem exists_splitLevel_listCodes {ts : List Tree} (h : ∀ tree ∈ ts, tree.Balanced) :
    ∃ first rest, splitLevel 0 (withSemicolons ends (Tree.listCodes ts)) = first :: rest ∧
      first.isEmpty = ts.head?.all (·.isLeaf .semicolon) := by
  cases ts with
  | nil => exact ⟨[], [], rfl, rfl⟩
  | cons next ts =>
    obtain ⟨hnext, -⟩ := List.forall_mem_cons.1 h
    rw [Tree.listCodes]
    cases hsemicolon : next.isLeaf .semicolon with
    | true =>
      obtain ⟨token, rfl, hkind⟩ := Tree.eq_leaf_of_isLeaf hsemicolon
      rw [Tree.codes, List.singleton_append, withSemicolons, splitLevel, if_pos ⟨hkind, rfl⟩]
      exact ⟨[], _, rfl, by simp [hsemicolon]⟩
    | false =>
      rw [hnext.splitLevel_outside hsemicolon]
      obtain ⟨first, rest, hfirst⟩ := List.exists_cons_of_ne_nil (splitLevel_ne_nil 0
        (lineEnd ends next.last (Tree.listCodes ts) ++ withSemicolons ends (Tree.listCodes ts)))
      rw [hfirst]
      exact ⟨_, _, rfl, by simp [hsemicolon, next.codes_ne_nil]⟩

theorem head?_listCodes (ts : List Tree) : (Tree.listCodes ts).head? = ts.head?.map Tree.first := by
  cases ts with
  | nil => rfl
  | cons t ts => cases t <;> rfl

theorem joinsUnder_eq (t : Tree) (next : Option Tree) :
    joinsUnder ends t next =
      (!next.all (·.isLeaf .semicolon) && !(next.any (·.first.newlineBefore) && ends t.last)) := by
  cases next <;> rfl

/-- Splitting tokens at semicolons gives the stretches of their trees. -/
theorem semicolonSplit_listCodes {trees : List Tree} (h : ∀ tree ∈ trees, tree.Balanced) :
    semicolonSplit ends (Tree.listCodes trees) = stretches ends trees := by
  induction trees with
  | nil => rfl
  | cons t ts ih =>
    obtain ⟨ht, hts⟩ := List.forall_mem_cons.1 h
    obtain ⟨first, rest, hfirst, hempty⟩ : ∃ first rest,
        splitLevel 0 (withSemicolons ends (Tree.listCodes ts)) = first :: rest ∧
          first.isEmpty = ts.head?.all (·.isLeaf .semicolon) := exists_splitLevel_listCodes hts
    have hrest : (first :: rest).filter (!·.isEmpty) = stretches ends ts := by
      rw [← hfirst]
      exact ih hts
    rw [semicolonSplit, Tree.listCodes, stretches, joinsUnder_eq, ← hempty]
    cases hsemicolon : t.isLeaf .semicolon with
    | true =>
      obtain ⟨token, rfl, hkind⟩ := Tree.eq_leaf_of_isLeaf hsemicolon
      rw [Tree.codes, List.singleton_append, withSemicolons, splitLevel, if_pos ⟨hkind, rfl⟩, if_pos rfl,
        lineEnd]
      -- a line end behind the semicolon adds another empty stretch
      split
      · simp [splitLevel, hfirst, hrest]
      · simp [hfirst, hrest]
    | false =>
      rw [ht.splitLevel_outside hsemicolon, lineEnd, head?_listCodes, Option.any_map, if_neg Bool.false_ne_true]
      cases ts.head?.any (·.first.newlineBefore) && ends t.last with
      | true => simp [splitLevel, hfirst, hrest, t.codes_ne_nil]
      | false =>
        rw [if_neg Bool.false_ne_true, List.nil_append, hfirst, ← hrest]
        cases first with
        | nil => simp [t.codes_ne_nil]
        | cons token first => simp

/-! ## Two rules -/

theorem modifyHead_append_inj {front : List Code} {pieces pieces' : List (List Code)} :
    pieces.modifyHead (front ++ ·) = pieces'.modifyHead (front ++ ·) ↔ pieces = pieces' := by
  cases pieces <;> cases pieces' <;> simp

/-- What follows a tree in its stretch makes the stretch longer. -/
theorem modifyHead_stretches_ne {t : Tree} {ts : List Tree} (h : joinsUnder ends t ts.head? = true)
    (rest : List (List Code)) : (stretches ends ts).modifyHead (t.codes ++ ·) ≠ t.codes :: rest := by
  cases ts with
  | nil => cases h
  | cons next ts =>
    simp only [List.head?_cons, joinsUnder, Bool.and_eq_true, Bool.not_eq_true'] at h
    obtain ⟨more, others, hstretches⟩ := stretches_cons ts h.1
    rw [hstretches]
    simp [next.codes_ne_nil]

/-- Two rules for line ends tell the same stretches apart if and only if they join the same trees. -/
theorem stretches_eq_iff {ends' : Code → Bool} {trees : List Tree} :
    stretches ends trees = stretches ends' trees ↔
      trees.IsChain fun t next => t.isLeaf .semicolon = false →
        joinsUnder ends t (some next) = joinsUnder ends' t (some next) := by
  induction trees with
  | nil => simp [stretches]
  | cons t ts ih =>
    rw [List.isChain_cons, ← ih, stretches, stretches]
    cases hsemicolon : t.isLeaf .semicolon with
    | true => simp
    | false =>
      have hnext : (∀ next ∈ ts.head?, false = false →
          joinsUnder ends t (some next) = joinsUnder ends' t (some next)) ↔
          joinsUnder ends t ts.head? = joinsUnder ends' t ts.head? := by
        cases ts.head? with
        | none => simp [joinsUnder]
        | some next => simp
      rw [hnext, if_neg Bool.false_ne_true, if_neg Bool.false_ne_true]
      cases hjoins : joinsUnder ends t ts.head? <;> cases hjoins' : joinsUnder ends' t ts.head?
      · simp
      · simpa using (modifyHead_stretches_ne hjoins' _).symm
      · simpa using modifyHead_stretches_ne hjoins _
      · simp [modifyHead_append_inj]

end Stretches

/-! ## Tokens outside of brackets -/

namespace Tree

theorem getLast?_codes (t : Tree) : t.codes.getLast? = some t.last := by
  cases t with
  | leaf token => rfl
  | group opening body closing => simp [codes, last, List.getLast?_cons]

theorem Balanced.depthAt_length {t : Tree} (h : t.Balanced) : depthAt t.codes t.codes.length = 0 := by
  have hnested : Nested (listCodes [t]) := nested_iff_ofCode.2 ⟨[t], ofCode_listCodes (by simpa using h)⟩
  simpa [listCodes] using hnested.2

/-- Between the tokens of a tree there is an open bracket. -/
theorem Balanced.depthAt_pos {t : Tree} (h : t.Balanced) {k : Nat} (hk : k + 1 < t.codes.length) :
    0 < depthAt t.codes (k + 1) := by
  cases h with
  | leaf => simp [codes] at hk
  | @group opening closing body hopening hclosing hbody =>
    have hle : k ≤ (listCodes body).length := by
      simp only [codes, List.length_cons, List.length_append, List.length_nil] at hk
      omega
    have hrises := rises_listCodes hbody k hle
    rw [codes, List.cons_append, depthAt_cons, Code.weight_opening hopening, depthAt_append_of_le _ hle]
    omega

end Tree

/-- What the code has outside of brackets: each token there and the next one. -/
def Outside (P : Code → Code → Prop) (code : List Code) : Prop :=
  ∀ k token next, code[k]? = some token → code[k + 1]? = some next → depthAt code (k + 1) = 0 → P token next

theorem outside_codes_append {P : Code → Code → Prop} {t : Tree} (h : t.Balanced) (rest : List Code) :
    Outside P (t.codes ++ rest) ↔ (∀ next ∈ rest.head?, P t.last next) ∧ Outside P rest := by
  obtain ⟨front, hcodes⟩ : ∃ front, t.codes = front ++ [t.last] :=
    List.getLast?_eq_some_iff.1 t.getLast?_codes
  have hlength : t.codes.length = front.length + 1 := by simp [hcodes]
  have hlast : (t.codes ++ rest)[front.length]? = some t.last := by simp [hcodes]
  have hdepth : ∀ k, depthAt (t.codes ++ rest) (t.codes.length + k) = depthAt rest k := by
    intro k
    rw [depthAt_append, h.depthAt_length, Int.zero_add]
  have hrest : ∀ k, (t.codes ++ rest)[t.codes.length + k]? = rest[k]? := by
    intro k
    rw [List.getElem?_append_right (Nat.le_add_right _ _), Nat.add_sub_cancel_left]
  constructor
  · intro houtside
    refine ⟨fun next hnext => ?_, fun k token next htoken hnext hzero => ?_⟩
    · refine houtside front.length t.last next hlast ?_ ?_
      · rw [← hlength, ← Nat.add_zero t.codes.length, hrest, ← List.head?_eq_getElem?]
        exact hnext
      · rw [← hlength, ← Nat.add_zero t.codes.length, hdepth]
        rfl
    · exact houtside (t.codes.length + k) token next (by rwa [hrest])
        (by rwa [Nat.add_assoc, hrest]) (by rwa [Nat.add_assoc, hdepth])
  · rintro ⟨hnext, houtside⟩ k token next htoken hfollows hzero
    -- the two tokens belong to the tree, where they would be inside of brackets, or the first is
    -- its last one, or both stand behind it
    rcases Nat.lt_trichotomy (k + 1) t.codes.length with hlt | heq | hgt
    · have hpos := h.depthAt_pos hlt
      rw [depthAt_append_of_le rest (Nat.le_of_lt hlt)] at hzero
      omega
    · obtain rfl : k = front.length := by omega
      obtain rfl : t.last = token := Option.some.inj (hlast.symm.trans htoken)
      rw [heq, ← Nat.add_zero t.codes.length, hrest, ← List.head?_eq_getElem?] at hfollows
      exact hnext next hfollows
    · obtain ⟨j, rfl⟩ : ∃ j, k = t.codes.length + j := ⟨k - t.codes.length, by omega⟩
      rw [hrest] at htoken
      rw [Nat.add_assoc, hrest] at hfollows
      rw [Nat.add_assoc, hdepth] at hzero
      exact houtside j token next htoken hfollows hzero

/-- The tokens next to each other outside of brackets are the last of a tree and the first of the
next. -/
theorem outside_listCodes {P : Code → Code → Prop} {trees : List Tree} (h : ∀ tree ∈ trees, tree.Balanced) :
    Outside P (Tree.listCodes trees) ↔ trees.IsChain fun t next => P t.last next.first := by
  induction trees with
  | nil => simp [Outside, Tree.listCodes]
  | cons t ts ih =>
    obtain ⟨ht, hts⟩ := List.forall_mem_cons.1 h
    rw [Tree.listCodes, outside_codes_append ht, ih hts, List.isChain_cons, head?_listCodes]
    simp

/-! ## Agreement -/

theorem Tree.Balanced.isLeaf_semicolon_iff {t : Tree} (h : t.Balanced) :
    t.isLeaf .semicolon = true ↔ t.first.kind = .semicolon := by
  cases h with
  | leaf => exact decide_eq_true_iff
  | group hopening =>
    refine ⟨fun hleaf => (by cases hleaf), fun hkind => ?_⟩
    exact absurd hkind (TokenKind.ne_of_isOpening hopening rfl)

/-- Two trees are joined by the language's rule as they are here, unless a line ends between them
behind a keyword that something has to follow. -/
theorem joinsUnder_eq_iff {t next : Tree} (hnext : next.Balanced) :
    (t.isLeaf .semicolon = false →
      joinsUnder Code.endsStatement t (some next) = joinsUnder Code.takesSemicolon t (some next)) ↔
    (t.last.isOpenKeyword = true → next.first.newlineBefore = true → next.first.kind = .semicolon) := by
  rw [joinsUnder, joinsUnder, Code.endsStatement_eq, ← hnext.isLeaf_semicolon_iff]
  cases hkeyword : t.last.isOpenKeyword with
  | false => simp
  | true =>
    have ht : t.isLeaf .semicolon = false := by
      rw [← Bool.not_eq_true]
      intro hleaf
      obtain ⟨token, rfl, hkind⟩ := Tree.eq_leaf_of_isLeaf hleaf
      simp [Tree.last, Code.isOpenKeyword, hkind] at hkeyword
    rw [Code.takesSemicolon_of_isOpenKeyword hkeyword, ht]
    cases next.isLeaf .semicolon <;> cases next.first.newlineBefore <;> simp

/-- **Statements are told apart as in the language, but for line ends behind keywords.** Code whose
brackets nest is split into statements at the semicolons outside of brackets, where a line end counts
as a semicolon behind each token that takes one and behind each keyword. That is the language's own
split if and only if no line ends, outside of brackets, behind a keyword that something has to follow,
unless a semicolon comes next. -/
theorem Statement.split_eq_semicolons_iff (code : List Code)
    (hnested : (∀ k ≤ code.length, 0 ≤ depthAt code k) ∧ depthAt code code.length = 0) :
    ∃ statements, topLevel code = .ok statements ∧
      statements.map (fun s => Tree.listCodes s.trees) =
        semicolonSplit (fun token => token.takesSemicolon || token.isOpenKeyword) code ∧
      (statements.map (fun s => Tree.listCodes s.trees) = semicolonSplit Code.takesSemicolon code ↔
        ∀ k token next, code[k]? = some token → code[k + 1]? = some next → depthAt code (k + 1) = 0 →
          token.isOpenKeyword = true → next.newlineBefore = true → next.kind = .semicolon) := by
  obtain ⟨trees, htrees⟩ := nested_iff_ofCode.1 hnested
  have hbalanced : ∀ tree ∈ trees, tree.Balanced := Tree.balanced_of_build htrees (by simp) (by simp)
  have hcode : Tree.listCodes trees = code := Tree.listCodes_of_ofCode htrees
  have hrule : Code.endsStatement = fun token => token.takesSemicolon || token.isOpenKeyword :=
    funext Code.endsStatement_eq
  refine ⟨Statement.split trees, by rw [topLevel, htrees], ?_, ?_⟩
  · rw [map_split_eq_stretches, ← semicolonSplit_listCodes hbalanced, hcode, hrule]
  · rw [map_split_eq_stretches, ← hcode, semicolonSplit_listCodes hbalanced, stretches_eq_iff]
    refine Iff.trans (List.IsChain.iff_of_mem_imp fun t next _ hnext => ?_) (outside_listCodes hbalanced).symm
    exact joinsUnder_eq_iff (hbalanced next hnext)

/-- A line ends behind the word `type`, so that the declaration comes apart into the word and the
rest; the language has one statement there. The line end in the parentheses is no such place, nor is
the one behind `return`. -/
theorem Statement.split_eq_semicolons_iff_brokenLine :
    let token (text : String) (kind : TokenKind) (newlineBefore : Bool) : Code :=
      { kind, text, line := 1, newlineBefore, doc := none }
    let word := token "type" .identifier false
    let body := [token "T" .identifier true, token "(" .leftParen false, token "func" .identifier false,
      token ")" .rightParen true, token "return" .identifier false]
    let rest := [token "x" .identifier true]
    (∃ statements, topLevel (word :: body ++ rest) = .ok statements ∧
      statements.map (fun s => Tree.listCodes s.trees) = [[word], body, rest] ∧
      statements.map (fun s => Tree.listCodes s.trees) ≠
        semicolonSplit Code.takesSemicolon (word :: body ++ rest)) ∧
    semicolonSplit Code.takesSemicolon (word :: body ++ rest) = [word :: body, rest] ∧
    ∃ statements, topLevel (body ++ rest) = .ok statements ∧
      statements.map (fun s => Tree.listCodes s.trees) =
        semicolonSplit Code.takesSemicolon (body ++ rest) := by
  intro token word body rest
  obtain ⟨statements, htop, hsplit, hiff⟩ :=
    split_eq_semicolons_iff (word :: body ++ rest) ⟨by decide, by decide⟩
  obtain ⟨statements', htop', -, hiff'⟩ := split_eq_semicolons_iff (body ++ rest) ⟨by decide, by decide⟩
  refine ⟨⟨statements, htop, hsplit.trans (by decide), fun heq => ?_⟩, by decide,
    statements', htop', hiff'.2 ?_⟩
  · have hkind := hiff.1 heq 0 word (token "T" .identifier true) rfl rfl (by decide) (by decide) rfl
    cases hkind
  · have hopen : ∀ k < 6, depthAt (body ++ rest) (k + 1) = 0 →
        (body ++ rest)[k]?.any Code.isOpenKeyword = false := by
      decide
    intro k token next htoken _ hdepth hkeyword
    have hk : k < 6 := (List.getElem?_eq_some_iff.1 htoken).1
    have hclosed := hopen k hk hdepth
    rw [htoken, Option.any_some, hkeyword] at hclosed
    cases hclosed

end ApiDocs.Source
