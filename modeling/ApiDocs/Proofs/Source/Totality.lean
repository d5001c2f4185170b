/-
  ApiDocs.Proofs.Source.Totality

  Reading a unit is total behind the split into statements. Where a stretch of code holds the
  tokens of trees, the readers of imports, types and functions by positions return what the readers
  of these trees do, down to the line of an error, and with what counting does elsewhere all units
  are read alike (`Positions.readUnit_eq`). Behind the split, the only errors are a missing import
  path, a missing type name and a missing package clause. So brackets are refused where the
  statements of a unit are told apart and nowhere else, and no position that is read lies outside of
  the code (`SourceUnit.brackets_fail_only_in_split`).
-/

import ApiDocs.Proofs.Source.Agreement
import ApiDocs.Proofs.Source.Insides
import ApiDocs.Proofs.Source.Unbalanced

namespace ApiDocs.Source

namespace Positions

variable {code : List Code} {start stop i : Nat} {trees : List Tree}

/-! ## Imports -/

theorem splitName_eq (h : Spans code i stop trees) :
    ((trees.head?.map Tree.first).filter fun token =>
        token.kind = .identifier || token.kind = .dot).map (·.text) = (Import.splitName trees).1 ∧
      Spans code (if (Import.splitName trees).1.isSome then i + 1 else i) stop
        (Import.splitName trees).2 := by
  rcases trees with _ | ⟨token | ⟨opening, body, closing⟩, trees⟩
  · exact ⟨rfl, h⟩
  · rw [Import.splitName]
    split
    · rename_i hkind
      refine ⟨?_, h.leaf.2.2⟩
      rw [List.head?_cons, Option.map_some, Option.filter_some]
      exact congrArg (Option.map _) (if_pos hkind)
    · rename_i hkind
      refine ⟨?_, h⟩
      rw [List.head?_cons, Option.map_some, Option.filter_some]
      exact congrArg (Option.map _) (if_neg hkind)
  · obtain ⟨close, hpairs⟩ := h.group
    have hword : opening.kind ≠ .identifier := hpairs.opening_ne rfl
    have hdot : opening.kind ≠ .dot := hpairs.opening_ne rfl
    refine ⟨?_, h⟩
    simp [Import.splitName, Tree.first, hword, hdot]

theorem readImport_eq (h : Spans code i stop trees) :
    readImport code i stop = (Import.read (lineOf code i) trees).mapError .refused := by
  obtain ⟨hname, hpath⟩ := splitName_eq h
  rw [readImport, tokenBefore?_eq h, except_ok_bind]
  dsimp only
  rw [hname, tokenBefore?_eq hpath, except_ok_bind, Import.read]
  rcases hparts : Import.splitName trees with ⟨name, _ | ⟨token | ⟨opening, body, closing⟩, rest⟩⟩
  · rfl
  · by_cases hstring : token.kind.isString = true
    · simp only [List.head?_cons, Option.map_some, Tree.first, Option.filter_some, hstring, if_true]
      rfl
    · simp only [List.head?_cons, Option.map_some, Tree.first, Option.filter_some, hstring]
      rfl
  · rw [hparts] at hpath
    obtain ⟨close, hpairs⟩ := hpath.group
    have hstring : ¬ opening.kind.isString = true := by
      have hopens := hpairs.opens
      cases hkind : opening.kind <;> simp_all [TokenKind.isString, TokenKind.isOpening]
    simp only [List.head?_cons, Option.map_some, Tree.first, Option.filter_some, hstring]
    rfl

/-! ## Groups of declarations -/

theorem exists_pairs (h : Spans code i stop trees) {kind : TokenKind} {body : List Tree}
    (hbody : trees.head?.bind (·.body? kind) = some body) :
    ∃ opening closing close rest, trees = .group opening body closing :: rest ∧
      Pairs code i close stop opening closing body rest := by
  rcases trees with _ | ⟨token | ⟨opening, inside, closing⟩, rest⟩
  · cases hbody
  · cases hbody
  · obtain ⟨close, hpairs⟩ := h.group
    rw [List.head?_cons, Option.bind_some, Tree.body?] at hbody
    split at hbody
    · obtain rfl : inside = body := Option.some.inj hbody
      exact ⟨opening, closing, close, rest, rfl, hpairs⟩
    · cases hbody

section Groups

variable {α : Type} {single each : Nat → Nat → Except Fault α}

theorem readGroup_single (h : Spans code i stop trees)
    (hbody : trees.head?.bind (·.body? .leftParen) = none) :
    readGroup code i stop single each = (do return [← single i stop]) := by
  rw [readGroup, kindAt_group h rfl, hbody]
  rfl

/-- Inside parentheses, each statement is read. -/
theorem readGroup_each (h : Spans code i stop trees) {body : List Tree}
    (hbody : trees.head?.bind (·.body? .leftParen) = some body)
    {read : Statement → Except SyntaxError α}
    (heach : ∀ i stop s, Spans code i stop s.trees → each i stop = (read s).mapError .refused) :
    readGroup code i stop single each = ((Statement.split body).mapM read).mapError .refused := by
  obtain ⟨opening, closing, close, rest, -, hpairs⟩ := exists_pairs h hbody
  obtain ⟨ranges, hranges, hholds⟩ := statements_split hpairs.inside
  rw [readGroup, kindAt_group h rfl, hbody, except_ok_bind, Option.isSome_some, if_pos rfl,
    matching_eq hpairs, except_ok_bind, hranges, except_ok_bind]
  exact mapM_mapError hholds fun range s hs => heach _ _ _ hs.spans

end Groups

/-! ## Type declarations -/

/-- Behind the first bracket, balanced trees are passed up to a comma that is one of them. -/
theorem hasComma_listCodes {trees : List Tree} (h : ∀ tree ∈ trees, tree.Balanced) (depth : Nat)
    (rest : List Code) :
    hasComma (depth + 1) (Tree.listCodes trees ++ rest) =
      ((depth = 0 && trees.any (·.isLeaf .comma)) || hasComma (depth + 1) rest) := by
  induction hn : sizeOf trees using Nat.strongRecOn generalizing trees depth rest with
  | ind n ih =>
    subst hn
    cases trees with
    | nil => simp [Tree.listCodes]
    | cons tree trees =>
      obtain ⟨htree, htrees⟩ := List.forall_mem_cons.1 h
      cases htree with
      | @leaf token hopening hclosing =>
        have hrest := ih (sizeOf trees) (by simp) htrees depth rest rfl
        rw [Tree.listCodes, Tree.codes, List.singleton_append, List.cons_append, hasComma,
          if_neg (by simp [hopening]), if_neg (by simp [hclosing]), hrest]
        by_cases hcomma : token.kind = .comma <;> by_cases hdepth : depth = 0 <;>
          simp [Tree.isLeaf, hcomma, hdepth]
      | @group opening closing body hopening hclosing hbody =>
        have hrest := ih (sizeOf trees) (by simp) htrees depth rest rfl
        have hinside := ih (sizeOf body) (by simp; omega) hbody (depth + 1)
          (closing :: (Tree.listCodes trees ++ rest)) rfl
        have hnot := TokenKind.not_isOpening_of_isClosing hclosing
        have hcodes : Tree.listCodes (.group opening body closing :: trees) ++ rest =
            opening :: (Tree.listCodes body ++ closing :: (Tree.listCodes trees ++ rest)) := by
          simp [Tree.listCodes, Tree.codes]
        rw [hcodes, hasComma, if_pos hopening, hinside, hasComma, if_neg (by simp [hnot]),
          if_pos hclosing, if_neg (by omega), Nat.add_sub_cancel, hrest]
        simp [Tree.isLeaf]

theorem hasComma_group {opening closing : Code} {body : List Tree}
    (h : (Tree.group opening body closing).Balanced) (trees : List Tree) :
    hasComma 0 (Tree.listCodes (.group opening body closing :: trees)) = body.any (·.isLeaf .comma) := by
  cases h with
  | group hopening hclosing hbody =>
    have hnot := TokenKind.not_isOpening_of_isClosing hclosing
    have hcodes : Tree.listCodes (.group opening body closing :: trees) =
        opening :: (Tree.listCodes body ++ closing :: Tree.listCodes trees) := by
      simp [Tree.listCodes, Tree.codes]
    rw [hcodes, hasComma, if_pos hopening, hasComma_listCodes hbody, hasComma, if_neg (by simp [hnot]),
      if_pos hclosing, if_pos (Nat.le_refl 1)]
    simp

/-- The token at a position inside of a pair, where the closing bracket is behind the last tree. -/
theorem tokenBefore?_inside {close j : Nat} {closing : Code} {body : List Tree}
    (h : Spans code j close body) (hlast : code[close]? = some closing) (hclose : close < stop) :
    tokenBefore? code j stop = .ok (some ((body.head?.map Tree.first).getD closing)) := by
  cases body with
  | nil =>
    obtain rfl := h.eq_of_nil
    exact tokenBefore?_of_lt hlast hclose
  | cons tree body => exact tokenBefore?_of_lt h.first.2 (Nat.lt_trans h.first.1 hclose)

/-- The tokens behind a bracket tell whether it starts a list of type parameters. -/
theorem parametersAt_eq {close : Nat} {opening closing : Code} {body : List Tree}
    (h : Spans code i stop (.group opening body closing :: trees))
    (hpairs : Pairs code i close stop opening closing body trees) :
    parametersAt code i stop = .ok (isTypeParameters body) := by
  have htoken := tokenBefore?_inside hpairs.inside hpairs.last hpairs.close_lt
  obtain ⟨behind, hbehind⟩ := exists_tokenBefore? h.within (i + 2)
  -- without a name there are no parameters
  have hnone : ∀ token : Code, tokenBefore? code (i + 1) stop = .ok (some token) →
      token.kind ≠ .identifier → parametersAt code i stop = .ok false := by
    intro token htoken hkind
    have hname : identifierAt code (i + 1) stop = .ok none := by
      rw [identifierAt, htoken, except_ok_bind, Option.filter_some, if_neg (by simpa using hkind)]
      rfl
    rw [parametersAt, hname, except_ok_bind, hbehind]
    rfl
  rcases body with _ | ⟨name | ⟨opening', body', closing'⟩, rest⟩
  · exact hnone _ htoken (hpairs.closing_ne rfl)
  · by_cases hkind : name.kind = .identifier
    · have hname : identifierAt code (i + 1) stop = .ok (some name.text) := by
        rw [identifierAt, htoken, except_ok_bind]
        simp [Tree.first, hkind, pure, Except.pure]
      have hinside := hpairs.inside.leaf.2.2
      have hnext := tokenBefore?_inside hinside hpairs.last hpairs.close_lt
      have hcomma := hasComma_group (h.balanced _ List.mem_cons_self) trees
      rw [parametersAt, hname, except_ok_bind, hnext, except_ok_bind, tokensOf_eq h, except_ok_bind,
        hcomma]
      rcases rest with _ | ⟨next | ⟨opening', body', closing'⟩, rest⟩
      · -- the name alone is an array length
        have hcloses := hpairs.closes
        dsimp only [List.head?_nil, Option.map_none, Option.getD_none]
        cases hlast : closing.kind <;>
          simp_all [TokenKind.isClosing, isTypeParameters, pure, Except.pure]
      · have hbracket : next.kind ≠ .leftBracket := hinside.leaf_ne rfl
        dsimp only [List.head?_cons, Option.map_some, Option.getD_some, Tree.first, isTypeParameters]
        cases hnext' : next.kind <;>
          simp_all [Tree.isLeaf, pure, Except.pure]
      · obtain ⟨close', hpairs'⟩ := hinside.group
        have hopens := hpairs'.opens
        dsimp only [List.head?_cons, Option.map_some, Option.getD_some, Tree.first, isTypeParameters]
        cases hnext' : opening'.kind <;>
          simp_all [TokenKind.isOpening, pure, Except.pure]
    · rw [hnone _ htoken hkind]
      cases rest with
      | nil => rfl
      | cons next rest => simp [isTypeParameters, hkind]
  · obtain ⟨close', hpairs'⟩ := hpairs.inside.group
    exact hnone _ htoken (hpairs'.opening_ne rfl)

theorem skipParameters_eq (h : Spans code i stop trees) :
    ∃ next, skipParameters code i stop = .ok next ∧ Spans code next stop (dropTypeParameters trees) := by
  rw [skipParameters, kindAt_group h rfl, except_ok_bind]
  rcases trees with _ | ⟨token | ⟨opening, body, closing⟩, trees⟩
  · exact ⟨i, rfl, h⟩
  · exact ⟨i, rfl, h⟩
  obtain ⟨close, hpairs⟩ := h.group
  rw [dropTypeParameters, parametersAt_eq h hpairs, matching_eq hpairs]
  by_cases hkind : opening.kind = .leftBracket
  · cases hparameters : isTypeParameters body with
    | true =>
      refine ⟨close + 1, ?_, ?_⟩
      · simp only [List.head?_cons, Option.bind_some, Tree.body?, hkind, if_true]
        rfl
      · simpa [hkind] using hpairs.behind
    | false =>
      refine ⟨i, ?_, ?_⟩
      · simp only [List.head?_cons, Option.bind_some, Tree.body?, hkind, if_true]
        rfl
      · simpa [hkind] using h
  · refine ⟨i, ?_, ?_⟩
    · simp only [List.head?_cons, Option.bind_some, Tree.body?, hkind, if_false]
      rfl
    · simpa [hkind] using h

theorem skipEquals_eq (h : Spans code i stop trees) :
    ∃ next, skipEquals code i stop = .ok next ∧ Spans code next stop (dropEquals trees) := by
  rw [skipEquals, tokenBefore?_eq h, except_ok_bind]
  rcases trees with _ | ⟨token | ⟨opening, body, closing⟩, trees⟩
  · exact ⟨i, rfl, h⟩
  · rw [dropEquals]
    by_cases hequals : (decide (token.kind = .operator) && decide (token.text = "=")) = true
    · rw [if_pos hequals]
      exact ⟨i + 1, congrArg Except.ok (if_pos hequals), h.leaf.2.2⟩
    · rw [if_neg hequals]
      exact ⟨i, congrArg Except.ok (if_neg hequals), h⟩
  · obtain ⟨close, hpairs⟩ := h.group
    have hoperator : opening.kind ≠ .operator := hpairs.opening_ne rfl
    exact ⟨i, congrArg Except.ok (if_neg (by simp [Tree.first, hoperator])), h⟩

theorem readTypeDecl_eq (doc : Option CommentGroup) (h : Spans code i stop trees) :
    readTypeDecl code doc i stop = (TypeDecl.read (lineOf code i) doc trees).mapError .refused := by
  rw [readTypeDecl, identifierAt_eq h, except_ok_bind, TypeDecl.read]
  rcases trees with _ | ⟨token | _, trees⟩
  · rfl
  · obtain ⟨next, hnext, hdrop⟩ := skipParameters_eq h.leaf.2.2
    obtain ⟨next', hnext', hdrop'⟩ := skipEquals_eq hdrop
    obtain ⟨behind, hread⟩ := reads (stop - next') (Nat.le_refl _) hdrop'
    rw [List.head?_cons, Option.bind_some]
    cases (Tree.leaf token).leafText? .identifier with
    | none => rfl
    | some name =>
      dsimp only
      rw [hnext, except_ok_bind, hnext', except_ok_bind, hread]
      rfl
  · rfl

/-! ## Functions -/

theorem readFunc?_eq {s : Statement} {token : Code} (hhead : s.head = .leaf token)
    (h : Spans code i stop s.trees) : readFunc? code i stop = .ok (FuncDecl.read? s) := by
  rw [Statement.trees, hhead] at h
  obtain ⟨-, -, hrest⟩ := h.leaf
  rw [readFunc?, docOf_eq h, kindAt_group hrest rfl, except_ok_bind, FuncDecl.read?, hhead]
  dsimp only
  cases hbody : s.tail.head?.bind (·.body? .leftParen) with
  | none =>
    rw [identifierAt_eq hrest]
    rfl
  | some body =>
    obtain ⟨opening, closing, close, rest, htail, hpairs⟩ := exists_pairs hrest hbody
    rw [Option.isSome_some, if_pos rfl, matching_eq hpairs, except_ok_bind,
      tokensOf_eq hpairs.inside, except_ok_bind, identifierAt_eq hpairs.behind, htail]
    rfl

/-! ## Statements of a unit -/

section Unit

variable {range : Range 0 code.length} {s : Statement} {token : Code}

theorem lineAfterHead_eq (h : Holds code range s) (hhead : s.head = .leaf token) :
    lineOf code (range.first + 1) = s.lineAfterHead := by
  have hspans := h.spans
  rw [Statement.trees, hhead] at hspans
  obtain ⟨-, -, hrest⟩ := hspans.leaf
  have htoken : code[range.first + 1]? = (s.tail.head?.map Tree.first).or s.follow := by
    cases htail : s.tail with
    | nil =>
      rw [htail] at hrest
      rw [hrest.eq_of_nil, List.head?_nil, Option.map_none, Option.none_or, h.follow]
      split
      · rfl
      · exact List.getElem?_eq_none (by omega)
    | cons tree trees =>
      rw [htail] at hrest
      rw [hrest.first.2]
      rfl
  rw [lineOf, htoken, Statement.lineAfterHead]
  cases (s.tail.head?.map Tree.first).or s.follow with
  | none => rfl
  | some token => rfl

theorem readImports_eq (h : Holds code range s) (hhead : s.head = .leaf token) :
    readGroup code (range.first + 1) range.last (readImport code) (readImport code) =
      (Import.readAll s).mapError .refused := by
  have hline := lineAfterHead_eq h hhead
  have hspans := h.spans
  rw [Statement.trees, hhead] at hspans
  obtain ⟨-, -, hrest⟩ := hspans.leaf
  rw [Import.readAll]
  cases hbody : s.tail.head?.bind (·.body? .leftParen) with
  | none =>
    rw [readGroup_single hrest hbody, readImport_eq hrest, hline]
    dsimp only
    cases Import.read s.lineAfterHead s.tail with
    | error e => rfl
    | ok imported => rfl
  | some body =>
    refine readGroup_each hrest hbody fun i stop spec hspec => ?_
    rw [readImport_eq hspec, lineOf_eq hspec]

theorem readTypes_eq (h : Holds code range s) (hhead : s.head = .leaf token) :
    readGroup code (range.first + 1) range.last (readTypeDecl code (docOf code range.first))
        (fun first => readTypeDecl code (docOf code first) first) =
      (TypeDecl.readAll s).mapError .refused := by
  have hline := lineAfterHead_eq h hhead
  have hdoc : docOf code range.first = s.head.first.doc := docOf_eq h.spans
  have hspans := h.spans
  rw [Statement.trees, hhead] at hspans
  obtain ⟨-, -, hrest⟩ := hspans.leaf
  rw [TypeDecl.readAll]
  cases hbody : s.tail.head?.bind (·.body? .leftParen) with
  | none =>
    rw [readGroup_single hrest hbody, readTypeDecl_eq _ hrest, hline, hdoc]
    dsimp only
    cases TypeDecl.read s.lineAfterHead s.head.first.doc s.tail with
    | error e => rfl
    | ok decl => rfl
  | some body =>
    refine readGroup_each hrest hbody fun i stop spec hspec => ?_
    rw [readTypeDecl_eq _ hspec, lineOf_eq hspec, docOf_eq hspec]

theorem addStatement_of_not_declaring {word : Option String}
    (hword : identifierAt code start stop = .ok word)
    (h : ∀ declaring ∈ declaringWords, word ≠ some declaring) (d : Declarations) :
    addStatement code d start stop = .ok d := by
  simp only [declaringWords, List.forall_mem_cons] at h
  rw [addStatement, hword, except_ok_bind]
  split <;> simp_all [pure, Except.pure]

/-- A statement adds the same declarations, or has the same error. -/
theorem addStatement_eq (h : Holds code range s) (d : Declarations) :
    addStatement code d range.first range.last = (d.add s).mapError .refused := by
  have hword : identifierAt code range.first range.last = .ok (s.head.leafText? .identifier) :=
    identifierAt_eq h.spans
  by_cases hdeclares : ∀ word ∈ declaringWords, s.head.leafText? .identifier ≠ some word
  · rw [addStatement_of_not_declaring hword hdeclares, Declarations.add_of_not_declaring hdeclares]
    rfl
  obtain ⟨word, hmem, hsome⟩ : ∃ word ∈ declaringWords, s.head.leafText? .identifier = some word := by
    simpa using hdeclares
  cases hhead : s.head with
  | group opening body closing =>
    rw [hhead] at hsome
    cases hsome
  | leaf token =>
    have hspans := h.spans
    rw [Statement.trees, hhead] at hspans
    obtain ⟨-, -, hrest⟩ := hspans.leaf
    rw [addStatement, hword, except_ok_bind, Declarations.add, hsome]
    simp only [declaringWords, List.mem_cons, List.not_mem_nil, or_false] at hmem
    rcases hmem with rfl | rfl | rfl | rfl
    · rw [identifierAt_eq hrest]
      rfl
    · rw [readImports_eq h hhead]
      cases Import.readAll s with
      | error e => rfl
      | ok imports => rfl
    · rw [readTypes_eq h hhead]
      cases TypeDecl.readAll s with
      | error e => rfl
      | ok types => rfl
    · rw [readFunc?_eq hhead h.spans]
      rfl

end Unit

/-- **Reading by positions and reading trees give the same unit, or the same error.** -/
theorem readUnit_eq (path : String) (tokens : List Token) :
    readUnit path tokens = (SourceUnit.ofTokens path tokens).mapError .refused := by
  rw [readUnit, SourceUnit.ofTokens]
  cases htrees : Tree.ofCode (Layout.ofTokens tokens).code with
  | error e =>
    obtain ⟨error, htop, hstatements⟩ := statements_of_error htrees
    rw [htop, hstatements]
    rfl
  | ok trees =>
    obtain ⟨ranges, hranges, hholds⟩ := statements_split (spans_of_ofCode htrees)
    have hfold := foldlM_mapError hholds (fun d _ _ hs => addStatement_eq hs d) {}
    rw [topLevel, htrees]
    dsimp only
    rw [hranges, except_ok_bind, except_ok_bind, hfold]
    cases (Statement.split trees).foldlM Declarations.add {} with
    | error e => rfl
    | ok d =>
      rw [except_ok_bind]
      dsimp only [Except.mapError]
      rw [except_ok_bind]
      cases d.package with
      | none => rfl
      | some package => rfl

end Positions

/-! ## Errors -/

theorem Import.read_eq_error {line : Nat} {spec : List Tree} {e : SyntaxError}
    (h : Import.read line spec = .error e) : e = .importPath line := by
  rw [Import.read] at h
  split at h
  · split at h
    · cases h
    · exact (Except.error.inj h).symm
  · exact (Except.error.inj h).symm

theorem TypeDecl.read_eq_error {line : Nat} {doc : Option CommentGroup} {spec : List Tree}
    {e : SyntaxError} (h : TypeDecl.read line doc spec = .error e) : e = .typeName line := by
  rw [TypeDecl.read] at h
  split at h
  · exact (Except.error.inj h).symm
  · cases h

theorem Import.readAll_eq_error {s : Statement} {e : SyntaxError} (h : Import.readAll s = .error e) :
    ∃ line, e = .importPath line := by
  rw [Import.readAll] at h
  split at h
  · obtain ⟨spec, -, hspec⟩ := exists_of_mapM_eq_error h
    exact ⟨_, read_eq_error hspec⟩
  · exact ⟨_, read_eq_error (except_bind_pure_eq_error h)⟩

theorem TypeDecl.readAll_eq_error {s : Statement} {e : SyntaxError}
    (h : TypeDecl.readAll s = .error e) : ∃ line, e = .typeName line := by
  rw [TypeDecl.readAll] at h
  split at h
  · obtain ⟨spec, -, hspec⟩ := exists_of_mapM_eq_error h
    exact ⟨_, read_eq_error hspec⟩
  · exact ⟨_, read_eq_error (except_bind_pure_eq_error h)⟩

theorem Declarations.add_eq_error {d : Declarations} {s : Statement} {e : SyntaxError}
    (h : d.add s = .error e) : (∃ line, e = .importPath line) ∨ ∃ line, e = .typeName line := by
  rw [Declarations.add] at h
  split at h
  · cases h
  · exact .inl (Import.readAll_eq_error (except_bind_pure_eq_error h))
  · exact .inr (TypeDecl.readAll_eq_error (except_bind_pure_eq_error h))
  · cases h
  · cases h

/-- Behind the split into statements, what a unit may lack. -/
theorem SourceUnit.ofTokens_eq_error {path : String} {tokens : List Token} {e : SyntaxError}
    {statements : List Statement} (htop : topLevel (Layout.ofTokens tokens).code = .ok statements)
    (h : ofTokens path tokens = .error e) :
    (∃ line, e = .importPath line) ∨ (∃ line, e = .typeName line) ∨ e = .packageClause := by
  rw [ofTokens, htop] at h
  cases hfold : statements.foldlM Declarations.add {} with
  | error e' =>
    rw [except_ok_bind, hfold] at h
    obtain rfl : e' = e := Except.error.inj h
    obtain ⟨d, s, hadd⟩ := exists_of_foldlM_eq_error hfold
    exact (Declarations.add_eq_error hadd).imp_right .inl
  | ok d =>
    rw [except_ok_bind, hfold, except_ok_bind] at h
    cases hpackage : d.package with
    | none =>
      rw [hpackage] at h
      exact .inr (.inr (Except.error.inj h).symm)
    | some package =>
      rw [hpackage] at h
      cases h

/-- The statements are told apart if and only if brackets are nested. -/
theorem nested_iff_topLevel {code : List Code} :
    Nested code ↔ ∃ statements, topLevel code = .ok statements := by
  rw [nested_iff_ofCode, topLevel]
  constructor
  · rintro ⟨trees, htrees⟩
    rw [htrees]
    exact ⟨_, rfl⟩
  · rintro ⟨statements, hstatements⟩
    cases htrees : Tree.ofCode code with
    | ok trees => exact ⟨trees, rfl⟩
    | error e =>
      rw [htrees] at hstatements
      cases e <;> cases hstatements

open Positions in
/-- **Brackets fail only where statements are told apart.** Reading the code of any token list by
positions gives what reading its trees does, so that it meets no position without a token and no
bracket that is not closed. Telling statements apart succeeds exactly if the depth of brackets is
never below zero and zero in the end. The statements are then not empty, stand one after the other,
are level, and hold all tokens but the semicolons at depth zero, and all that can go wrong behind it
is that an import path, a type name or the package clause is missing. Each type in a stretch of
trees is read, and reading a type moves on and stays within its stretch. -/
theorem SourceUnit.brackets_fail_only_in_split (path : String) (tokens : List Token) :
    let code := (Layout.ofTokens tokens).code
    readUnit path tokens = (ofTokens path tokens).mapError .refused ∧
    ((∃ ranges, statements code 0 code.length = .ok ranges) ↔
      (∀ k ≤ code.length, 0 ≤ depthAt code k) ∧ depthAt code code.length = 0) ∧
    ((∃ found, topLevel code = .ok found) ↔
      (∀ k ≤ code.length, 0 ≤ depthAt code k) ∧ depthAt code code.length = 0) ∧
    (∀ ranges, statements code 0 code.length = .ok ranges →
      (∀ range ∈ ranges, range.first < range.last ∧ range.last ≤ code.length ∧
        depthAt code range.first = 0 ∧ Level code range.first range.last) ∧
      ranges.Pairwise (fun range later => range.last ≤ later.first) ∧
      (∀ k token, code[k]? = some token →
        ((∃ range ∈ ranges, range.first ≤ k ∧ k < range.last) ↔
          ¬ (token.kind = .semicolon ∧ depthAt code k = 0))) ∧
      (∃ found, topLevel code = .ok found ∧ List.Forall₂ (Holds code) ranges found) ∧
      ∀ e, ofTokens path tokens = .error e →
        (∃ line, e = .importPath line) ∨ (∃ line, e = .typeName line) ∨ e = .packageClause) ∧
    (∀ i stop trees, Spans code i stop trees →
      ∃ next, readType code i stop = .ok ((TypeExpr.read trees).1, next)) ∧
    ∀ i stop type next, i < stop → readType code i stop = .ok (type, next) →
      i < next ∧ next ≤ stop := by
  intro code
  refine ⟨readUnit_eq path tokens, nested_iff_statements.symm, nested_iff_topLevel.symm,
    fun ranges hranges => ?_, fun i stop trees hspans => reads _ (Nat.le_refl _) hspans,
    fun i stop type next hlt hread => ?_⟩
  · -- the code forms trees, whose statements are those that were found
    have hnested : Nested code := nested_iff_statements.2 ⟨ranges, hranges⟩
    have hpartition := statementsFrom_partition (Nat.zero_le _) hranges
    obtain ⟨trees, htrees⟩ := nested_iff_ofCode.1 hnested
    have htop : topLevel code = .ok (Statement.split trees) := by rw [topLevel, htrees]
    obtain ⟨ranges', hranges', hholds⟩ := statements_split (spans_of_ofCode htrees)
    obtain rfl : ranges' = ranges := Except.ok.inj (hranges'.symm.trans hranges)
    refine ⟨fun range hrange => ?_, hpartition.ordered, fun k token htoken => ?_,
      ⟨_, htop, hholds⟩, fun e he => ofTokens_eq_error htop he⟩
    · obtain ⟨-, hdepth, hlevel⟩ := hpartition.balanced range hrange
      exact ⟨range.first_lt, range.last_le, hdepth, hlevel⟩
    · have hlt : k < code.length := (List.getElem?_eq_some_iff.1 htoken).1
      exact hpartition.covers k token (Nat.zero_le k) hlt htoken
  · obtain ⟨-, hle, hnext⟩ := readType_bounds (Nat.le_of_lt hlt) hread
    exact ⟨hnext hlt, hle⟩

open Positions in
/-- A package clause, and a group of types of which one has no name. -/
theorem SourceUnit.brackets_fail_only_in_split_nameless :
    let tokens : List Token := [⟨.identifier, "package", 1⟩, ⟨.identifier, "p", 1⟩, ⟨.newline, "\n", 1⟩,
      ⟨.identifier, "type", 2⟩, ⟨.leftParen, "(", 2⟩, ⟨.identifier, "T", 2⟩, ⟨.identifier, "struct", 2⟩,
      ⟨.leftBrace, "\x7b", 2⟩, ⟨.identifier, "a", 2⟩, ⟨.leftBracket, "[", 2⟩, ⟨.rightBracket, "]", 2⟩,
      ⟨.identifier, "b", 2⟩, ⟨.semicolon, ";", 2⟩, ⟨.rightBrace, "\x7d", 2⟩, ⟨.semicolon, ";", 2⟩,
      ⟨.star, "*", 3⟩, ⟨.rightParen, ")", 3⟩]
    let code := (Layout.ofTokens tokens).code
    ((statements code 0 code.length).toOption.map fun ranges =>
        ranges.map fun range => (range.first, range.last)) = some [(0, 2), (2, 16)] ∧
      (∃ e, ofTokens "p" tokens = .error e ∧ e = .typeName 3 ∧
        ((∃ line, e = .importPath line) ∨ (∃ line, e = .typeName line) ∨ e = .packageClause)) ∧
      ∃ type next, readType code 0 code.length = .ok (type, next) ∧ 0 < next ∧ next ≤ code.length := by
  intro tokens code
  obtain ⟨-, hstatements, -, hunit, htypes, hmoves⟩ := brackets_fail_only_in_split "p" tokens
  have hnested : Nested code := ⟨by decide, by decide⟩
  obtain ⟨ranges, hranges⟩ := hstatements.2 hnested
  obtain ⟨trees, htrees⟩ := nested_iff_ofCode.1 hnested
  obtain ⟨next, hread⟩ := htypes 0 code.length trees (spans_of_ofCode htrees)
  have herror : ofTokens "p" tokens = .error (.typeName 3) := by rfl
  exact ⟨by decide +kernel, ⟨_, herror, rfl, (hunit ranges hranges).2.2.2.2 _ herror⟩, _, next, hread,
    hmoves 0 code.length _ next (by decide) hread⟩

end ApiDocs.Source
