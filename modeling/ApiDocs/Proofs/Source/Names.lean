/-
  ApiDocs.Proofs.Source.Names

  What a text declares is named as it is written there. Each reader passes on what it was given:
  tokens match the patterns of their kinds, code consists of tokens, trees hold just the code that
  they were built from (`Tree.listCodes_of_ofCode`), and statements are stretches of trees. So the
  name of a declared type is an identifier (`SourceUnit.isIdentifier_of_mem_types`), and has no
  characters that identifiers cannot have.
-/

import ApiDocs.Proofs.Ensures
import ApiDocs.Proofs.Source.Scanning
import ApiDocs.Proofs.Source.Trees
import ApiDocs.Source.Unit

namespace ApiDocs.Source

/-! ## Identifiers -/

open Pattern in
theorem isIdentifier_of_mem_pattern {text : String}
    (h : text.toList ∈ TokenKind.identifier.pattern) : isIdentifier text = true := by
  obtain ⟨c, cs, htext, hc, hcs⟩ := mem_oneOf_mul.1 h
  rw [isIdentifier, htext]
  simp only [Bool.and_eq_true, List.all_eq_true]
  exact ⟨hc, mem_kstar_oneOf.1 hcs⟩

/-- An identifier has only characters that identifiers can have. -/
theorem not_mem_of_isIdentifier {text : String} (h : isIdentifier text = true) {c : Char}
    (hc : isNamePart c = false) : c ∉ text.toList := by
  intro hmem
  rw [isIdentifier] at h
  cases htext : text.toList with
  | nil =>
    rw [htext] at hmem
    cases hmem
  | cons first rest =>
    rw [htext] at h hmem
    simp only [Bool.and_eq_true, List.all_eq_true] at h
    rcases List.mem_cons.1 hmem with rfl | hrest
    · -- what can start an identifier can also stand in it
      have hpart : isNamePart c = true := by
        simp only [isNameStart, isNamePart, Bool.or_eq_true] at h ⊢
        exact .inl h.1
      rw [hpart] at hc
      cases hc
    · rw [h.2 c hrest] at hc
      cases hc

/-! ## Code -/

theorem Layout.mem_of_mem_code {s : State} {tokens : List Token} {code : Code}
    (h : code ∈ (read s tokens).code) : code.toToken ∈ tokens := by
  induction tokens generalizing s with
  | nil => cases h
  | cons token tokens ih =>
    rw [read] at h
    split at h
    · exact List.mem_cons_of_mem _ (ih h)
    split at h
    · -- comments add no code
      split at h <;> exact List.mem_cons_of_mem _ (ih h)
    · rcases List.mem_cons.1 h with rfl | h
      · exact List.mem_cons_self
      · exact List.mem_cons_of_mem _ (ih h)

/-! ## Trees -/

namespace Tree

/-- The code in front of the innermost level: open brackets, each behind the trees before it. -/
def framesCodes : List Frame → List Code
  | [] => []
  | (opening, before) :: outer => framesCodes outer ++ listCodes before.reverse ++ [opening]

/-- Building trees neither loses nor adds code. -/
theorem listCodes_of_build {frames : List Frame} {level : List Tree} {code : List Code}
    {trees : List Tree} (h : build frames level code = .ok trees) :
    listCodes trees = framesCodes frames ++ listCodes level.reverse ++ code := by
  fun_induction build frames level code with
  | case1 frames level hlast =>
    obtain rfl := List.getLast?_eq_none_iff.1 hlast
    cases h
    simp [framesCodes]
  | case2 => cases h
  | case3 frames level code rest hopening ih =>
    rw [ih h]
    simp [framesCodes, listCodes]
  | case4 => cases h
  | case5 level code rest hopening hclosing opening before outer ih =>
    rw [ih h]
    simp [framesCodes, listCodes, codes, listCodes_append]
  | case6 frames level code rest hopening hclosing ih =>
    rw [ih h]
    simp [listCodes, codes, listCodes_append]

theorem listCodes_of_ofCode {code : List Code} {trees : List Tree} (h : ofCode code = .ok trees) :
    listCodes trees = code :=
  listCodes_of_build h

theorem mem_listCodes_iff {trees : List Tree} {code : Code} :
    code ∈ listCodes trees ↔ ∃ tree ∈ trees, code ∈ codes tree := by
  induction trees with
  | nil => simp [listCodes]
  | cons tree trees ih => simp [listCodes, ih]

theorem listCodes_subset {trees trees' : List Tree} (h : trees ⊆ trees') :
    listCodes trees ⊆ listCodes trees' := by
  intro code hcode
  obtain ⟨tree, htree, hcode⟩ := mem_listCodes_iff.1 hcode
  exact mem_listCodes_iff.2 ⟨tree, h htree, hcode⟩

theorem mem_codes_of_body? {tree : Tree} {kind : TokenKind} {body : List Tree}
    (h : tree.body? kind = some body) {code : Code} (hcode : code ∈ listCodes body) :
    code ∈ codes tree := by
  cases tree with
  | leaf => cases h
  | group opening inside closing =>
    rw [body?] at h
    split at h
    · cases h
      simp [codes, hcode]
    · cases h

end Tree

theorem Statement.subset_of_mem_split {trees : List Tree} {s : Statement} (h : s ∈ split trees) :
    s.trees ⊆ trees := by
  fun_induction split trees generalizing s with
  | case1 => cases h
  | case2 tree trees _ ih => exact List.subset_cons_of_subset _ (ih h)
  | case3 tree trees _ _ hnone ih =>
    rw [List.mem_singleton.1 h]
    simp [Statement.trees]
  | case4 tree trees _ _ first rest hsplit ih =>
    rw [hsplit] at ih
    rcases List.mem_cons.1 h with rfl | h
    · exact List.cons_subset_cons _ (ih List.mem_cons_self)
    · exact List.subset_cons_of_subset _ (ih (List.mem_cons_of_mem _ h))
  | case5 tree trees _ _ ih =>
    rcases List.mem_cons.1 h with rfl | h
    · simp [Statement.trees]
    · exact List.subset_cons_of_subset _ (ih h)

/-! ## Declared types -/

/-- The name is an identifier in the code. -/
def NamedIn (code : List Code) (name : String) : Prop :=
  ∃ token ∈ code, token.kind = .identifier ∧ token.text = name

theorem NamedIn.mono {code code' : List Code} {name : String} (h : NamedIn code name)
    (hsub : code ⊆ code') : NamedIn code' name := by
  obtain ⟨token, htoken, hname⟩ := h
  exact ⟨token, hsub htoken, hname⟩

theorem TypeDecl.namedIn_of_read {line : Nat} {doc : Option CommentGroup} {spec : List Tree}
    {decl : TypeDecl} (h : TypeDecl.read line doc spec = .ok decl) :
    NamedIn (Tree.listCodes spec) decl.name := by
  rw [TypeDecl.read] at h
  split at h
  · cases h
  · rename_i name hname
    cases h
    cases spec with
    | nil => cases hname
    | cons tree spec =>
      cases tree with
      | group => cases hname
      | leaf code =>
        simp only [List.head?_cons, Option.bind_some, Tree.leafText?] at hname
        split at hname
        · rename_i hkind
          cases hname
          exact ⟨code, by simp [Tree.listCodes, Tree.codes], hkind, rfl⟩
        · cases hname

theorem TypeDecl.namedIn_of_readAll {s : Statement} {decls : List TypeDecl}
    (h : TypeDecl.readAll s = .ok decls) {decl : TypeDecl} (hdecl : decl ∈ decls) :
    NamedIn (Tree.listCodes s.trees) decl.name := by
  rw [TypeDecl.readAll] at h
  split at h
  · rename_i body hbody
    obtain ⟨group, hgroup, hbody⟩ := Option.bind_eq_some_iff.1 hbody
    -- one of the statements in parentheses
    obtain ⟨spec, hspec, hread⟩ := exists_of_mem_forall₂ (mapM_eq_ok_iff.1 h) hdecl
    refine (namedIn_of_read hread).mono fun code hcode => ?_
    have hinside : code ∈ Tree.listCodes body :=
      Tree.listCodes_subset (Statement.subset_of_mem_split hspec) hcode
    exact Tree.mem_listCodes_iff.2 ⟨group, List.mem_cons_of_mem _ (List.mem_of_mem_head? hgroup),
      Tree.mem_codes_of_body? hbody hinside⟩
  · obtain ⟨decl', hread, h⟩ := except_bind_eq_ok_iff.1 h
    cases h
    rw [List.mem_singleton.1 hdecl]
    exact (namedIn_of_read hread).mono (Tree.listCodes_subset (List.subset_cons_self _ _))

/-- A statement adds only types that are named in its code. -/
theorem Declarations.namedIn_of_add {d d' : Declarations} {s : Statement} (h : d.add s = .ok d')
    {decl : TypeDecl} (hdecl : decl ∈ d'.types) :
    decl ∈ d.types ∨ NamedIn (Tree.listCodes s.trees) decl.name := by
  rw [Declarations.add] at h
  split at h
  · cases h
    exact .inl hdecl
  · obtain ⟨imports, -, h⟩ := except_bind_eq_ok_iff.1 h
    cases h
    exact .inl hdecl
  · obtain ⟨types, hread, h⟩ := except_bind_eq_ok_iff.1 h
    cases h
    exact (List.mem_append.1 hdecl).imp_right (TypeDecl.namedIn_of_readAll hread)
  · cases h
    exact .inl hdecl
  · cases h
    exact .inl hdecl

/-- What statements declare is named in their code. -/
theorem Declarations.namedIn_of_foldlM {statements : List Statement} {code : List Code}
    (hcode : ∀ s ∈ statements, Tree.listCodes s.trees ⊆ code) {d d' : Declarations}
    (hd : ∀ decl ∈ d.types, NamedIn code decl.name)
    (h : statements.foldlM Declarations.add d = .ok d') :
    ∀ decl ∈ d'.types, NamedIn code decl.name := by
  induction statements generalizing d with
  | nil =>
    cases h
    exact hd
  | cons s statements ih =>
    obtain ⟨hs, hrest⟩ := List.forall_mem_cons.1 hcode
    rw [List.foldlM_cons] at h
    obtain ⟨d₁, hadd, h⟩ := except_bind_eq_ok_iff.1 h
    refine ih hrest (fun decl hdecl => ?_) h
    rcases namedIn_of_add hadd hdecl with hold | hnew
    · exact hd decl hold
    · exact hnew.mono hs

/-- The name of every type that a text declares is an identifier. -/
theorem SourceUnit.isIdentifier_of_mem_types {path source : String} {unit : SourceUnit}
    (h : SourceUnit.ofText path source = .ok unit) {decl : TypeDecl} (hdecl : decl ∈ unit.types) :
    isIdentifier decl.name = true := by
  rw [SourceUnit.ofText] at h
  split at h
  · cases h
  · rename_i tokens htokens
    obtain ⟨statements, htop, h⟩ := except_bind_eq_ok_iff.1 h
    obtain ⟨d, hfold, h⟩ := except_bind_eq_ok_iff.1 h
    have hcode : ∀ s ∈ statements, Tree.listCodes s.trees ⊆ (Layout.ofTokens tokens).code := by
      rw [topLevel] at htop
      split at htop
      · rename_i trees htrees
        cases htop
        intro s hs
        rw [← Tree.listCodes_of_ofCode htrees]
        exact Tree.listCodes_subset (Statement.subset_of_mem_split hs)
      · cases htop
      · cases htop
    split at h
    · cases h
    · cases h
      obtain ⟨code, hmem, hkind, hname⟩ := Declarations.namedIn_of_foldlM hcode
        (fun _ hnone => absurd hnone List.not_mem_nil) hfold decl hdecl
      have hpattern := Token.mem_pattern_of_ofText htokens (Layout.mem_of_mem_code hmem)
      rw [hkind, hname] at hpattern
      exact isIdentifier_of_mem_pattern hpattern

end ApiDocs.Source
