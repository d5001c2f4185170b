/-
  ApiDocs.Proofs.Package.Lookup

  Looking a model up, as a function of what the session knows. `find` follows the same rules as
  `findModel` without changing the session; locating packages does not change its answers
  (`find_eq`). What it finds is one of the declarations that have been collected, under a
  package that is the given one, the one that the reference spells out, or an imported one.
  Every step lists declarations by their names (`NamedTables`), so that a package and a name
  determine the declaration.
-/

import ApiDocs.Package.Resolve
import ApiDocs.Proofs.Package.Effects

namespace ApiDocs.Session

open Source (TypeDecl SourceUnit)
open Package (Resolved)

section Lookup

variable (w : Workspace) (s : Session)

/-- The types that a package declares, if they have been collected. -/
def tableAt (package : String) : Option Package.SymbolTable :=
  (s.whereIs w package).bind fun path => s.symbols[path]?

/-- The imports of a package, if they have been collected. -/
def importsAt (package : String) : Option Package.ImportMap :=
  (s.whereIs w package).bind fun path => s.imports[path]?

/-- The declaration of a type in a package, as found under that package. -/
def declared (name package : String) : Option Resolved :=
  (s.tableAt w package).bind fun table => table[name]?.map fun decl => { decl, package }

/-- The package that a reference spells out before its last point. -/
def spelledPackage (reference : String) : String :=
  "/".intercalate (Text.pieces '.' reference).dropLast

/-- The package that the qualifier of a reference stands for, if it has only one. -/
def aliasedPackage (reference package : String) : Option String :=
  match (Text.pieces '.' reference).dropLast with
  | [qualifier] => (s.importsAt w package).bind fun imports => imports[qualifier]?
  | _ => none

/-- The declaration that a reference names in the context of a package. -/
def find (reference package : String) : Option Resolved :=
  let typeName := (Text.pieces '.' reference).getLastD ""
  if (Text.pieces '.' reference).dropLast = [] then
    s.declared w reference package
  else
    (s.declared w typeName (spelledPackage reference)).or
      ((s.aliasedPackage w reference package).bind (s.declared w typeName))

end Lookup

/-! ## Identifiers that have been looked up -/

/-- The session has found out where an identifier leads, if anywhere. -/
def Knows (s : Session) (identifier : String) : Prop :=
  ∃ answer, s.located[bareIdentifier identifier]? = some answer

theorem knows_learn (w : Workspace) (s : Session) (identifier : String) :
    (s.learn w identifier).Knows identifier :=
  ⟨s.whereIs w identifier, by rw [located_learn, if_pos rfl]⟩

theorem Changes.knows {w : Workspace} {effects : List Effect} {s t : Session}
    (h : Changes w effects s t) {identifier : String} (hk : s.Knows identifier) :
    t.Knows identifier := by
  obtain ⟨answer, hanswer⟩ := hk
  exact ⟨answer, h.located_of_known hanswer⟩

/-! ## The computation -/

section Spec

variable (w : Workspace)

theorem changes_learn (s : Session) (identifier : String) :
    Changes w [.locating] s (s.learn w identifier) :=
  .single List.mem_cons_self (.locate s identifier)

theorem symbolTable_eq (package : String) (s : Session) :
    symbolTable w package s = .ok (s.tableAt w package) (s.learn w package) := by
  simp only [symbolTable, bind_apply, resolve_eq, tableAt]
  cases s.whereIs w package with
  | none => rfl
  | some path => simp only [bind_apply, get_apply, symbols_learn, pure_apply, Option.bind_some]

theorem importMap_eq (package : String) (s : Session) :
    importMap w package s = .ok (s.importsAt w package) (s.learn w package) := by
  simp only [importMap, bind_apply, resolve_eq, importsAt]
  cases s.whereIs w package with
  | none => rfl
  | some path => simp only [bind_apply, get_apply, imports_learn, pure_apply, Option.bind_some]

theorem declaration_spec (name package : String) (s : Session) :
    Ensures (declaration? w name package) s
      (fun decl t => t = s.learn w package ∧
        s.declared w name package = decl.map fun decl => { decl, package })
      (fun _ _ => False) := by
  apply ensures_bind
  apply ensures_of_eq_ok (symbolTable_eq w package s)
  rw [declared]
  cases s.tableAt w package with
  | none => exact ensures_pure ⟨rfl, rfl⟩
  | some table => exact ensures_pure ⟨rfl, rfl⟩

theorem importedAs_spec (reference qualifier package : String) (s : Session) :
    Ensures (importedAs w reference qualifier package) s
      (fun imported t => t = s.learn w package ∧
        ((s.importsAt w package).bind fun imports => imports[qualifier]?) = some imported)
      (fun e t => t = s.learn w package ∧
        ((s.importsAt w package).bind fun imports => imports[qualifier]?) = none ∧
        ∃ fault, e = .modelNotFound reference package fault) := by
  apply ensures_bind
  apply ensures_of_eq_ok (importMap_eq w package s)
  cases s.importsAt w package with
  | none => exact ensures_throw ⟨rfl, rfl, _, rfl⟩
  | some imports =>
    cases hi : imports[qualifier]? with
    | some path =>
      simp only [hi]
      exact ensures_pure ⟨rfl, hi⟩
    | none =>
      simp only [hi]
      exact ensures_throw ⟨rfl, hi, _, rfl⟩

/-- Answers do not depend on which packages have been located before. -/
theorem Changes.declared_eq {s t : Session} (h : Changes w [.locating] s t) :
    t.declared w = s.declared w := by
  funext name package
  rw [declared, tableAt, h.whereIs_eq, h.symbols_eq (by simp)]
  rfl

theorem Changes.importsAt_eq {s t : Session} (h : Changes w [.locating] s t) :
    t.importsAt w = s.importsAt w := by
  funext package
  rw [importsAt, h.whereIs_eq, h.imports_eq (by simp)]
  rfl

theorem Changes.find_eq {s t : Session} (h : Changes w [.locating] s t) : t.find w = s.find w := by
  have haliased : t.aliasedPackage w = s.aliasedPackage w := by
    funext reference package
    rw [aliasedPackage, h.importsAt_eq]
    rfl
  funext reference package
  rw [find, h.declared_eq, haliased]
  rfl

/-- A reference with a qualifier: the package that it spells out comes first, and only a
single qualifier may also stand for an import. -/
theorem find_of_qualified {s : Session} {reference package qualifier : String} {others : List String}
    (hq : (Text.pieces '.' reference).dropLast = qualifier :: others) :
    s.find w reference package =
      (s.declared w ((Text.pieces '.' reference).getLastD "")
        ("/".intercalate (qualifier :: others))).or
      ((s.aliasedPackage w reference package).bind
        (s.declared w ((Text.pieces '.' reference).getLastD ""))) := by
  rw [find, if_neg (by rw [hq]; simp), spelledPackage, hq]

/-- Looking a model up gives what `find` does. If it succeeds, the session knows from then on
where the package of the model lies, and, unless the reference spells that package out, where
the given one does. -/
theorem findModel_spec (reference package : String) (s : Session) :
    Ensures (findModel w reference package) s
      (fun r t => Changes w [.locating] s t ∧ s.find w reference package = some r ∧
        t.Knows r.package ∧ (r.package = spelledPackage reference ∨ t.Knows package))
      (fun _ t => Changes w [.locating] s t ∧ s.find w reference package = none) := by
  unfold findModel
  dsimp only
  cases hq : (Text.pieces '.' reference).dropLast with
  | nil =>
    apply ensures_bind
    refine (declaration_spec w reference package s).mono (fun decl t h => ?_) (fun _ _ h => h.elim)
    obtain ⟨rfl, hdecl⟩ := h
    have hst := changes_learn w s package
    have hfind : s.find w reference package = s.declared w reference package := by
      rw [find, if_pos hq]
    cases decl with
    | some decl =>
      have hknows := s.knows_learn w package
      exact ensures_pure ⟨hst, by rw [hfind, hdecl]; rfl, hknows, .inr hknows⟩
    | none => exact ensures_throw ⟨hst, by rw [hfind, hdecl]; rfl⟩
  | cons qualifier others =>
    apply ensures_bind
    refine (declaration_spec w _ _ s).mono (fun decl t h => ?_) (fun _ _ h => h.elim)
    obtain ⟨rfl, hdecl⟩ := h
    have hspelled : spelledPackage reference = "/".intercalate (qualifier :: others) := by
      rw [spelledPackage, hq]
    have hst := changes_learn w s (spelledPackage reference)
    have hknows := s.knows_learn w (spelledPackage reference)
    rw [hspelled] at hst hknows
    rw [find_of_qualified w hq, hdecl]
    cases decl with
    | some decl => exact ensures_pure ⟨hst, rfl, hknows, .inl hspelled.symm⟩
    | none =>
      cases others with
      | cons => exact ensures_throw ⟨hst, by rw [aliasedPackage, hq]; rfl⟩
      | nil =>
        have haliased : s.aliasedPackage w reference package =
            ((s.learn w ("/".intercalate [qualifier])).importsAt w package).bind
              fun imports => imports[qualifier]? := by
          rw [aliasedPackage, hq, hst.importsAt_eq]
        apply ensures_bind
        refine (importedAs_spec w reference qualifier package _).mono (fun imported u h => ?_)
          (fun _ u h => ?_)
        · obtain ⟨rfl, himported⟩ := h
          have hsu := hst.trans (changes_learn w _ package)
          apply ensures_bind
          refine (declaration_spec w _ imported _).mono (fun decl v h => ?_) (fun _ _ h => h.elim)
          obtain ⟨rfl, hdecl⟩ := h
          have huv := changes_learn w ((s.learn w ("/".intercalate [qualifier])).learn w package) imported
          rw [haliased, himported]
          rw [hsu.declared_eq] at hdecl
          cases decl with
          | some decl =>
            exact ensures_pure ⟨hsu.trans huv, hdecl, knows_learn .., .inr (huv.knows (knows_learn ..))⟩
          | none => exact ensures_throw ⟨hsu.trans huv, hdecl⟩
        · obtain ⟨rfl, hnone, -⟩ := h
          exact ⟨hst.trans (changes_learn w _ package), by rw [haliased, hnone]; rfl⟩

/-- Looking a model up fails only with the reference and the package that were given. With
several qualifiers, what the type was not found in is the package that they spell out. -/
theorem findModel_fault (reference package : String) (s : Session) :
    Ensures (findModel w reference package) s (fun _ _ => True)
      (fun e _ => ∃ fault, e = .modelNotFound reference package fault ∧
        (1 < (Text.pieces '.' reference).dropLast.length → fault =
          .undeclaredAbsolute ((Text.pieces '.' reference).getLastD "") (spelledPackage reference))) := by
  unfold findModel
  dsimp only
  cases hq : (Text.pieces '.' reference).dropLast with
  | nil =>
    apply ensures_bind
    refine (declaration_spec w reference package s).mono (fun decl t _ => ?_) (fun _ _ h => h.elim)
    cases decl with
    | some decl => exact ensures_pure trivial
    | none => exact ensures_throw ⟨_, rfl, fun hlength => absurd hlength (by simp)⟩
  | cons qualifier others =>
    apply ensures_bind
    refine (declaration_spec w _ _ s).mono (fun decl t _ => ?_) (fun _ _ h => h.elim)
    cases decl with
    | some decl => exact ensures_pure trivial
    | none =>
      cases others with
      | cons => exact ensures_throw ⟨_, rfl, fun _ => by rw [spelledPackage, hq]⟩
      | nil =>
        apply ensures_bind
        refine (importedAs_spec w reference qualifier package t).mono (fun imported u _ => ?_)
          (fun e u h => ?_)
        · apply ensures_bind
          refine (declaration_spec w _ imported u).mono (fun decl v _ => ?_) (fun _ _ h => h.elim)
          cases decl with
          | some decl => exact ensures_pure trivial
          | none => exact ensures_throw ⟨_, rfl, fun hlength => absurd hlength (by simp)⟩
        · obtain ⟨-, -, fault, rfl⟩ := h
          exact ⟨fault, rfl, fun hlength => absurd hlength (by simp)⟩

theorem keeps_symbolTable (package : String) :
    Keeps (Changes w [.locating]) (symbolTable w package) :=
  fun s => ensures_of_eq_ok (symbolTable_eq w package s) (changes_learn w s package)

theorem keeps_importMap (package : String) :
    Keeps (Changes w [.locating]) (importMap w package) :=
  fun s => ensures_of_eq_ok (importMap_eq w package s) (changes_learn w s package)

theorem keeps_declaration (name package : String) :
    Keeps (Changes w [.locating]) (declaration? w name package) :=
  fun s => (declaration_spec w name package s).mono
    (fun _ _ h => h.1 ▸ changes_learn w s package) (fun _ _ h => h.elim)

theorem keeps_findModel (reference package : String) :
    Keeps (Changes w [.locating]) (findModel w reference package) :=
  fun s => (findModel_spec w reference package s).mono (fun _ _ h => h.1) (fun _ _ h => h.1)

end Spec

/-! ## What is found -/

section Found

variable {w : Workspace} {s : Session} {r : Resolved}

/-- A declaration was found under its key in the table of its package. -/
theorem declared_eq_some {name package : String} (h : s.declared w name package = some r) :
    r.package = package ∧ ∃ path table, s.whereIs w package = some path ∧
      s.symbols[path]? = some table ∧ table[name]? = some r.decl := by
  rw [declared, tableAt] at h
  obtain ⟨table, htable, hdecl⟩ := Option.bind_eq_some_iff.1 h
  obtain ⟨path, hpath, hsymbols⟩ := Option.bind_eq_some_iff.1 htable
  obtain ⟨decl, hname, rfl⟩ := Option.map_eq_some_iff.1 hdecl
  exact ⟨rfl, path, table, hpath, hsymbols, hname⟩

/-- The ways in which a reference can be resolved: it is a plain name and the given package
declares it, the package that it spells out does, or the package that its only qualifier stands
for in the given one. -/
theorem find_cases {reference package : String} (h : s.find w reference package = some r) :
    ((Text.pieces '.' reference).dropLast = [] ∧ s.declared w reference package = some r) ∨
    ((Text.pieces '.' reference).dropLast ≠ [] ∧
      s.declared w ((Text.pieces '.' reference).getLastD "") (spelledPackage reference) = some r) ∨
    ∃ qualifier imported, (Text.pieces '.' reference).dropLast = [qualifier] ∧
      s.aliasedPackage w reference package = some imported ∧
      s.declared w ((Text.pieces '.' reference).getLastD "") imported = some r := by
  rw [find] at h
  split at h
  · rename_i hplain
    exact .inl ⟨hplain, h⟩
  · rename_i hqualified
    rw [Option.or_eq_some_iff] at h
    rcases h with h | ⟨-, h⟩
    · exact .inr (.inl ⟨hqualified, h⟩)
    · obtain ⟨imported, haliased, hd⟩ := Option.bind_eq_some_iff.1 h
      cases hq : (Text.pieces '.' reference).dropLast with
      | nil => exact absurd hq hqualified
      | cons qualifier others =>
        cases others with
        | nil => exact .inr (.inr ⟨qualifier, imported, rfl, haliased, hd⟩)
        | cons =>
          rw [aliasedPackage, hq] at haliased
          cases haliased

/-- What a qualifier stands for is in the import map of the given package. -/
theorem aliasedPackage_eq_some {reference package qualifier imported : String}
    (hq : (Text.pieces '.' reference).dropLast = [qualifier])
    (h : s.aliasedPackage w reference package = some imported) :
    ∃ (path : String) (imports : Package.ImportMap), s.whereIs w package = some path ∧
      s.imports[path]? = some imports ∧ imports[qualifier]? = some imported := by
  rw [aliasedPackage, hq] at h
  obtain ⟨imports, himports, hqualifier⟩ := Option.bind_eq_some_iff.1 h
  obtain ⟨path, hpath, hmap⟩ := Option.bind_eq_some_iff.1 himports
  exact ⟨path, imports, hpath, hmap, hqualifier⟩

/-- What is found is declared under some name, in the given package, in the one that the
reference spells out or in an imported one. -/
theorem find_eq_some {reference package : String} (h : s.find w reference package = some r) :
    (∃ name, s.declared w name r.package = some r) ∧
      (r.package = package ∨ r.package = spelledPackage reference ∨
        ∃ (path : String) (imports : Package.ImportMap) (qualifier : String),
          s.imports[path]? = some imports ∧ imports[qualifier]? = some r.package) := by
  rcases find_cases h with ⟨-, hd⟩ | ⟨-, hd⟩ | ⟨qualifier, imported, hq, haliased, hd⟩
  · obtain ⟨rfl, -⟩ := declared_eq_some hd
    exact ⟨⟨_, hd⟩, .inl rfl⟩
  · have hpackage := (declared_eq_some hd).1
    exact ⟨⟨_, hpackage ▸ hd⟩, .inr (.inl hpackage)⟩
  · obtain ⟨rfl, -⟩ := declared_eq_some hd
    obtain ⟨path, imports, -, hmap, hqualifier⟩ := aliasedPackage_eq_some hq haliased
    exact ⟨⟨_, hd⟩, .inr (.inr ⟨path, imports, qualifier, hmap, hqualifier⟩)⟩

end Found

/-! ## Tables list declarations by their names -/

/-- Every declaration is listed under its own name. -/
def NamedTables (s : Session) : Prop :=
  ∀ (path : String) (table : Package.SymbolTable) (name : String) (decl : TypeDecl),
    s.symbols[path]? = some table → table[name]? = some decl → decl.name = name

theorem addTypes_named {table : Package.SymbolTable}
    (h : ∀ (name : String) (decl : TypeDecl), table[name]? = some decl → decl.name = name)
    (units : List SourceUnit) (name : String) (decl : TypeDecl)
    (hd : (addTypes table units)[name]? = some decl) : decl.name = name := by
  unfold addTypes at hd
  generalize units.flatMap (·.types) = decls at hd
  induction decls generalizing table with
  | nil => exact h name decl hd
  | cons first decls ih =>
    refine ih ?_ hd
    intro other decl' hother
    rw [Dict.getElem?_insert] at hother
    by_cases hn : first.name = other
    · rw [if_pos hn, Option.some.injEq] at hother
      rw [← hother, hn]
    · rw [if_neg hn] at hother
      exact h other decl' hother

theorem NamedTables.step {w : Workspace} {e : Effect} {s t : Session} (hstep : Step w e s t)
    (h : s.NamedTables) : t.NamedTables := by
  cases hstep with
  | locate => intro path; rw [symbols_learn]; exact h path
  | read => intro path; rw [symbols_fetch]; exact h path
  | adopt => exact h
  | declare _ directory units =>
    intro path table name decl htable hdecl
    rw [declare, Dict.getElem?_insert] at htable
    by_cases hp : directory = path
    · rw [if_pos hp, Option.some.injEq] at htable
      subst htable
      refine addTypes_named (fun name decl hd => ?_) units name decl hdecl
      cases hold : s.symbols[directory]? with
      | none =>
        rw [hold] at hd
        simp at hd
      | some old =>
        rw [hold] at hd
        exact h directory old name decl hold hd
    · rw [if_neg hp] at htable
      exact h path table name decl htable hdecl

theorem namedTables_fresh (roots : Package.SearchRoots) (home : String) :
    ({ roots, home } : Session).NamedTables := by
  intro path table name decl htable
  simp at htable

/-- What was found is determined by its package and its name. -/
theorem NamedTables.eq_of_found {w : Workspace} {s : Session} (h : s.NamedTables) {r r' : Resolved}
    (hr : ∃ name, s.declared w name r.package = some r)
    (hr' : ∃ name, s.declared w name r'.package = some r')
    (hpackage : r.package = r'.package) (hname : r.decl.name = r'.decl.name) : r = r' := by
  obtain ⟨name, hd⟩ := hr
  obtain ⟨name', hd'⟩ := hr'
  obtain ⟨-, path, table, -, htable, hdecl⟩ := declared_eq_some hd
  obtain ⟨-, path', table', -, htable', hdecl'⟩ := declared_eq_some hd'
  have hkey : name = name' := by
    rw [← h path table name r.decl htable hdecl, hname, h path' table' name' r'.decl htable' hdecl']
  rw [hkey, hpackage, hd'] at hd
  exact (Option.some.inj hd).symm

end ApiDocs.Session
