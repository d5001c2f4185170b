/-
  ApiDocs.Proofs.Package.Resolution

  References stay resolved. What a session has found out only grows (`Grows`): known answers,
  symbol tables and import maps stay as they are, whatever is asked for next and however the
  workspace changes meanwhile. So a declaration that was found once is found again. Only a
  single qualifier can change its meaning, and only in one way: having stood for an imported
  package, it names the package that it spells out, once the types of that one are collected.
-/

import ApiDocs.Proofs.Package.Mirror

namespace ApiDocs.Session

open Package (Resolved)

/-! ## What a session has found out grows -/

/-- Whatever the first session has found out, the second one knows too. -/
structure Grows (s t : Session) : Prop where
  located : ∀ (key : String) (answer : Option String),
    s.located[key]? = some answer → t.located[key]? = some answer
  symbols : ∀ (path : String) (table : Package.SymbolTable),
    s.symbols[path]? = some table → t.symbols[path]? = some table
  imports : ∀ (path : String) (imports : Package.ImportMap),
    s.imports[path]? = some imports → t.imports[path]? = some imports

theorem Grows.refl (s : Session) : s.Grows s :=
  ⟨fun _ _ => id, fun _ _ => id, fun _ _ => id⟩

theorem Grows.trans {s t u : Session} (h : s.Grows t) (h' : t.Grows u) : s.Grows u where
  located key answer hs := h'.located key answer (h.located key answer hs)
  symbols path table hs := h'.symbols path table (h.symbols path table hs)
  imports path imports hs := h'.imports path imports (h.imports path imports hs)

/-- A table that is filled again is filled from the units that it was made from. -/
theorem Mirrored.grows_declare {s : Session} (h : s.Mirrored) {path : String}
    {units : List Source.SourceUnit} (hknown : s.units[path]? = some units) :
    s.Grows (s.declare path units) := by
  refine ⟨fun _ _ => id, fun other table htable => ?_, fun _ _ => id⟩
  rw [Session.declare, Dict.getElem?_insert]
  by_cases hp : path = other
  · subst hp
    obtain ⟨units', hknown', rfl⟩ := h.symbols path table htable
    obtain rfl := Option.some.inj (hknown.symm.trans hknown')
    rw [if_pos rfl, htable, Option.getD_some, addTypes_addTypes]
  · rw [if_neg hp, htable]

theorem Mirrored.grows_adopt {s : Session} (h : s.Mirrored) {path : String}
    {units : List Source.SourceUnit} (hknown : s.units[path]? = some units) :
    s.Grows (s.adopt path units) := by
  refine ⟨fun _ _ => id, fun _ _ => id, fun other imports himports => ?_⟩
  rw [Session.adopt, Dict.getElem?_insert]
  by_cases hp : path = other
  · subst hp
    obtain ⟨units', hknown', rfl⟩ := h.imports path imports himports
    obtain rfl := Option.some.inj (hknown.symm.trans hknown')
    rw [if_pos rfl]
  · rw [if_neg hp, himports]

theorem Mirrored.grows_step {w : Workspace} {e : Effect} {s t : Session} (h : s.Mirrored)
    (hstep : Step w e s t) : s.Grows t := by
  have hchange : Changes w [e] s t := .single List.mem_cons_self hstep
  cases hstep with
  | locate =>
    exact ⟨fun _ _ => hchange.located_of_known, fun _ _ => by rw [symbols_learn]; exact id,
      fun _ _ => by rw [imports_learn]; exact id⟩
  | read =>
    exact ⟨fun _ _ => hchange.located_of_known, fun _ _ => by rw [symbols_fetch]; exact id,
      fun _ _ => by rw [imports_fetch]; exact id⟩
  | declare _ _ _ hknown => exact h.grows_declare hknown
  | adopt _ _ _ hknown => exact h.grows_adopt hknown

/-- No request, in no workspace, makes a session forget or revise anything. -/
theorem Mirrored.grows_after {s : Session} (h : s.Mirrored) (run : List (Workspace × Request)) :
    s.Grows (s.after run) :=
  (after_invariant (P := fun t => t.Mirrored ∧ s.Grows t)
    (fun _ _ _ _ hstep ht => ⟨ht.1.step hstep, ht.2.trans (ht.1.grows_step hstep)⟩)
    ⟨h, .refl s⟩ run).2

/-! ## What is found stays found -/

section Grows

variable {w w' : Workspace} {s t : Session} (h : s.Grows t)
include h

/-- An identifier that was looked up leads to the same place in any workspace. -/
theorem Grows.whereIs_eq {identifier : String} (hknows : s.Knows identifier) :
    t.whereIs w' identifier = s.whereIs w identifier := by
  obtain ⟨answer, hanswer⟩ := hknows
  rw [whereIs_of_known hanswer, whereIs_of_known (h.located _ _ hanswer)]

theorem Grows.declared {name package : String} {r : Resolved} (hknows : s.Knows package)
    (hr : s.declared w name package = some r) : t.declared w' name package = some r := by
  obtain ⟨rfl, path, table, hpath, htable, hdecl⟩ := declared_eq_some hr
  rw [Session.declared, tableAt, h.whereIs_eq hknows, hpath, Option.bind_some,
    h.symbols path table htable, Option.bind_some, hdecl, Option.map_some]

theorem Grows.aliasedPackage (w' : Workspace) {reference package qualifier imported : String}
    (hq : (Text.pieces '.' reference).dropLast = [qualifier]) (hknows : s.Knows package)
    (hi : s.aliasedPackage w reference package = some imported) :
    t.aliasedPackage w' reference package = some imported := by
  obtain ⟨path, imports, hpath, hmap, hqualifier⟩ := aliasedPackage_eq_some hq hi
  rw [Session.aliasedPackage, hq]
  simp only [importsAt]
  rw [h.whereIs_eq hknows, hpath, Option.bind_some, h.imports path imports hmap, Option.bind_some,
    hqualifier]

/-- A reference that was resolved is resolved again, to the same declaration unless its only
qualifier has become the name of a package that declares the type. -/
theorem Grows.find (w' : Workspace) {reference package : String} {r : Resolved}
    (hr : s.find w reference package = some r) (howner : s.Knows r.package)
    (hpackage : r.package = spelledPackage reference ∨ s.Knows package) :
    ∃ r', t.find w' reference package = some r' ∧
      ((Text.pieces '.' reference).length ≠ 2 ∨ r.package = spelledPackage reference → r' = r) ∧
      (r' = r ∨ r'.package = spelledPackage reference) := by
  have hsame : t.find w' reference package = some r → ∃ r', t.find w' reference package = some r' ∧
      ((Text.pieces '.' reference).length ≠ 2 ∨ r.package = spelledPackage reference → r' = r) ∧
      (r' = r ∨ r'.package = spelledPackage reference) :=
    fun hfound => ⟨r, hfound, fun _ => rfl, .inl rfl⟩
  have hspells : (Text.pieces '.' reference).dropLast ≠ [] → r.package = spelledPackage reference →
      s.declared w ((Text.pieces '.' reference).getLastD "") r.package = some r →
      t.find w' reference package = some r := by
    intro hqualified heq hd
    rw [Session.find, if_neg hqualified, ← heq, h.declared howner hd, Option.some_or]
  rcases find_cases hr with ⟨hplain, hd⟩ | ⟨hqualified, hd⟩ | ⟨qualifier, imported, hq, haliased, hd⟩
  · obtain ⟨rfl, -⟩ := declared_eq_some hd
    exact hsame (by rw [Session.find, if_pos hplain, h.declared howner hd])
  · have heq := (declared_eq_some hd).1
    exact hsame (hspells hqualified heq (heq ▸ hd))
  · obtain ⟨rfl, -⟩ := declared_eq_some hd
    have hqualified : (Text.pieces '.' reference).dropLast ≠ [] := by simp [hq]
    rcases hpackage with heq | hknows
    · exact hsame (hspells hqualified heq hd)
    have halias := h.aliasedPackage w' hq hknows haliased
    -- the qualifier's own package comes first, if it has a table by now
    cases hspelled : t.declared w' ((Text.pieces '.' reference).getLastD "")
        (spelledPackage reference) with
    | none =>
      refine hsame ?_
      rw [Session.find, if_neg hqualified, hspelled, halias, Option.none_or, Option.bind_some,
        h.declared howner hd]
    | some r' =>
      refine ⟨r', by rw [Session.find, if_neg hqualified, hspelled, Option.some_or], ?_, .inr ?_⟩
      · rintro (hlength | heq)
        · have := congrArg List.length hq
          simp at this
          omega
        · rw [← heq, h.declared howner hd] at hspelled
          exact (Option.some.inj hspelled).symm
      · exact (declared_eq_some hspelled).1

end Grows

/-! ## Segments of a reference -/

/-- The last segment of a reference, which names a type. -/
def lastSegment (reference : String) : String :=
  (Text.pieces '.' reference).getLastD ""

/-- A reference without a point is the name of a type. -/
theorem lastSegment_of_plain {reference : String} (h : (Text.pieces '.' reference).dropLast = []) :
    lastSegment reference = reference := by
  have hjoined := Text.intercalate_splitOn '.' reference.toList
  rw [lastSegment, Text.pieces] at *
  cases hs : Text.splitOn '.' reference.toList with
  | nil => exact absurd hs (Text.splitOn_ne_nil '.' reference.toList)
  | cons piece rest =>
    rw [hs] at h hjoined
    cases rest with
    | cons => simp at h
    | nil =>
      have hpiece : piece = reference.toList := by simpa [List.intercalate] using hjoined
      simp [hpiece]

/-- Of a reference with two segments, the first one is the package that it spells out. -/
theorem spelledPackage_of_pair {reference qualifier name : String}
    (h : Text.pieces '.' reference = [qualifier, name]) : spelledPackage reference = qualifier := by
  simp [spelledPackage, h]

/-- What is found is declared under the last segment of the reference. -/
theorem declared_of_find {w : Workspace} {s : Session} {reference package : String} {r : Resolved}
    (h : s.find w reference package = some r) :
    s.declared w (lastSegment reference) r.package = some r := by
  rcases find_cases h with ⟨hplain, hd⟩ | ⟨-, hd⟩ | ⟨-, imported, -, -, hd⟩
  · rw [lastSegment_of_plain hplain, (declared_eq_some hd).1, hd]
  · rw [lastSegment, (declared_eq_some hd).1, hd]
  · rw [lastSegment, (declared_eq_some hd).1, hd]

/-- A reference with two segments that is not resolved as it is spelled was resolved by the
imports of the given package. -/
theorem importsAt_of_find {w : Workspace} {s : Session} {reference package qualifier name : String}
    {r : Resolved} (hpieces : Text.pieces '.' reference = [qualifier, name])
    (h : s.find w reference package = some r) (hne : r.package ≠ qualifier) :
    ∃ imports, s.importsAt w package = some imports ∧ imports[qualifier]? = some r.package := by
  rcases find_cases h with ⟨hplain, -⟩ | ⟨-, hd⟩ | ⟨other, imported, hq, haliased, hd⟩
  · simp [hpieces] at hplain
  · rw [spelledPackage_of_pair hpieces] at hd
    exact absurd (declared_eq_some hd).1 hne
  · obtain rfl : qualifier = other := by simpa [hpieces] using hq
    obtain ⟨path, imports, hpath, hmap, hqualifier⟩ := aliasedPackage_eq_some hq haliased
    refine ⟨imports, by rw [importsAt, hpath, Option.bind_some, hmap], ?_⟩
    rw [hqualifier, (declared_eq_some hd).1]

/-! ## Lookups, ever after -/

theorem namedTables_after (roots : Package.SearchRoots) (home : String)
    (run : List (Workspace × Request)) : (({ roots, home } : Session).after run).NamedTables :=
  after_invariant (fun _ _ _ _ hstep h => h.step hstep) (namedTables_fresh roots home) run

/-- **A model that was found stays found.** After any requests, in workspaces that change in any
way, what a lookup gives is declared in the symbol table of its package, under the name that
the reference ends in; and the same lookup succeeds ever after. It gives the same model unless
the reference has two segments and was resolved by the import map of the given package; then it
may later give the model of the package that the first segment names. -/
theorem findModel_persists (roots : Package.SearchRoots) (home : String)
    (run : List (Workspace × Request)) (w : Workspace) (reference package : String) (r : Resolved)
    (t : Session)
    (h : findModel w reference package (({ roots, home } : Session).after run) = .ok r t) :
    let s := ({ roots, home } : Session).after run
    (∃ table : Package.SymbolTable, result? (symbolTable w r.package s) = some (some table) ∧
      table[lastSegment reference]? = some r.decl ∧ r.decl.name = lastSegment reference) ∧
    (∀ qualifier name, Text.pieces '.' reference = [qualifier, name] → r.package ≠ qualifier →
      ∃ imports : Package.ImportMap, result? (importMap w package s) = some (some imports) ∧
        imports[qualifier]? = some r.package) ∧
    ∀ (later : List (Workspace × Request)) (w' : Workspace),
      ∃ r' u, findModel w' reference package (t.after later) = .ok r' u ∧
        ((Text.pieces '.' reference).length ≠ 2 ∨ r.package = spelledPackage reference → r' = r) ∧
        ∀ qualifier name, Text.pieces '.' reference = [qualifier, name] →
          r' = r ∨ r'.package = qualifier := by
  intro s
  have hnamed : s.NamedTables := namedTables_after roots home run
  obtain ⟨hst, hfind, howner, hpackage⟩ := (findModel_spec w reference package s).of_ok h
  refine ⟨?_, fun qualifier name hpieces hne => ?_, fun later w' => ?_⟩
  · obtain ⟨-, path, table, hpath, htable, hdecl⟩ := declared_eq_some (declared_of_find hfind)
    refine ⟨table, ?_, hdecl, hnamed path table _ r.decl htable hdecl⟩
    rw [symbolTable_eq, tableAt, hpath, Option.bind_some, htable]
    rfl
  · obtain ⟨imports, himports, hqualifier⟩ := importsAt_of_find hpieces hfind hne
    refine ⟨imports, ?_, hqualifier⟩
    rw [importMap_eq, himports]
    rfl
  · have hmirrored : t.Mirrored :=
      hst.invariant (fun _ _ _ _ hstep hs => hs.step hstep) (mirrored_after roots home run)
    obtain ⟨r', hfind', hkeep, hmoved⟩ := (hmirrored.grows_after later).find w'
      (hst.find_eq ▸ hfind) howner hpackage
    cases hx : findModel w' reference package (t.after later) with
    | error e u =>
      have hnone := ((findModel_spec w' reference package (t.after later)).of_error hx).2
      rw [hfind'] at hnone
      cases hnone
    | ok found u =>
      have hsome := ((findModel_spec w' reference package (t.after later)).of_ok hx).2.1
      obtain rfl : r' = found := Option.some.inj (hfind'.symm.trans hsome)
      refine ⟨r', u, rfl, hkeep, fun qualifier name hpieces => ?_⟩
      rw [← spelledPackage_of_pair hpieces]
      exact hmoved

/-- A package that imports another one under the name of a third one. -/
def eclipse : Workspace :=
  let file (text : String) : Workspace.Entry := .file text.toUTF8
  ((((((Workspace.empty.put ["src"] .directory).put ["src", "a"] .directory).put
    ["src", "b"] .directory).put ["src", "x"] .directory).put
    ["src", "a", "a.go"] (file "package a\ntype T int\n")).put
    ["src", "b", "b.go"] (file "package b\nimport x \"a\"\n")).put
    ["src", "x", "x.go"] (file "package x\ntype T string\n")

/-- The reference leads to the imported package first. It stays so when everything is gone and
the package of its name cannot be read any more; once that one has been read, it is the one. -/
theorem findModel_persists_eclipse :
    let s := ({ roots := ⟨["src"], none⟩ } : Session).after [(eclipse, .buildTypes "b")]
    ∃ r t, findModel eclipse "x.T" "b" s = .ok r t ∧ r.package = "a" ∧ r.decl.name = "T" ∧
      (∃ u, findModel .empty "x.T" "b" (t.after [(.empty, .buildTypes "x")]) = .ok r u) ∧
      ∃ r' u, findModel .empty "x.T" "b" (t.after [(eclipse, .buildTypes "x")]) = .ok r' u ∧
        r'.package = "x" := by
  intro s
  have hfirst : (result? (findModel eclipse "x.T" "b" s)).map (·.package) = some "a" := by
    decide +kernel
  obtain ⟨r, hr, howner⟩ := Option.map_eq_some_iff.1 hfirst
  have hfound := eq_ok_of_result? hr
  obtain ⟨⟨_, -, -, hname⟩, -, hlater⟩ := findModel_persists ⟨["src"], none⟩ "."
    [(eclipse, .buildTypes "b")] eclipse "x.T" "b" r _ hfound
  refine ⟨r, _, hfound, howner, hname.trans (by decide), ?_, ?_⟩
  · obtain ⟨r', u, hagain, -, hmoved⟩ := hlater [(.empty, .buildTypes "x")] .empty
    have hgone : (result? (findModel .empty "x.T" "b"
        ((finalState (findModel eclipse "x.T" "b" s)).after [(.empty, .buildTypes "x")]))).map
          (·.package) = some "a" := by decide +kernel
    rcases hmoved "x" "T" (by decide) with rfl | hx
    · exact ⟨u, hagain⟩
    · rw [hagain] at hgone
      simp [result?, hx] at hgone
  · obtain ⟨r', u, hagain, -, -⟩ := hlater [(eclipse, .buildTypes "x")] .empty
    have hread : (result? (findModel .empty "x.T" "b"
        ((finalState (findModel eclipse "x.T" "b" s)).after [(eclipse, .buildTypes "x")]))).map
          (·.package) = some "x" := by decide +kernel
    rw [hagain] at hread
    exact ⟨r', u, hagain, by simpa [result?] using hread⟩

end ApiDocs.Session
