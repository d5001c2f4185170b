/-
  ApiDocs.Proofs.Package.Mirror

  Tables mirror the units that they were made from. Whatever a session has been through, the
  symbols of a directory are the types that its known units declare, and its imports are those
  of its known units (`Mirrored`): tables are only filled from units that are known, known units
  never change, and filling a table a second time from the same units changes nothing. In both
  kinds of tables the last one of a name counts (`addTypes_eq_some`, `localNames_eq_some`).
-/

import ApiDocs.Proofs.Requests

namespace ApiDocs.Session

open Source (SourceUnit TypeDecl Import)

/-! ## The last one of a name -/

/-- The last element of a list with a property: nothing behind it has the property. -/
def IsLast {α : Type} (p : α → Prop) (l : List α) (a : α) : Prop :=
  ∃ before behind, l = before ++ a :: behind ∧ p a ∧ ∀ b ∈ behind, ¬ p b

theorem find?_reverse_eq_some {α : Type} {p : α → Prop} [DecidablePred p] {l : List α} {a : α} :
    l.reverse.find? (fun b => p b) = some a ↔ IsLast p l a := by
  rw [List.find?_eq_some_iff_append]
  constructor
  · rintro ⟨hp, behind, before, hl, hbehind⟩
    refine ⟨before.reverse, behind.reverse, ?_, by simpa using hp, fun b hb => ?_⟩
    · rw [← List.reverse_reverse l, hl]
      simp
    · simpa using hbehind b (List.mem_reverse.1 hb)
  · rintro ⟨before, behind, rfl, hp, hbehind⟩
    refine ⟨by simpa using hp, behind.reverse, before.reverse, by simp, fun b hb => ?_⟩
    simpa using hbehind b (List.mem_reverse.1 hb)

/-- If anything has the property, there is a last one. -/
theorem exists_isLast_iff {α : Type} {p : α → Prop} [DecidablePred p] {l : List α} :
    (∃ a, IsLast p l a) ↔ ∃ a ∈ l, p a := by
  constructor
  · rintro ⟨a, before, behind, rfl, hp, -⟩
    exact ⟨a, by simp, hp⟩
  · rintro ⟨a, ha, hp⟩
    cases hf : l.reverse.find? (fun b => p b) with
    | some b => exact ⟨b, find?_reverse_eq_some.1 hf⟩
    | none =>
      have := List.find?_eq_none.1 hf a (List.mem_reverse.2 ha)
      exact absurd hp (by simpa using this)

theorem IsLast.mem {α : Type} {p : α → Prop} {l : List α} {a : α} (h : IsLast p l a) : a ∈ l := by
  obtain ⟨before, behind, rfl, -⟩ := h
  simp

theorem IsLast.holds {α : Type} {p : α → Prop} {l : List α} {a : α} (h : IsLast p l a) : p a := by
  obtain ⟨before, behind, -, hp, -⟩ := h
  exact hp

theorem IsLast.congr {α : Type} {p q : α → Prop} {l : List α} {a : α} (h : IsLast p l a)
    (hpq : ∀ b ∈ l, p b ↔ q b) : IsLast q l a := by
  obtain ⟨before, behind, rfl, hp, hbehind⟩ := h
  refine ⟨before, behind, rfl, (hpq a (by simp)).1 hp, fun b hb hq => ?_⟩
  exact hbehind b hb ((hpq b (by simp [hb])).2 hq)

/-! ## What the tables of units hold -/

theorem getElem?_addTypes (table : Package.SymbolTable) (units : List SourceUnit) (name : String) :
    (addTypes table units)[name]? =
      ((units.flatMap (·.types)).reverse.find? fun decl => decl.name = name).or table[name]? := by
  have h := Dict.getElem?_foldl
    (fun (table : Package.SymbolTable) (decl : TypeDecl) => table.insert decl.name decl)
    (fun decl => some decl.name) id
    (fun table decl name => by simp only [Dict.getElem?_insert, Option.some.injEq, id])
    (units.flatMap (·.types)) table name
  simpa only [addTypes, Option.some.injEq, Option.map_id, id] using h

/-- Adding the types of the same units once more changes nothing. -/
theorem addTypes_addTypes (table : Package.SymbolTable) (units : List SourceUnit) :
    addTypes (addTypes table units) units = addTypes table units := by
  apply Std.ExtTreeMap.ext_getElem?
  intro name
  rw [getElem?_addTypes, getElem?_addTypes, ← Option.or_assoc, Option.or_self]

theorem addTypes_eq_some {units : List SourceUnit} {name : String} {decl : TypeDecl} :
    (addTypes ∅ units)[name]? = some decl ↔
      IsLast (fun decl : TypeDecl => decl.name = name) (units.flatMap (·.types)) decl := by
  rw [getElem?_addTypes, Std.ExtTreeMap.getElem?_empty, Option.or_none, find?_reverse_eq_some]

theorem getElem?_addLocalName (known : Package.ImportMap) (i : Import) (name : String) :
    (addLocalName known i)[name]? = if i.localName? = some name then some i.path else known[name]? := by
  rw [addLocalName]
  cases i.localName? with
  | none => rfl
  | some given => simp only [Dict.getElem?_insert, Option.some.injEq]

theorem localNames_eq_some {imports : List Import} {name path : String} :
    (localNames imports)[name]? = some path ↔
      ∃ i, IsLast (fun i : Import => i.localName? = some name) imports i ∧ i.path = path := by
  rw [localNames, Dict.getElem?_foldl addLocalName (·.localName?) (·.path) getElem?_addLocalName,
    Std.ExtTreeMap.getElem?_empty, Option.or_none, Option.map_eq_some_iff]
  simp only [find?_reverse_eq_some]

/-! ## The invariant -/

/-- Every table is the one of known units. -/
structure Mirrored (s : Session) : Prop where
  symbols : ∀ (d : String) (table : Package.SymbolTable), s.symbols[d]? = some table →
    ∃ units, s.units[d]? = some units ∧ table = addTypes ∅ units
  imports : ∀ (d : String) (imports : Package.ImportMap), s.imports[d]? = some imports →
    ∃ units, s.units[d]? = some units ∧ imports = localNames (importsOf units)

namespace Mirrored

theorem fresh (roots : Package.SearchRoots) (home : String) :
    ({ roots, home } : Session).Mirrored := by
  constructor
  · intro d table h
    simp at h
  · intro d imports h
    simp at h

variable {s : Session} (h : s.Mirrored)
include h

/-- Tables that stay, over units that stay known. -/
theorem of_eq {t : Session} (hsymbols : t.symbols = s.symbols) (himports : t.imports = s.imports)
    (hunits : ∀ {d : String} {units : List SourceUnit},
      s.units[d]? = some units → t.units[d]? = some units) : t.Mirrored := by
  constructor
  · intro d table htable
    rw [hsymbols] at htable
    obtain ⟨units, hknown, heq⟩ := h.symbols d table htable
    exact ⟨units, hunits hknown, heq⟩
  · intro d imports hmap
    rw [himports] at hmap
    obtain ⟨units, hknown, heq⟩ := h.imports d imports hmap
    exact ⟨units, hunits hknown, heq⟩

/-- Filling the table of a directory, whether or not it was filled before. -/
theorem declare {path : String} {units : List SourceUnit} (hknown : s.units[path]? = some units) :
    (s.declare path units).Mirrored := by
  refine ⟨fun d table htable => ?_, h.imports⟩
  rw [Session.declare, Dict.getElem?_insert] at htable
  by_cases hd : path = d
  · subst hd
    rw [if_pos rfl, Option.some.injEq] at htable
    refine ⟨units, hknown, ?_⟩
    rw [← htable]
    cases hold : s.symbols[path]? with
    | none => rfl
    | some old =>
      -- the old table was made from the same units
      obtain ⟨units', hknown', rfl⟩ := h.symbols path old hold
      obtain rfl := Option.some.inj (hknown.symm.trans hknown')
      exact addTypes_addTypes ∅ units
  · rw [if_neg hd] at htable
    exact h.symbols d table htable

theorem adopt {path : String} {units : List SourceUnit} (hknown : s.units[path]? = some units) :
    (s.adopt path units).Mirrored := by
  refine ⟨h.symbols, fun d imports hmap => ?_⟩
  rw [Session.adopt, Dict.getElem?_insert] at hmap
  by_cases hd : path = d
  · subst hd
    rw [if_pos rfl, Option.some.injEq] at hmap
    exact ⟨units, hknown, hmap.symm⟩
  · rw [if_neg hd] at hmap
    exact h.imports d imports hmap

theorem step {w : Workspace} {e : Effect} {t : Session} (hstep : Step w e s t) : t.Mirrored := by
  have hchange : Changes w [e] s t := .single List.mem_cons_self hstep
  cases hstep with
  | locate => exact h.of_eq (symbols_learn ..) (imports_learn ..) hchange.units_of_known
  | read => exact h.of_eq (symbols_fetch ..) (imports_fetch ..) hchange.units_of_known
  | declare _ _ _ hknown => exact h.declare hknown
  | adopt _ _ _ hknown => exact h.adopt hknown

end Mirrored

theorem mirrored_after (roots : Package.SearchRoots) (home : String)
    (run : List (Workspace × Request)) : (({ roots, home } : Session).after run).Mirrored :=
  after_invariant (fun _ _ _ _ hstep h => Mirrored.step h hstep) (Mirrored.fresh roots home) run

/-- Collecting imports changes a table only when it has succeeded. -/
theorem tables_of_collectImports_error {w : Workspace} {package : String} {s t : Session} {e : Error}
    (h : collectImports w package s = .error e t) : t.symbols = s.symbols ∧ t.imports = s.imports := by
  obtain ⟨hchanges, -⟩ := (collectImports_spec w package s).of_error h
  exact ⟨hchanges.symbols_eq (by simp), hchanges.imports_eq (by simp)⟩

/-- **Tables mirror known units**, after any requests in a workspace that may change in between.
The symbols of a directory give a name the last declaration with that name, in the order of its
units and within a unit in the order of declarations, and its imports give a name the path of
the last import with that local name; virtual imports do not count. Nothing else has a table.
Collecting imports leaves all tables alone when it fails. -/
theorem tables_mirror_units (roots : Package.SearchRoots) (home : String)
    (run : List (Workspace × Request)) :
    let s := ({ roots, home } : Session).after run
    (∀ (d : String) (table : Package.SymbolTable), s.symbols[d]? = some table →
      ∃ units, s.units[d]? = some units ∧
        (∀ name, name ∈ table ↔ ∃ unit ∈ units, ∃ decl ∈ unit.types, decl.name = name) ∧
        ∀ (name : String) (decl : TypeDecl), table[name]? = some decl ↔
          IsLast (fun decl => decl.name = name) (units.flatMap (·.types)) decl) ∧
    (∀ (d : String) (imports : Package.ImportMap), s.imports[d]? = some imports →
      ∃ units, s.units[d]? = some units ∧
        ∀ name path : String, imports[name]? = some path ↔
          ∃ i, IsLast (fun i => i.localName? = some name)
            ((units.flatMap (·.imports)).filter fun i => !isVirtual i.path) i ∧ i.path = path) ∧
    ∀ (w : Workspace) (package : String) (e : Error) (t : Session),
      collectImports w package s = .error e t → t.symbols = s.symbols ∧ t.imports = s.imports := by
  intro s
  have hmirrored : s.Mirrored := mirrored_after roots home run
  refine ⟨fun d table htable => ?_, fun d imports himports => ?_, fun w package e t h =>
    tables_of_collectImports_error h⟩
  · obtain ⟨units, hunits, rfl⟩ := hmirrored.symbols d table htable
    refine ⟨units, hunits, fun name => ?_, fun name decl => addTypes_eq_some⟩
    rw [Dict.mem_iff_getElem?]
    simp only [addTypes_eq_some, exists_isLast_iff, List.mem_flatMap]
    exact ⟨fun ⟨decl, ⟨unit, hunit, hdecl⟩, hname⟩ => ⟨unit, hunit, decl, hdecl, hname⟩,
      fun ⟨unit, hunit, decl, hdecl, hname⟩ => ⟨decl, ⟨unit, hunit, hdecl⟩, hname⟩⟩
  · obtain ⟨units, hunits, rfl⟩ := hmirrored.imports d imports himports
    exact ⟨units, hunits, fun name path => localNames_eq_some⟩

/-- A package in two files that declare one type three times and give one local name to two
packages, the second of which imports what does not exist. -/
def doubled : Workspace :=
  let file (text : String) : Workspace.Entry := .file text.toUTF8
  ((((((((Workspace.empty.put ["src"] .directory).put ["src", "p"] .directory).put
    ["src", "q"] .directory).put ["src", "r"] .directory).put
    ["src", "p", "a.go"] (file "package p\nimport x \"q\"\ntype T int\ntype T string\n")).put
    ["src", "p", "b.go"] (file "package p\nimport x \"r\"\nimport x \"C\"\ntype T bool\n")).put
    ["src", "q", "q.go"] (file "package q\n")).put
    ["src", "r", "r.go"] (file "package r\nimport \"nowhere\"\n"))

/-- Building the types of that package fails, and leaves tables that mirror its units: the last
file has the last word, and the virtual import does not count. -/
theorem tables_mirror_units_doubled :
    let s := ({ roots := ⟨["src"], none⟩ } : Session).after [(doubled, .buildTypes "p")]
    (∃ (table : Package.SymbolTable) (decl : TypeDecl) (units : List SourceUnit),
      s.symbols["src/p"]? = some table ∧ table["T"]? = some decl ∧
      Swagger.Builder.leafName? decl.type = some (none, "bool") ∧ s.units["src/p"]? = some units ∧
      IsLast (fun decl => decl.name = "T") (units.flatMap (·.types)) decl) ∧
    (∃ (imports : Package.ImportMap) (units : List SourceUnit) (i : Import),
      s.imports["src/p"]? = some imports ∧ imports["x"]? = some "r" ∧
      s.units["src/p"]? = some units ∧ i.path = "r" ∧
      IsLast (fun i => i.localName? = some "x")
        ((units.flatMap (·.imports)).filter fun i => !isVirtual i.path) i) ∧
    ∃ e t, collectImports doubled "r" s = .error e t ∧ t.symbols = s.symbols ∧ t.imports = s.imports := by
  intro s
  obtain ⟨hsymbols, himports, hfailed⟩ :=
    tables_mirror_units ⟨["src"], none⟩ "." [(doubled, .buildTypes "p")]
  refine ⟨?_, ?_, ?_⟩
  · have hlast : ((s.symbols["src/p"]?.bind fun table => table["T"]?).bind fun decl =>
        Swagger.Builder.leafName? decl.type) = some (none, "bool") := by decide +kernel
    obtain ⟨decl, hfound, htype⟩ := Option.bind_eq_some_iff.1 hlast
    obtain ⟨table, htable, hdecl⟩ := Option.bind_eq_some_iff.1 hfound
    obtain ⟨units, hunits, -, hmirror⟩ := hsymbols "src/p" table htable
    exact ⟨table, decl, units, htable, hdecl, htype, hunits, (hmirror "T" decl).1 hdecl⟩
  · have hlast : (s.imports["src/p"]?.bind fun imports => imports["x"]?) = some "r" := by
      decide +kernel
    obtain ⟨imports, hmap, hpath⟩ := Option.bind_eq_some_iff.1 hlast
    obtain ⟨units, hunits, hmirror⟩ := himports "src/p" imports hmap
    obtain ⟨i, hi, hipath⟩ := (hmirror "x" "r").1 hpath
    exact ⟨imports, units, i, hmap, hpath, hunits, hipath, hi⟩
  · have hfails : isOk (collectImports doubled "r" s) = false := by decide +kernel
    cases hx : collectImports doubled "r" s with
    | ok imported t =>
      rw [hx] at hfails
      cases hfails
    | error e t => exact ⟨e, t, rfl, hfailed doubled "r" e t hx⟩

end ApiDocs.Session
