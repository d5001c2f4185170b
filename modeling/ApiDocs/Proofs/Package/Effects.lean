/-
  ApiDocs.Proofs.Package.Effects

  What a session can do, said once. A session changes by four kinds of steps: it locates an
  identifier, reads a directory, declares the types of a directory that has been read, or
  adopts the imports of one. Every computation on sessions is a sequence of such steps, of
  the kinds that its `Keeps` lemma names, and what all steps of a kind leave alone is left
  alone by every computation that takes no others.
-/

import ApiDocs.Package.Symbols
import ApiDocs.Proofs.Package.Knowledge
import Mathlib.Logic.Relation

namespace ApiDocs.Session

open Source (SourceUnit Import)

/-- The kinds of steps that change a session. -/
inductive Effect where
  | locating
  | reading
  | declaring
  | importing
  deriving DecidableEq, Repr

/-- The session in which the types that the units of a directory declare are collected. -/
def declare (s : Session) (path : String) (units : List SourceUnit) : Session :=
  { s with symbols := s.symbols.insert path (addTypes ((s.symbols[path]?).getD ∅) units) }

/-- The local names of imports; a later one replaces an earlier one. -/
def localNames (imports : List Import) : Package.ImportMap :=
  imports.foldl addLocalName ∅

/-- The session in which the imports of the units of a directory are collected. -/
def adopt (s : Session) (path : String) (units : List SourceUnit) : Session :=
  { s with imports := s.imports.insert path (localNames (importsOf units)) }

/-- One step of a session in a workspace. Only what has been read is declared or adopted. -/
inductive Step (w : Workspace) : Effect → Session → Session → Prop where
  | locate (s : Session) (identifier : String) : Step w .locating s (s.learn w identifier)
  | read (s : Session) (path : String) : Step w .reading s (s.fetch w path)
  | declare (s : Session) (path : String) (units : List SourceUnit)
      (known : s.units[path]? = some units) : Step w .declaring s (s.declare path units)
  | adopt (s : Session) (path : String) (units : List SourceUnit)
      (known : s.units[path]? = some units) : Step w .importing s (s.adopt path units)

/-- Any number of steps of the given kinds. -/
def Changes (w : Workspace) (effects : List Effect) : Session → Session → Prop :=
  Relation.ReflTransGen fun s t => ∃ e ∈ effects, Step w e s t

/-- Every kind of step. -/
def Effect.every : List Effect := [.locating, .reading, .declaring, .importing]

theorem Effect.mem_every (e : Effect) : e ∈ Effect.every := by
  cases e <;> decide

namespace Changes

variable {w : Workspace} {effects : List Effect} {s t : Session}

instance : IsPreorder Session (Changes w effects) :=
  inferInstanceAs (IsPreorder Session (Relation.ReflTransGen _))

theorem refl (s : Session) : Changes w effects s s :=
  Relation.ReflTransGen.refl

theorem trans {u : Session} (h : Changes w effects s t) (h' : Changes w effects t u) :
    Changes w effects s u :=
  Relation.ReflTransGen.trans h h'

theorem single {e : Effect} (he : e ∈ effects) (h : Step w e s t) : Changes w effects s t :=
  Relation.ReflTransGen.single ⟨e, he, h⟩

theorem mono {effects' : List Effect} (h : Changes w effects s t) (hsub : effects ⊆ effects') :
    Changes w effects' s t := by
  induction h with
  | refl => exact refl s
  | tail _ hst ih =>
    obtain ⟨e, he, hst⟩ := hst
    exact ih.trans (single (hsub he) hst)

/-- What every step of the kinds keeps is kept. -/
theorem invariant {P : Session → Prop} (h : Changes w effects s t)
    (hstep : ∀ e ∈ effects, ∀ s t, Step w e s t → P s → P t) (hs : P s) : P t := by
  induction h with
  | refl => exact hs
  | tail _ hst ih =>
    obtain ⟨e, he, hst⟩ := hst
    exact hstep e he _ _ hst ih

/-! ## What no step changes -/

theorem roots_eq (h : Changes w effects s t) : t.roots = s.roots := by
  apply h.invariant (P := fun u => u.roots = s.roots) ?_ rfl
  intro e _ u v hst hu
  cases hst with
  | locate => rw [roots_learn, hu]
  | read => rw [roots_fetch, hu]
  | declare | adopt => exact hu

/-- In the same workspace, identifiers lead where they did before. -/
theorem whereIs_eq (h : Changes w effects s t) (identifier : String) :
    t.whereIs w identifier = s.whereIs w identifier := by
  apply h.invariant (P := fun u => u.whereIs w identifier = s.whereIs w identifier) ?_ rfl
  intro e _ u v hst hu
  cases hst with
  | locate => rw [whereIs_learn, hu]
  | read => rw [whereIs_fetch, hu]
  | declare | adopt => exact hu

/-- In the same workspace, directories hold what they did before. -/
theorem unitsAt_eq (h : Changes w effects s t) (path : String) :
    t.unitsAt w path = s.unitsAt w path := by
  apply h.invariant (P := fun u => u.unitsAt w path = s.unitsAt w path) ?_ rfl
  intro e _ u v hst hu
  cases hst with
  | locate => rw [unitsAt_learn, hu]
  | read => rw [unitsAt_fetch, hu]
  | declare | adopt => exact hu

/-- A known answer stays, also when the workspace has changed since. -/
theorem located_of_known (h : Changes w effects s t) {key : String} {answer : Option String}
    (hk : s.located[key]? = some answer) : t.located[key]? = some answer := by
  apply h.invariant (P := fun u => u.located[key]? = some answer) ?_ hk
  intro e _ u v hst hu
  cases hst with
  | locate _ identifier =>
    rw [located_learn]
    by_cases hb : bareIdentifier identifier = key
    · rw [if_pos hb, whereIs_of_known (hb ▸ hu)]
    · rw [if_neg hb, hu]
  | read => rw [located_fetch, hu]
  | declare | adopt => exact hu

/-- Known units stay, also when the workspace has changed since. -/
theorem units_of_known (h : Changes w effects s t) {path : String} {units : List SourceUnit}
    (hk : s.units[path]? = some units) : t.units[path]? = some units := by
  apply h.invariant (P := fun u => u.units[path]? = some units) ?_ hk
  intro e _ u v hst hu
  cases hst with
  | locate => rw [units_learn, hu]
  | read _ other =>
    rw [units_fetch]
    by_cases hp : other = path
    · rw [if_pos hp, hp]
      simp only [unitsAt, hu]
      rfl
    · rw [if_neg hp, hu]
  | declare | adopt => exact hu

theorem mem_symbols (h : Changes w effects s t) {path : String} (hp : path ∈ s.symbols) :
    path ∈ t.symbols := by
  apply h.invariant (P := fun u => path ∈ u.symbols) ?_ hp
  intro e _ u v hst hu
  cases hst with
  | locate => rwa [symbols_learn]
  | read => rwa [symbols_fetch]
  | declare => exact Dict.mem_insert_iff.2 (.inr hu)
  | adopt => exact hu

theorem mem_imports (h : Changes w effects s t) {path : String} (hp : path ∈ s.imports) :
    path ∈ t.imports := by
  apply h.invariant (P := fun u => path ∈ u.imports) ?_ hp
  intro e _ u v hst hu
  cases hst with
  | locate => rwa [imports_learn]
  | read => rwa [imports_fetch]
  | declare => exact hu
  | adopt => exact Dict.mem_insert_iff.2 (.inr hu)

/-! ## What only one kind of step changes -/

theorem units_eq (h : Changes w effects s t) (he : Effect.reading ∉ effects) :
    t.units = s.units := by
  apply h.invariant (P := fun u => u.units = s.units) ?_ rfl
  intro e hmem u v hst hu
  cases hst with
  | locate => rw [units_learn, hu]
  | read => exact absurd hmem he
  | declare | adopt => exact hu

theorem symbols_eq (h : Changes w effects s t) (he : Effect.declaring ∉ effects) :
    t.symbols = s.symbols := by
  apply h.invariant (P := fun u => u.symbols = s.symbols) ?_ rfl
  intro e hmem u v hst hu
  cases hst with
  | locate => rw [symbols_learn, hu]
  | read => rw [symbols_fetch, hu]
  | declare => exact absurd hmem he
  | adopt => exact hu

theorem imports_eq (h : Changes w effects s t) (he : Effect.importing ∉ effects) :
    t.imports = s.imports := by
  apply h.invariant (P := fun u => u.imports = s.imports) ?_ rfl
  intro e hmem u v hst hu
  cases hst with
  | locate => rw [imports_learn, hu]
  | read => rw [imports_fetch, hu]
  | declare => exact hu
  | adopt => exact absurd hmem he

end Changes

/-! ## Computations that only locate -/

section Computations

variable (w : Workspace)

/-- A computation that takes steps of some kinds takes steps of more kinds. -/
theorem keeps_mono {α : Type} {effects effects' : List Effect} {x : SessionM α}
    (h : Keeps (Changes w effects) x) (hsub : effects ⊆ effects') : Keeps (Changes w effects') x :=
  h.mono fun _ _ hst => hst.mono hsub

theorem keeps_resolve (identifier : String) :
    Keeps (Changes w [.locating]) (resolve w identifier) := by
  intro s
  apply ensures_of_eq_ok (resolve_eq w s identifier)
  exact .single List.mem_cons_self (.locate s identifier)

theorem keeps_locate (identifier : String) :
    Keeps (Changes w [.locating]) (locate w identifier) := by
  refine (keeps_resolve w identifier).bind fun place => ?_
  cases place with
  | some path => exact keeps_pure path
  | none => exact keeps_throw _

/-! ## Computations that read and collect -/

theorem keeps_unitsOf (path : String) : Keeps (Changes w [.reading]) (unitsOf w path) := by
  intro s
  have hstep : Changes w [.reading] s (s.fetch w path) :=
    .single List.mem_cons_self (.read s path)
  rw [Ensures, unitsOf_eq]
  cases s.unitsAt w path with
  | ok units => exact hstep
  | error e => exact hstep

theorem keeps_packageUnits (package : String) :
    Keeps (Changes w [.locating, .reading]) (packageUnits w package) :=
  (keeps_mono w (keeps_locate w package) (by simp)).bind fun path =>
    keeps_mono w (keeps_unitsOf w path) (by simp)

/-- Adding an import that leads nowhere. -/
theorem addImport_of_nowhere {s : Session} {i : Import} (hw : s.whereIs w i.path = none)
    (acc : Imported) :
    addImport w acc i s = .error (.packageNotFound (bareIdentifier i.path)) (s.learn w i.path) := by
  simp only [addImport, bind_apply, locate_eq, hw, outcome_error]

/-- Adding an import that leads to a directory, which remains to be collected if it has no
symbols. -/
theorem addImport_of_located {s : Session} {i : Import} {path : String}
    (hw : s.whereIs w i.path = some path) (acc : Imported) :
    ∃ acc', addImport w acc i s = .ok acc' (s.learn w i.path) ∧
      acc'.known = addLocalName acc.known i ∧
      ∀ key, key ∈ acc'.unresolved ↔ key ∈ acc.unresolved ∨ i.path = key ∧ path ∉ s.symbols := by
  simp only [addImport, bind_apply, locate_eq, hw, outcome_ok, get_apply, symbols_learn]
  by_cases hc : s.symbols.contains path = true
  · refine ⟨{ acc with known := addLocalName acc.known i }, by rw [if_pos hc]; rfl, rfl, ?_⟩
    intro key
    simp [Dict.contains_iff.1 hc]
  · refine ⟨⟨addLocalName acc.known i, acc.unresolved.insert i.path ()⟩,
      by rw [if_neg hc]; rfl, rfl, ?_⟩
    intro key
    have hp : path ∉ s.symbols := fun hp => hc (Dict.contains_iff.2 hp)
    simp only [Dict.mem_insert_iff, hp, not_false_iff, and_true]
    exact or_comm

/-- What adding imports one after the other amounts to: the local names are adopted in order,
and what remains to be collected are the paths that lead to directories without symbols. It
fails exactly when some import leads nowhere. -/
theorem addImports_spec (imports : List Import) (acc : Imported) (s : Session) :
    Ensures (imports.foldlM (addImport w) acc) s
      (fun found t => Changes w [.locating] s t ∧
        found.known = imports.foldl addLocalName acc.known ∧
        (∀ i ∈ imports, ∃ path, t.located[bareIdentifier i.path]? = some (some path)) ∧
        ∀ key, key ∈ found.unresolved ↔ key ∈ acc.unresolved ∨
          ∃ i ∈ imports, i.path = key ∧ ∃ path, s.whereIs w key = some path ∧ path ∉ s.symbols)
      (fun _ t => Changes w [.locating] s t ∧ ∃ i ∈ imports, s.whereIs w i.path = none) := by
  induction imports generalizing acc s with
  | nil =>
    rw [List.foldlM_nil]
    exact ensures_pure ⟨.refl s, rfl, by simp, by simp⟩
  | cons i imports ih =>
    rw [List.foldlM_cons]
    apply ensures_bind
    have hstep : Changes w [.locating] s (s.learn w i.path) :=
      .single List.mem_cons_self (.locate s i.path)
    cases hw : s.whereIs w i.path with
    | none =>
      apply ensures_of_eq_error (addImport_of_nowhere w hw acc)
      exact ⟨hstep, i, List.mem_cons_self, hw⟩
    | some path =>
      obtain ⟨acc', hok, hknown, hrest⟩ := addImport_of_located w hw acc
      apply ensures_of_eq_ok hok
      refine (ih acc' (s.learn w i.path)).mono (fun found t => ?_) (fun e t => ?_)
      · rintro ⟨hst, hfound, hall, hkeys⟩
        refine ⟨hstep.trans hst, by rw [hfound, hknown]; rfl, ?_, ?_⟩
        · intro j hj
          rcases List.mem_cons.1 hj with rfl | hj
          · exact ⟨path, hst.located_of_known (by rw [located_learn, if_pos rfl, hw])⟩
          · exact hall j hj
        · intro key
          rw [hkeys, hrest]
          simp only [whereIs_learn, symbols_learn]
          constructor
          · rintro ((h | ⟨rfl, hp⟩) | ⟨j, hj, hjk, hp⟩)
            · exact .inl h
            · exact .inr ⟨i, List.mem_cons_self, rfl, path, hw, hp⟩
            · exact .inr ⟨j, List.mem_cons_of_mem i hj, hjk, hp⟩
          · rintro (h | ⟨j, hj, hjk, path', hw', hp⟩)
            · exact .inl (.inl h)
            · rcases List.mem_cons.1 hj with rfl | hj
              · subst hjk
                rw [hw, Option.some.injEq] at hw'
                subst hw'
                exact .inl (.inr ⟨rfl, hp⟩)
              · exact .inr ⟨j, hj, hjk, path', hw', hp⟩
      · rintro ⟨hst, j, hj, hn⟩
        exact ⟨hstep.trans hst, j, List.mem_cons_of_mem i hj, by simpa using hn⟩

/-- Collecting imports reads the package and adopts the imports of its units; what it gives
are the imported packages without symbols. -/
theorem collectImports_spec (package : String) (s : Session) :
    Ensures (collectImports w package) s
      (fun imported t => ∃ path units u,
        s.whereIs w package = some path ∧ s.unitsAt w path = .ok units ∧
        Changes w [.locating, .reading] s u ∧ u.units[path]? = some units ∧
        t = u.adopt path units ∧
        (∀ i ∈ importsOf units, ∃ d, t.located[bareIdentifier i.path]? = some (some d)) ∧
        ∀ key, key ∈ imported ↔
          ∃ i ∈ importsOf units, i.path = key ∧ ∃ d, s.whereIs w key = some d ∧ d ∉ s.symbols)
      (fun _ t => Changes w [.locating, .reading] s t ∧
        ∀ path units, s.whereIs w package = some path → s.unitsAt w path = .ok units →
          ∃ i ∈ importsOf units, s.whereIs w i.path = none) := by
  have hlocate : Changes w [.locating, .reading] s (s.learn w package) :=
    .single (by simp) (.locate s package)
  apply ensures_bind
  rw [Ensures, locate_eq]
  cases hp : s.whereIs w package with
  | none => exact ⟨hlocate, by simp⟩
  | some path =>
    have hread : Changes w [.locating, .reading] s ((s.learn w package).fetch w path) :=
      hlocate.trans (.single (by simp) (.read _ path))
    apply ensures_bind
    rw [Ensures, unitsOf_eq, unitsAt_learn]
    cases hu : s.unitsAt w path with
    | error e =>
      refine ⟨hread, fun path' units hpath hunits => ?_⟩
      obtain rfl := Option.some.inj hpath
      rw [hu] at hunits
      cases hunits
    | ok units =>
      have hknown : ((s.learn w package).fetch w path).units[path]? = some units := by
        rw [units_fetch, if_pos rfl, unitsAt_learn, hu]
        rfl
      apply ensures_bind
      refine (addImports_spec w (importsOf units) {} _).mono (fun found u => ?_) (fun e u => ?_)
      · rintro ⟨hloc, hnames, hall, hkeys⟩
        apply ensures_bind
        apply ensures_modify
        apply ensures_pure
        simp only [whereIs_fetch, whereIs_learn, symbols_fetch, symbols_learn] at hkeys
        refine ⟨path, units, u, rfl, hu, hread.trans (hloc.mono (by simp)), ?_, ?_, hall, ?_⟩
        · exact hloc.units_of_known hknown
        · rw [hnames]
          rfl
        · intro key
          rw [Std.ExtTreeMap.mem_keys, hkeys]
          simp
      · rintro ⟨hloc, i, hi, hnone⟩
        simp only [whereIs_fetch, whereIs_learn] at hnone
        refine ⟨hread.trans (hloc.mono (by simp)), fun path' units' hpath hunits => ?_⟩
        obtain rfl := Option.some.inj hpath
        obtain rfl := Except.ok.inj (hu.symm.trans hunits)
        exact ⟨i, hi, hnone⟩

theorem keeps_collectImports (package : String) :
    Keeps (Changes w [.locating, .reading, .importing]) (collectImports w package) := by
  intro s
  refine (collectImports_spec w package s).mono (fun imported t => ?_) (fun e t => ?_)
  · rintro ⟨path, units, u, -, -, hsu, hunits, rfl, -, -⟩
    exact (hsu.mono (by simp)).trans (.single (by simp) (.adopt u path units hunits))
  · rintro ⟨hst, -⟩
    exact hst.mono (by simp)

/-- The directory can be read, and each import of its units leads to some directory, unless it is
virtual. -/
def Loadable (w : Workspace) (s : Session) (path : String) : Prop :=
  ∃ units, s.unitsAt w path = .ok units ∧
    ∀ unit ∈ units, ∀ i ∈ unit.imports, isVirtual i.path = false → ∃ d, s.whereIs w i.path = some d

/-- What is collected from units are their imports, but for the virtual ones. -/
theorem mem_importsOf {units : List SourceUnit} {i : Import} :
    i ∈ importsOf units ↔ ∃ unit ∈ units, i ∈ unit.imports ∧ isVirtual i.path = false := by
  simp only [importsOf, List.mem_filter, List.mem_flatMap, Bool.not_eq_true']
  exact ⟨fun ⟨⟨unit, hunit, hi⟩, hreal⟩ => ⟨unit, hunit, hi, hreal⟩,
    fun ⟨unit, hunit, hi, hreal⟩ => ⟨⟨unit, hunit, hi⟩, hreal⟩⟩

/-- A directory can be loaded exactly if all that is collected from it leads to directories. -/
theorem loadable_iff_importsOf {w : Workspace} {s : Session} {path : String} :
    s.Loadable w path ↔
      ∃ units, s.unitsAt w path = .ok units ∧ ∀ i ∈ importsOf units, ∃ d, s.whereIs w i.path = some d := by
  simp only [Loadable, mem_importsOf]
  constructor
  · rintro ⟨units, hunits, hall⟩
    exact ⟨units, hunits, fun i ⟨unit, hunit, hi, hreal⟩ => hall unit hunit i hi hreal⟩
  · rintro ⟨units, hunits, hall⟩
    exact ⟨units, hunits, fun unit hunit i hi hreal => hall i ⟨unit, hunit, hi, hreal⟩⟩

/-- What collecting the types and the imports of the directory `path` amounts to, if its units
are these: it gets symbols and imports, its imports are located, and those of them that lead
to directories without symbols are given back. -/
structure Gathered (w : Workspace) (s : Session) (path : String) (units : List SourceUnit)
    (imported : List String) (t : Session) : Prop where
  changes : Changes w Effect.every s t
  unitsAt : s.unitsAt w path = .ok units
  known : t.units[path]? = some units
  symbols : ∀ d, d ∈ t.symbols ↔ d = path ∨ d ∈ s.symbols
  imports : ∀ d, d ∈ t.imports ↔ d = path ∨ d ∈ s.imports
  located : ∀ i ∈ importsOf units, ∃ d, t.located[bareIdentifier i.path]? = some (some d)
  missing : ∀ key, key ∈ imported ↔
    ∃ i ∈ importsOf units, i.path = key ∧ ∃ d, s.whereIs w key = some d ∧ d ∉ t.symbols

/-- What failing to do so amounts to: the directory cannot be loaded. It may have got symbols
nevertheless, but no imports. -/
structure Refused (w : Workspace) (s : Session) (path : String) (t : Session) : Prop where
  changes : Changes w Effect.every s t
  unloadable : ¬ Loadable w s path
  symbols : ∀ d ∈ t.symbols, d = path ∨ d ∈ s.symbols
  imports : t.imports = s.imports

theorem collect_spec {package path : String} {s : Session} (hp : s.whereIs w package = some path) :
    Ensures (collect w package path) s
      (fun imported t => ∃ units, Gathered w s path units imported t)
      (fun _ t => Refused w s path t) := by
  have hread : Changes w Effect.every s (s.fetch w path) :=
    .single (Effect.mem_every _) (.read s path)
  apply ensures_bind
  rw [Ensures, unitsOf_eq]
  cases hu : s.unitsAt w path with
  | error e =>
    refine ⟨hread, ?_, ?_, imports_fetch w s path⟩
    · rintro ⟨units, hunits, -⟩
      rw [hu] at hunits
      cases hunits
    · intro d hd
      rw [symbols_fetch] at hd
      exact .inr hd
  | ok units =>
    have hknown : (s.fetch w path).units[path]? = some units := by
      rw [units_fetch, if_pos rfl, hu]
      rfl
    have hdeclare : Changes w Effect.every s ((s.fetch w path).declare path units) :=
      hread.trans (.single (Effect.mem_every _) (.declare _ path units hknown))
    apply ensures_bind
    apply ensures_modify
    show Ensures (collectImports w package) ((s.fetch w path).declare path units) _ _
    have hdeclared : ∀ {u : Session}, u.symbols = ((s.fetch w path).declare path units).symbols →
        ∀ d, d ∈ u.symbols ↔ d = path ∨ d ∈ s.symbols := by
      intro u hsymbols d
      rw [hsymbols, declare, Dict.mem_insert_iff, symbols_fetch, eq_comm]
    refine (collectImports_spec w package _).mono (fun imported t => ?_) (fun e t => ?_)
    · rintro ⟨path', units', u, hpath, hunits, hchange, hunits', rfl, hall, hkeys⟩
      rw [hdeclare.whereIs_eq, hp] at hpath
      obtain rfl := Option.some.inj hpath
      rw [hdeclare.unitsAt_eq, hu] at hunits
      obtain rfl := Except.ok.inj hunits
      have hsu : Changes w Effect.every s u :=
        hdeclare.trans (hchange.mono fun e _ => Effect.mem_every e)
      have hsymbols : u.symbols = ((s.fetch w path).declare path units).symbols :=
        hchange.symbols_eq (by simp)
      refine ⟨units, ⟨?_, hu, hunits', ?_, ?_, hall, ?_⟩⟩
      · exact hsu.trans (.single (Effect.mem_every _) (.adopt u path units hunits'))
      · exact hdeclared hsymbols
      · intro d
        have himports : u.imports = (s.fetch w path).imports := hchange.imports_eq (by simp)
        rw [adopt, Dict.mem_insert_iff, himports, imports_fetch, eq_comm]
      · intro key
        rw [hkeys]
        simp only [hdeclare.whereIs_eq]
        show _ ↔ ∃ i ∈ _, _ ∧ ∃ d, _ ∧ d ∉ u.symbols
        rw [hsymbols]
    · rintro ⟨hchange, hbad⟩
      refine ⟨hdeclare.trans (hchange.mono fun e _ => Effect.mem_every e), ?_, ?_, ?_⟩
      · intro hload
        obtain ⟨units', hunits', hall⟩ := loadable_iff_importsOf.1 hload
        obtain rfl := Except.ok.inj (hu.symm.trans hunits')
        obtain ⟨i, hi, hnone⟩ := hbad path units (by rw [hdeclare.whereIs_eq, hp])
          (by rw [hdeclare.unitsAt_eq, hu])
        obtain ⟨d, hd⟩ := hall i hi
        rw [hdeclare.whereIs_eq, hd] at hnone
        cases hnone
      · exact fun d => (hdeclared (hchange.symbols_eq (by simp)) d).1
      · rw [hchange.imports_eq (by simp), declare, imports_fetch]

theorem keeps_collectFrom (depth : Nat) (visited : List String) (package : String) :
    Keeps (Changes w Effect.every) (collectFrom w depth visited package) := by
  induction depth generalizing visited package with
  | zero => exact keeps_pure visited
  | succ depth ih =>
    intro s
    have hlocate : Changes w Effect.every s (s.learn w package) :=
      .single (Effect.mem_every _) (.locate s package)
    apply ensures_bind
    rw [Ensures, locate_eq]
    cases hp : s.whereIs w package with
    | none => exact hlocate
    | some path =>
      dsimp only [outcome_ok]
      split
      · exact ensures_pure hlocate
      · apply ensures_bind
        have hp' : (s.learn w package).whereIs w package = some path := by rw [whereIs_learn, hp]
        refine (collect_spec w hp').mono (fun imported t h => ?_) (fun _ t h => hlocate.trans h.changes)
        obtain ⟨units, h⟩ := h
        have hst := hlocate.trans h.changes
        have hrest : Keeps (Changes w Effect.every)
            (imported.foldlM (collectFrom w depth) (path :: visited)) :=
          Keeps.foldlM imported _ fun package visited => ih visited package
        exact (hrest t).mono (fun _ _ h => hst.trans h) (fun _ _ h => hst.trans h)

theorem keeps_buildTypes (package : String) :
    Keeps (Changes w Effect.every) (buildTypes w package) :=
  keeps_get.bind fun _ => (keeps_collectFrom w _ [] package).discard

end Computations

end ApiDocs.Session
