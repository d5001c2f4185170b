/-
  ApiDocs.Proofs.Package.Warming

  Building types computes the import closure. A directory imports another one if one of its
  units has an import that is not virtual and leads there (`Imports`). The walk enters the
  package's directory and follows only those imports whose directory has no symbols yet
  (`Enters`); that this misses nothing rests on `Warm`, which says that whatever has symbols was
  collected to the end, and which every request keeps except a walk that fails. What such a walk
  leaves behind is said by `Halted`.
-/

import ApiDocs.Proofs.Requests
import ApiDocs.Proofs.Workspace

namespace ApiDocs.Session

open Source (SourceUnit Import)

/-! ## The import graph -/

section Graph

variable (w : Workspace) (s : Session)

/-- One directory imports another one: a unit of it has an import that is not virtual and leads
there. -/
def Imports (directory imported : String) : Prop :=
  ∃ units, s.unitsAt w directory = .ok units ∧
    ∃ unit ∈ units, ∃ i ∈ unit.imports, isVirtual i.path = false ∧ s.whereIs w i.path = some imported

/-- A package leads to a directory: to its own one, or through imports from there. -/
def Reaches (package directory : String) : Prop :=
  ∃ path, s.whereIs w package = some path ∧ Relation.ReflTransGen (s.Imports w) path directory

/-- A package that leads nowhere, or to a directory that cannot be loaded. -/
def Obstructed (package : String) : Prop :=
  s.whereIs w package = none ∨ ∃ d, s.Reaches w package d ∧ ¬ s.Loadable w d

/-- A directory that leads to one that cannot be loaded. -/
def Doomed (directory : String) : Prop :=
  ∃ d, Relation.ReflTransGen (s.Imports w) directory d ∧ ¬ s.Loadable w d

/-- One directory imports another one that has no symbols. -/
def Follows (directory imported : String) : Prop :=
  s.Imports w directory imported ∧ imported ∉ s.symbols

/-- A walk from a package comes to a directory: to the package's own one, or from there through
imports whose directories have no symbols. -/
def Enters (package directory : String) : Prop :=
  ∃ path, s.whereIs w package = some path ∧ Relation.ReflTransGen (s.Follows w) path directory

/-- A package that leads nowhere, or from which a walk comes to a directory that cannot be
loaded. -/
def Blocked (package : String) : Prop :=
  s.whereIs w package = none ∨ ∃ d, s.Enters w package d ∧ ¬ s.Loadable w d

end Graph

section Walks

variable {w : Workspace} {s : Session} {package d : String}

/-- The imports of a directory are those that are collected from it. -/
theorem imports_iff_importsOf {d' : String} :
    s.Imports w d d' ↔
      ∃ units, s.unitsAt w d = .ok units ∧ ∃ i ∈ importsOf units, s.whereIs w i.path = some d' := by
  simp only [Imports, mem_importsOf]
  constructor
  · rintro ⟨units, hunits, unit, hunit, i, hi, hreal, hd'⟩
    exact ⟨units, hunits, i, ⟨unit, hunit, hi, hreal⟩, hd'⟩
  · rintro ⟨units, hunits, i, ⟨unit, hunit, hi, hreal⟩, hd'⟩
    exact ⟨units, hunits, unit, hunit, i, hi, hreal, hd'⟩

/-- What a walk comes to is reached. -/
theorem Enters.reaches (h : s.Enters w package d) : s.Reaches w package d := by
  obtain ⟨path, hpath, hwalk⟩ := h
  exact ⟨path, hpath, Relation.ReflTransGen.mono (fun _ _ hstep => hstep.1) _ _ hwalk⟩

theorem Blocked.obstructed (h : s.Blocked w package) : s.Obstructed w package :=
  h.imp_right fun ⟨d, hd, hload⟩ => ⟨d, hd.reaches, hload⟩

end Walks

section Unchanged

variable {w : Workspace} {effects : List Effect} {s t : Session} (h : Changes w effects s t)
include h

/-- No step changes the import graph of a workspace. -/
theorem Changes.imports_iff {d d' : String} : t.Imports w d d' ↔ s.Imports w d d' := by
  simp only [Imports, h.unitsAt_eq, h.whereIs_eq]

theorem Changes.graph_eq : t.Imports w = s.Imports w := by
  funext d d'
  exact propext h.imports_iff

theorem Changes.reaches_iff {package d : String} : t.Reaches w package d ↔ s.Reaches w package d := by
  simp only [Reaches, h.whereIs_eq, h.graph_eq]

theorem Changes.loadable_iff {d : String} : t.Loadable w d ↔ s.Loadable w d := by
  simp only [Loadable, h.unitsAt_eq, h.whereIs_eq]

theorem Changes.obstructed_iff {package : String} :
    t.Obstructed w package ↔ s.Obstructed w package := by
  simp only [Obstructed, h.whereIs_eq, h.reaches_iff, h.loadable_iff]

theorem Changes.doomed_iff {d : String} : t.Doomed w d ↔ s.Doomed w d := by
  simp only [Doomed, h.graph_eq, h.loadable_iff]

/-- The more has symbols, the less is entered. -/
theorem Changes.follows {d d' : String} (hd : t.Follows w d d') : s.Follows w d d' :=
  ⟨h.imports_iff.1 hd.1, fun hmem => hd.2 (h.mem_symbols hmem)⟩

theorem Changes.enters {package d : String} (hd : t.Enters w package d) : s.Enters w package d := by
  obtain ⟨path, hpath, hwalk⟩ := hd
  rw [h.whereIs_eq] at hpath
  exact ⟨path, hpath, Relation.ReflTransGen.mono (fun _ _ => h.follows) _ _ hwalk⟩

theorem Changes.blocked {package : String} (hb : t.Blocked w package) : s.Blocked w package := by
  rcases hb with hnone | ⟨d, hd, hload⟩
  · rw [h.whereIs_eq] at hnone
    exact .inl hnone
  · exact .inr ⟨d, h.enters hd, fun hl => hload (h.loadable_iff.2 hl)⟩

end Unchanged

/-! ## Directories that were collected to the end -/

/-- The imports of a directory are known, and all that it imports has symbols. -/
structure Settled (s : Session) (directory : String) : Prop where
  imports : directory ∈ s.imports
  units : ∃ units, s.units[directory]? = some units ∧ ∀ i ∈ importsOf units,
    ∃ d, s.located[bareIdentifier i.path]? = some (some d) ∧ d ∈ s.symbols

/-- Every directory with symbols was collected to the end. -/
def Warm (s : Session) : Prop := ∀ d ∈ s.symbols, s.Settled d

namespace Settled

variable {w : Workspace} {s : Session} {d : String}

theorem mono {effects : List Effect} {t : Session} (hd : s.Settled d) (h : Changes w effects s t) :
    t.Settled d := by
  obtain ⟨himports, units, hunits, hall⟩ := hd
  refine ⟨h.mem_imports himports, units, h.units_of_known hunits, fun i hi => ?_⟩
  obtain ⟨d', hd', hmem⟩ := hall i hi
  exact ⟨d', h.located_of_known hd', h.mem_symbols hmem⟩

theorem unitsAt (hd : s.Settled d) (w : Workspace) : ∃ units, s.unitsAt w d = .ok units ∧
    ∀ i ∈ importsOf units, ∃ d', s.whereIs w i.path = some d' ∧ d' ∈ s.symbols := by
  obtain ⟨-, units, hunits, hall⟩ := hd
  refine ⟨units, by simp only [Session.unitsAt, hunits], fun i hi => ?_⟩
  obtain ⟨d', hd', hmem⟩ := hall i hi
  exact ⟨d', whereIs_of_known hd', hmem⟩

theorem loadable (hd : s.Settled d) (w : Workspace) : s.Loadable w d := by
  obtain ⟨units, hunits, hall⟩ := hd.unitsAt w
  exact loadable_iff_importsOf.2 ⟨units, hunits, fun i hi => (hall i hi).imp fun _ h => h.1⟩

theorem imported (hd : s.Settled d) {d' : String} (himport : s.Imports w d d') : d' ∈ s.symbols := by
  obtain ⟨units, hunits, hall⟩ := hd.unitsAt w
  obtain ⟨units', hunits', i, hi, hd'⟩ := imports_iff_importsOf.1 himport
  obtain rfl := Except.ok.inj (hunits.symm.trans hunits')
  obtain ⟨d'', hd'', hmem⟩ := hall i hi
  obtain rfl := Option.some.inj (hd'.symm.trans hd'')
  exact hmem

end Settled

/-- In a warm session, whatever is reached from a directory with symbols has symbols. -/
theorem Warm.reached {w : Workspace} {s : Session} (h : s.Warm) {d d' : String} (hd : d ∈ s.symbols)
    (hpath : Relation.ReflTransGen (s.Imports w) d d') : d' ∈ s.symbols := by
  induction hpath with
  | refl => exact hd
  | tail _ himport ih => exact (h _ ih).imported himport

/-! ## The places that a walk can enter -/

theorem probe_mem_paths {w : Workspace} {identifier home : String} {roots : List String}
    {place : Workspace.RealPath} (h : (probe w identifier roots).1 = some place) :
    Workspace.RealPath.text home place ∈ w.paths home := by
  induction roots with
  | nil => cases h
  | cons root roots ih =>
    rw [probe] at h
    dsimp only at h
    split at h
    · rename_i hcanonical
      obtain rfl := Option.some.inj h
      exact Workspace.canonicalize_mem_paths hcanonical
    · exact ih h

/-- Identifiers lead only to places that are listed. -/
theorem whereIs_mem_reachable {w : Workspace} {s : Session} {identifier d : String}
    (h : s.whereIs w identifier = some d) : d ∈ reachable w s := by
  rw [reachable, List.mem_append]
  rw [whereIs] at h
  cases hk : s.located[bareIdentifier identifier]? with
  | some known =>
    rw [hk] at h
    subst h
    exact .inl (List.mem_filterMap.2 ⟨some d, Dict.mem_contents hk, rfl⟩)
  | none =>
    rw [hk] at h
    obtain ⟨place, hplace, rfl⟩ := Option.map_eq_some_iff.1 h
    exact .inr (probe_mem_paths hplace)

/-! ## The walk -/

/-- What a walk through packages has done when it ends without an error. -/
structure Collected (w : Workspace) (s : Session) (packages visited : List String)
    (visited' : List String) (t : Session) : Prop where
  changes : Changes w Effect.every s t
  grown : visited ⊆ visited'
  visits : ∀ package ∈ packages, ∃ path, s.whereIs w package = some path ∧ path ∈ visited'
  symbols : ∀ d, d ∈ t.symbols ↔ d ∈ s.symbols ∨ d ∈ visited'
  imports : ∀ d, d ∈ t.imports ↔ d ∈ s.imports ∨ d ∈ visited'
  /-- What the walk came to was collected to the end. -/
  settled : ∀ d ∈ visited', d ∈ visited ∨ (t.Settled d ∧ ∃ package ∈ packages, s.Enters w package d)

/-- What a walk through packages has done when it ends with an error. Directories that it was
still in have symbols, though they lead to one that cannot be loaded. -/
structure Halted (w : Workspace) (s : Session) (packages : List String) (t : Session) : Prop where
  changes : Changes w Effect.every s t
  blocked : ∃ package ∈ packages, s.Blocked w package
  symbols : ∀ d ∈ t.symbols, d ∈ s.symbols ∨
    ((t.Settled d ∨ s.Doomed w d) ∧ ∃ package ∈ packages, s.Reaches w package d)
  imports : ∀ d ∈ t.imports, d ∈ s.imports ∨ s.Loadable w d

/-- A walk that goes as deep as it needs: it stops only where a package is blocked. -/
def Completes (w : Workspace) (packages visited : List String) (x : SessionM (List String))
    (s : Session) : Prop :=
  Ensures x s (Collected w s packages visited) (fun _ t => Halted w s packages t)

namespace Collected

variable {w : Workspace} {s t : Session} {packages visited visited' : List String}

theorem entered (h : Collected w s packages visited visited' t) {d : String} (hd : d ∈ visited') :
    d ∈ t.symbols ∧ d ∈ t.imports :=
  ⟨(h.symbols d).2 (.inr hd), (h.imports d).2 (.inr hd)⟩

theorem reached (h : Collected w s packages visited visited' t) (package : String)
    (hp : package ∈ packages) : ∃ path, s.whereIs w package = some path ∧ path ∈ t.symbols := by
  obtain ⟨path, hpath, hmem⟩ := h.visits package hp
  exact ⟨path, hpath, (h.entered hmem).1⟩

/-- What got symbols in a walk from the start was reached, and was collected to the end. -/
theorem new (h : Collected w s packages [] visited' t) (d : String) (hd : d ∈ t.symbols) :
    d ∈ s.symbols ∨ (t.Settled d ∧ ∃ package ∈ packages, s.Reaches w package d) := by
  rcases (h.symbols d).1 hd with hd | hd
  · exact .inl hd
  · rcases h.settled d hd with hnil | ⟨hsettled, package, hp, henters⟩
    · cases hnil
    · exact .inr ⟨hsettled, package, hp, henters.reaches⟩

end Collected

section Walk

variable {w : Workspace} {places : List String}

/-- The places where the walk can go, how deep it may go, and what it has entered. -/
structure Prepared (w : Workspace) (places : List String) (depth : Nat) (visited : List String)
    (s : Session) : Prop where
  listed : ∀ identifier d, s.whereIs w identifier = some d → d ∈ places
  depth : Dict.unseen places (fun d => visited.contains d) < depth
  entered : ∀ d ∈ visited, d ∈ s.symbols ∧ d ∈ s.imports

theorem Prepared.next {depth : Nat} {packages visited visited' : List String} {s t : Session}
    (h : Prepared w places depth visited s) (hc : Collected w s packages visited visited' t) :
    Prepared w places depth visited' t where
  listed identifier d hd := h.listed identifier d (by rwa [hc.changes.whereIs_eq] at hd)
  depth := by
    refine Nat.lt_of_le_of_lt (Dict.unseen_mono fun d hd => ?_) h.depth
    simp only [List.contains_iff_mem] at hd ⊢
    exact hc.grown hd
  entered _ hd := hc.entered hd

/-- One package after the other. -/
theorem Collected.cons {package : String} {packages visited visited₁ visited₂ : List String}
    {s t u : Session} (h₁ : Collected w s [package] visited visited₁ t)
    (h₂ : Collected w t packages visited₁ visited₂ u) :
    Collected w s (package :: packages) visited visited₂ u where
  changes := h₁.changes.trans h₂.changes
  grown := List.Subset.trans h₁.grown h₂.grown
  visits p hp := by
    rcases List.mem_cons.1 hp with rfl | hp
    · obtain ⟨path, hpath, hmem⟩ := h₁.visits p List.mem_cons_self
      exact ⟨path, hpath, h₂.grown hmem⟩
    · obtain ⟨path, hpath, hmem⟩ := h₂.visits p hp
      exact ⟨path, by rwa [h₁.changes.whereIs_eq] at hpath, hmem⟩
  symbols d := by
    have hgrown : d ∈ visited₁ → d ∈ visited₂ := fun hd => h₂.grown hd
    rw [h₂.symbols, h₁.symbols]
    tauto
  imports d := by
    have hgrown : d ∈ visited₁ → d ∈ visited₂ := fun hd => h₂.grown hd
    rw [h₂.imports, h₁.imports]
    tauto
  settled d hd := by
    rcases h₂.settled d hd with hd | ⟨hsettled, p, hp, henters⟩
    · rcases h₁.settled d hd with hd | ⟨hsettled, p, hp, henters⟩
      · exact .inl hd
      · obtain rfl := List.mem_singleton.1 hp
        exact .inr ⟨hsettled.mono h₂.changes, p, List.mem_cons_self, henters⟩
    · exact .inr ⟨hsettled, p, List.mem_cons_of_mem _ hp, h₁.changes.enters henters⟩

/-- One package, and then an error. -/
theorem Collected.halt {depth : Nat} {package : String} {packages visited visited₁ : List String}
    {s t u : Session} (h : Prepared w places depth visited s)
    (h₁ : Collected w s [package] visited visited₁ t) (h₂ : Halted w t packages u) :
    Halted w s (package :: packages) u where
  changes := h₁.changes.trans h₂.changes
  blocked := by
    obtain ⟨p, hp, hblocked⟩ := h₂.blocked
    exact ⟨p, List.mem_cons_of_mem _ hp, h₁.changes.blocked hblocked⟩
  symbols d hd := by
    rcases h₂.symbols d hd with hd | ⟨hleft, p, hp, hreach⟩
    · rcases (h₁.symbols d).1 hd with hd | hd
      · exact .inl hd
      · rcases h₁.settled d hd with hd | ⟨hsettled, p, hp, henters⟩
        · exact .inl (h.entered d hd).1
        · obtain rfl := List.mem_singleton.1 hp
          exact .inr ⟨.inl (hsettled.mono h₂.changes), p, List.mem_cons_self, henters.reaches⟩
    · refine .inr ⟨?_, p, List.mem_cons_of_mem _ hp, h₁.changes.reaches_iff.1 hreach⟩
      exact hleft.imp_right h₁.changes.doomed_iff.1
  imports d hd := by
    rcases h₂.imports d hd with hd | hload
    · rcases (h₁.imports d).1 hd with hd | hd
      · exact .inl hd
      · rcases h₁.settled d hd with hd | ⟨hsettled, -⟩
        · exact .inl (h.entered d hd).2
        · exact .inr (h₁.changes.loadable_iff.1 (hsettled.loadable w))
    · exact .inr (h₁.changes.loadable_iff.1 hload)

/-- An error in the first of several packages. -/
theorem Halted.cons {package : String} {s t : Session} (h : Halted w s [package] t)
    (packages : List String) : Halted w s (package :: packages) t where
  changes := h.changes
  blocked := by
    obtain ⟨p, hp, hblocked⟩ := h.blocked
    obtain rfl := List.mem_singleton.1 hp
    exact ⟨p, List.mem_cons_self, hblocked⟩
  symbols d hd := by
    rcases h.symbols d hd with hd | ⟨hleft, p, hp, hreach⟩
    · exact .inl hd
    · obtain rfl := List.mem_singleton.1 hp
      exact .inr ⟨hleft, p, List.mem_cons_self, hreach⟩
  imports := h.imports

/-- A walk through several packages completes if it does for each of them. -/
theorem completes_foldlM {depth : Nat}
    (hone : ∀ visited package s, Prepared w places depth visited s →
      Completes w [package] visited (collectFrom w depth visited package) s)
    (packages visited : List String) (s : Session) (h : Prepared w places depth visited s) :
    Completes w packages visited (packages.foldlM (collectFrom w depth) visited) s := by
  induction packages generalizing visited s with
  | nil =>
    rw [List.foldlM_nil]
    refine ensures_pure ⟨.refl s, List.Subset.refl visited, by simp, ?_, ?_, fun d hd => .inl hd⟩
    · exact fun d => ⟨.inl, fun hd => hd.elim id fun hd => (h.entered d hd).1⟩
    · exact fun d => ⟨.inl, fun hd => hd.elim id fun hd => (h.entered d hd).2⟩
  | cons package packages ih =>
    rw [List.foldlM_cons]
    apply ensures_bind
    refine (hone visited package s h).mono (fun visited₁ t h₁ => ?_) (fun _ t h₁ => h₁.cons packages)
    exact (ih visited₁ t (h.next h₁)).mono (fun visited₂ u h₂ => h₁.cons h₂)
      (fun _ u h₂ => h₁.halt h h₂)

/-- Entering a directory leaves fewer to be entered. -/
theorem Prepared.enter {depth : Nat} {visited : List String} {s t : Session} {path : String}
    {package : String} (h : Prepared w places (depth + 1) visited s)
    (hchanges : Changes w Effect.every s t) (hpath : s.whereIs w package = some path)
    (hnew : path ∉ visited) (hentered : path ∈ t.symbols ∧ path ∈ t.imports) :
    Prepared w places depth (path :: visited) t where
  listed identifier d hd := h.listed identifier d (by rwa [hchanges.whereIs_eq] at hd)
  depth := by
    have hlt : Dict.unseen places (fun d => (path :: visited).contains d) <
        Dict.unseen places (fun d => visited.contains d) := by
      refine Dict.unseen_lt (fun d hd => ?_) (h.listed package path hpath) ?_ ?_
      · simp only [List.contains_iff_mem] at hd ⊢
        exact List.mem_cons_of_mem path hd
      · simpa using hnew
      · simp
    have := h.depth
    omega
  entered d hd := by
    rcases List.mem_cons.1 hd with rfl | hd
    · exact hentered
    · exact (h.entered d hd).imp hchanges.mem_symbols hchanges.mem_imports

/-- The packages that a directory still has to collect are imported by it. -/
theorem reaches_of_imported {s : Session} {package path : String} {units : List SourceUnit} {i : Import}
    {d : String} (hp : s.whereIs w package = some path) (hu : s.unitsAt w path = .ok units)
    (hi : i ∈ importsOf units) (hd : s.Reaches w i.path d) : s.Reaches w package d := by
  obtain ⟨path', hpath', hclosure⟩ := hd
  exact ⟨path, hp, .head (imports_iff_importsOf.2 ⟨units, hu, i, hi, hpath'⟩) hclosure⟩

theorem enters_of_imported {s t : Session} {package path : String} {units : List SourceUnit}
    {imported : List String} {key d : String} (hp : s.whereIs w package = some path)
    (hg : Gathered w s path units imported t) (hkey : key ∈ imported) (hd : t.Enters w key d) :
    s.Enters w package d := by
  obtain ⟨i, hi, rfl, d', hd', hmem⟩ := (hg.missing key).1 hkey
  obtain ⟨path', hpath', hwalk⟩ := hg.changes.enters hd
  obtain rfl := Option.some.inj (hd'.symm.trans hpath')
  have himports := imports_iff_importsOf.2 ⟨units, hg.unitsAt, i, hi, hpath'⟩
  exact ⟨path, hp, .head ⟨himports, fun h => hmem (hg.changes.mem_symbols h)⟩ hwalk⟩

theorem Gathered.entered {s t : Session} {path : String} {units : List SourceUnit}
    {imported : List String} (hg : Gathered w s path units imported t) :
    path ∈ t.symbols ∧ path ∈ t.imports :=
  ⟨(hg.symbols path).2 (.inl rfl), (hg.imports path).2 (.inl rfl)⟩

theorem Gathered.loadable {s t : Session} {path : String} {units : List SourceUnit}
    {imported : List String} (hg : Gathered w s path units imported t) : s.Loadable w path := by
  refine loadable_iff_importsOf.2 ⟨units, hg.unitsAt, fun i hi => ?_⟩
  obtain ⟨d, hd⟩ := hg.located i hi
  exact ⟨d, by rw [← hg.changes.whereIs_eq, whereIs_of_known hd]⟩

/-- A directory whose imports have all been followed is settled. -/
theorem Gathered.settled {s t u : Session} {path : String} {units : List SourceUnit}
    {imported visited visited' : List String} (hg : Gathered w s path units imported t)
    (hc : Collected w t imported visited visited' u) : u.Settled path := by
  refine ⟨hc.changes.mem_imports hg.entered.2, units, hc.changes.units_of_known hg.known, fun i hi => ?_⟩
  obtain ⟨d, hd⟩ := hg.located i hi
  refine ⟨d, hc.changes.located_of_known hd, ?_⟩
  by_cases hmem : d ∈ t.symbols
  · exact hc.changes.mem_symbols hmem
  · -- the import was given back and followed
    have hwhere : t.whereIs w i.path = some d := whereIs_of_known hd
    have hkey : i.path ∈ imported :=
      (hg.missing i.path).2 ⟨i, hi, rfl, d, by rwa [hg.changes.whereIs_eq] at hwhere, hmem⟩
    obtain ⟨path', hpath', hmem'⟩ := hc.reached i.path hkey
    obtain rfl := Option.some.inj (hwhere.symm.trans hpath')
    exact hmem'

/-- A directory that was gathered, and then all that it imports. -/
theorem Gathered.collected {s t u : Session} {package path : String} {units : List SourceUnit}
    {imported visited visited' : List String} (hp : s.whereIs w package = some path)
    (hg : Gathered w s path units imported t)
    (hc : Collected w t imported (path :: visited) visited' u) :
    Collected w s [package] visited visited' u where
  changes := hg.changes.trans hc.changes
  grown _ hd := hc.grown (List.mem_cons_of_mem path hd)
  visits p hpackage := by
    obtain rfl := List.mem_singleton.1 hpackage
    exact ⟨path, hp, hc.grown List.mem_cons_self⟩
  symbols d := by
    have hpath : d = path → d ∈ visited' := fun h => hc.grown (h ▸ List.mem_cons_self)
    rw [hc.symbols, hg.symbols]
    tauto
  imports d := by
    have hpath : d = path → d ∈ visited' := fun h => hc.grown (h ▸ List.mem_cons_self)
    rw [hc.imports, hg.imports]
    tauto
  settled d hd := by
    -- this directory, one entered before, or one that the walk came to through an import
    rcases hc.settled d hd with hd | ⟨hsettled, key, hkey, henters⟩
    · rcases List.mem_cons.1 hd with rfl | hd
      · exact .inr ⟨hg.settled hc, package, List.mem_cons_self, d, hp, .refl⟩
      · exact .inl hd
    · exact .inr ⟨hsettled, package, List.mem_cons_self, enters_of_imported hp hg hkey henters⟩

/-- A directory that was gathered, and then an error in what it imports. -/
theorem Gathered.halted {s t u : Session} {package path : String} {units : List SourceUnit}
    {imported : List String} (hp : s.whereIs w package = some path)
    (hg : Gathered w s path units imported t) (hh : Halted w t imported u) :
    Halted w s [package] u := by
  -- the walk has come to the directory that cannot be loaded
  have hbad : ∃ d, s.Enters w package d ∧ ¬ s.Loadable w d := by
    obtain ⟨key, hkey, hblocked⟩ := hh.blocked
    rcases hblocked with hnone | ⟨d, henters, hload⟩
    · obtain ⟨-, -, -, d, hd, -⟩ := (hg.missing key).1 hkey
      rw [hg.changes.whereIs_eq, hd] at hnone
      cases hnone
    · exact ⟨d, enters_of_imported hp hg hkey henters, fun hl => hload (hg.changes.loadable_iff.2 hl)⟩
  refine ⟨hg.changes.trans hh.changes, ⟨package, List.mem_cons_self, .inr hbad⟩, ?_, ?_⟩
  · intro d hd
    rcases hh.symbols d hd with hd | ⟨hleft, key, hkey, hreach⟩
    · rcases (hg.symbols d).1 hd with rfl | hd
      · obtain ⟨d', henters, hload⟩ := hbad
        obtain ⟨path', hpath', hpaths⟩ := henters.reaches
        obtain rfl := Option.some.inj (hp.symm.trans hpath')
        exact .inr ⟨.inr ⟨d', hpaths, hload⟩, package, List.mem_cons_self, d, hp, .refl⟩
      · exact .inl hd
    · obtain ⟨i, hi, rfl, -⟩ := (hg.missing key).1 hkey
      exact .inr ⟨hleft.imp_right hg.changes.doomed_iff.1, package, List.mem_cons_self,
        reaches_of_imported hp hg.unitsAt hi (hg.changes.reaches_iff.1 hreach)⟩
  · intro d hd
    rcases hh.imports d hd with hd | hload
    · rcases (hg.imports d).1 hd with rfl | hd
      · exact .inr hg.loadable
      · exact .inl hd
    · exact .inr (hg.changes.loadable_iff.1 hload)

/-- Where a package was located does not matter for what it amounts to. -/
theorem Gathered.of_learn {s t : Session} {package path : String} {units : List SourceUnit}
    {imported : List String} (hg : Gathered w (s.learn w package) path units imported t) :
    Gathered w s path units imported t where
  changes := (Changes.single (Effect.mem_every _) (.locate s package)).trans hg.changes
  unitsAt := by rw [← unitsAt_learn w s package, hg.unitsAt]
  known := hg.known
  symbols d := by rw [hg.symbols, symbols_learn]
  imports d := by rw [hg.imports, imports_learn]
  located := hg.located
  missing key := by simp only [hg.missing, whereIs_learn]

/-- A directory that cannot be loaded ends the walk. -/
theorem Refused.halted {s t : Session} {package path : String} (hp : s.whereIs w package = some path)
    (hr : Refused w (s.learn w package) path t) : Halted w s [package] t := by
  have hlocate : Changes w Effect.every s (s.learn w package) :=
    .single (Effect.mem_every _) (.locate s package)
  have hload : ¬ s.Loadable w path := fun hl => hr.unloadable (hlocate.loadable_iff.2 hl)
  refine ⟨hlocate.trans hr.changes, ⟨package, List.mem_cons_self, .inr ⟨path, ⟨path, hp, .refl⟩, hload⟩⟩,
    fun d hd => ?_, fun d hd => ?_⟩
  · rcases hr.symbols d hd with rfl | hd
    · exact .inr ⟨.inr ⟨d, .refl, hload⟩, package, List.mem_cons_self, d, hp, .refl⟩
    · rw [symbols_learn] at hd
      exact .inl hd
  · rw [hr.imports, imports_learn] at hd
    exact .inl hd

/-- The walk from one package, by induction on how deep it may go. The directory that it
enters has symbols before its imports are followed, so a circle of imports ends there. -/
theorem completes_collectFrom (depth : Nat) (visited : List String) (package : String) (s : Session)
    (h : Prepared w places depth visited s) :
    Completes w [package] visited (collectFrom w depth visited package) s := by
  induction depth generalizing visited package s with
  | zero => exact absurd h.depth (Nat.not_lt_zero _)
  | succ depth ih =>
    have hlocate : Changes w Effect.every s (s.learn w package) :=
      .single (Effect.mem_every _) (.locate s package)
    apply ensures_bind
    rw [Ensures, locate_eq]
    cases hp : s.whereIs w package with
    | none =>
      refine ⟨hlocate, ⟨package, List.mem_cons_self, .inl hp⟩, fun d hd => .inl ?_, fun d hd => .inl ?_⟩
      · rwa [symbols_learn] at hd
      · rwa [imports_learn] at hd
    | some path =>
      dsimp only [outcome_ok]
      split
      · -- entered before: whoever entered it follows its imports
        rename_i hvisited
        refine ensures_pure ⟨hlocate, List.Subset.refl visited, ?_, ?_, ?_, fun d hd => .inl hd⟩
        · intro p hpackage
          obtain rfl := List.mem_singleton.1 hpackage
          exact ⟨path, hp, List.contains_iff_mem.1 hvisited⟩
        · intro d
          rw [symbols_learn]
          exact ⟨.inl, fun hd => hd.elim id fun hd => (h.entered d hd).1⟩
        · intro d
          rw [imports_learn]
          exact ⟨.inl, fun hd => hd.elim id fun hd => (h.entered d hd).2⟩
      · rename_i hvisited
        have hnew : path ∉ visited := fun hmem => hvisited (List.contains_iff_mem.2 hmem)
        have hp' : (s.learn w package).whereIs w package = some path := by rw [whereIs_learn, hp]
        apply ensures_bind
        refine (collect_spec w hp').mono (fun imported t hc => ?_) (fun _ t hc => hc.halted hp)
        obtain ⟨units, hg⟩ := hc
        have hg := hg.of_learn
        have hfold := completes_foldlM ih imported (path :: visited) t
          (h.enter hg.changes hp hnew hg.entered)
        exact hfold.mono (fun _ _ hc => hg.collected hp hc) (fun _ _ hh => hg.halted hp hh)

/-- A bound that is large enough: one more makes no difference for several packages if it
makes none for each of them. -/
theorem foldlM_collectFrom_succ {depth : Nat}
    (hone : ∀ visited package s, Prepared w places depth visited s →
      collectFrom w (depth + 1) visited package s = collectFrom w depth visited package s)
    (packages visited : List String) (s : Session) (h : Prepared w places depth visited s) :
    packages.foldlM (collectFrom w (depth + 1)) visited s =
      packages.foldlM (collectFrom w depth) visited s := by
  induction packages generalizing visited s with
  | nil => rfl
  | cons package packages ih =>
    rw [List.foldlM_cons, List.foldlM_cons, bind_apply, bind_apply, hone visited package s h]
    cases hx : collectFrom w depth visited package s with
    | error e t => rfl
    | ok visited₁ t =>
      exact ih visited₁ t (h.next ((completes_collectFrom depth visited package s h).of_ok hx))

/-- The walk never reaches a bound that is large enough. -/
theorem collectFrom_succ (depth : Nat) (visited : List String) (package : String) (s : Session)
    (h : Prepared w places depth visited s) :
    collectFrom w (depth + 1) visited package s = collectFrom w depth visited package s := by
  induction depth generalizing visited package s with
  | zero => exact absurd h.depth (Nat.not_lt_zero _)
  | succ depth ih =>
    rw [collectFrom, collectFrom, bind_apply, bind_apply, locate_eq]
    cases hp : s.whereIs w package with
    | none => rfl
    | some path =>
      dsimp only [outcome_ok]
      split
      · rfl
      · rename_i hvisited
        have hnew : path ∉ visited := fun hmem => hvisited (List.contains_iff_mem.2 hmem)
        have hp' : (s.learn w package).whereIs w package = some path := by rw [whereIs_learn, hp]
        rw [bind_apply, bind_apply]
        cases hx : collect w package path (s.learn w package) with
        | error e t => rfl
        | ok imported t =>
          -- one place less is left to enter, which makes up for the depth that was used
          obtain ⟨units, hg⟩ := (collect_spec w hp').of_ok hx
          refine foldlM_collectFrom_succ ih imported (path :: visited) t ?_
          exact h.enter hg.of_learn.changes hp hnew hg.entered

theorem collectFrom_add (depth more : Nat) (visited : List String) (package : String) (s : Session)
    (h : Prepared w places depth visited s) :
    collectFrom w (depth + more) visited package s = collectFrom w depth visited package s := by
  induction more with
  | zero => rfl
  | succ more ih =>
    have hmore : Prepared w places (depth + more) visited s :=
      ⟨h.listed, Nat.lt_add_right more h.depth, h.entered⟩
    rw [← ih, ← Nat.add_assoc, collectFrom_succ (depth + more) visited package s hmore]

end Walk

/-! ## Building types -/

section Build

variable (w : Workspace) (package : String) (s : Session)

theorem prepared_start : Prepared w (reachable w s) ((reachable w s).length + 1) [] s where
  listed _ _ hd := whereIs_mem_reachable hd
  depth := Nat.lt_succ_of_le (Dict.unseen_le_length _ _)
  entered _ hd := by cases hd

theorem buildTypes_walk :
    Ensures (buildTypes w package) s (fun _ t => ∃ visited, Collected w s [package] [] visited t)
      (fun _ t => Halted w s [package] t) := by
  apply ensures_bind
  apply ensures_get
  apply ensures_map
  exact (completes_collectFrom _ [] package s (prepared_start w s)).mono
    (fun visited t h => ⟨visited, h⟩) (fun _ t h => h)

theorem buildTypes_spec :
    Ensures (buildTypes w package) s (fun _ t => ∃ visited, Collected w s [package] [] visited t)
      (fun _ _ => s.Obstructed w package) := by
  refine (buildTypes_walk w package s).mono (fun _ _ h => h) (fun _ t h => ?_)
  obtain ⟨p, hp, hblocked⟩ := h.blocked
  exact List.mem_singleton.1 hp ▸ hblocked.obstructed

end Build

variable {w : Workspace} {s t : Session}

/-- A walk that succeeds leaves a warm session warm. -/
theorem Warm.collected {packages visited : List String} (h : s.Warm)
    (hc : Collected w s packages [] visited t) : t.Warm := by
  intro d hd
  rcases hc.new d hd with hd | ⟨hsettled, -⟩
  · exact (h d hd).mono hc.changes
  · exact hsettled

/-- Only building types declares any. -/
theorem Warm.serve (h : s.Warm) {request : Request}
    (hbuild : ∀ package, request = .buildTypes package → ∃ t, buildTypes w package s = .ok () t) :
    (s.serve w request).Warm := by
  by_cases hdeclaring : .declaring ∈ request.effects
  · cases request with
    | buildTypes package =>
      obtain ⟨t, ht⟩ := hbuild package rfl
      obtain ⟨visited, hc⟩ := (buildTypes_spec w package s).of_ok ht
      have hserve : s.serve w (.buildTypes package) = t := by
        rw [Session.serve, Request.perform, ht, finalState_ok]
      rw [hserve]
      exact h.collected hc
    | _ => simp [Request.effects] at hdeclaring
  · have hchanges := s.serve_changes w request
    intro d hd
    rw [hchanges.symbols_eq hdeclaring] at hd
    exact (h d hd).mono hchanges

/-- No request in the run to build types fails. -/
def BuildsSucceed (s : Session) : List (Workspace × Request) → Prop
  | [] => True
  | (w, request) :: run =>
    (∀ package, request = .buildTypes package → ∃ t, buildTypes w package s = .ok () t) ∧
      BuildsSucceed (s.serve w request) run

theorem Warm.after {run : List (Workspace × Request)} (h : s.Warm) (hrun : BuildsSucceed s run) :
    (s.after run).Warm := by
  induction run generalizing s with
  | nil => exact h
  | cons request run ih => exact ih (h.serve hrun.1) hrun.2

theorem warm_fresh (roots : Package.SearchRoots) (home : String) :
    ({ roots, home } : Session).Warm := by
  intro d hd
  simp at hd

/-- **Building types computes exactly the import closure**, after any run of requests in which no
such walk has failed. The walk never needs to go deeper than there are places to go; it
succeeds if and only if the package leads to a directory and every directory that is reached
from there can be loaded; and then what has symbols is what had them before and what is
reached, with the imports of all that is reached, and nothing is imported that has none. -/
theorem buildTypes_import_closure (roots : Package.SearchRoots) (home : String)
    (run : List (Workspace × Request)) (hrun : BuildsSucceed { roots, home } run)
    (w : Workspace) (package : String) :
    let s := ({ roots, home } : Session).after run
    (∀ depth, (reachable w s).length < depth →
      collectFrom w depth [] package s =
        collectFrom w ((reachable w s).length + 1) [] package s) ∧
    ((∃ t, buildTypes w package s = .ok () t) ↔
      (∃ path, s.whereIs w package = some path) ∧ ∀ d, s.Reaches w package d → s.Loadable w d) ∧
    ∀ t, buildTypes w package s = .ok () t →
      (∀ d, d ∈ t.symbols ↔ d ∈ s.symbols ∨ s.Reaches w package d) ∧
      (∀ d, s.Reaches w package d → d ∈ t.imports) ∧
      (∀ d d', d ∈ t.symbols → t.Imports w d d' → d' ∈ t.symbols) := by
  intro s
  have hwarm : s.Warm := (warm_fresh roots home).after hrun
  -- what a success has collected, and that all that is reached is among it
  have hok : ∀ t, buildTypes w package s = .ok () t →
      ∃ visited, Collected w s [package] [] visited t := fun t ht =>
    (buildTypes_spec w package s).of_ok ht
  have hreached : ∀ t, buildTypes w package s = .ok () t → ∀ d, s.Reaches w package d →
      t.Settled d ∧ d ∈ t.symbols := by
    intro t ht d hd
    obtain ⟨visited, hc⟩ := hok t ht
    obtain ⟨path, hpath, hmem⟩ := hc.reached package List.mem_cons_self
    obtain ⟨path', hpath', hclosure⟩ := hc.changes.reaches_iff.2 hd
    rw [hc.changes.whereIs_eq, hpath] at hpath'
    obtain rfl := Option.some.inj hpath'
    have hd' := (hwarm.collected hc).reached hmem hclosure
    exact ⟨hwarm.collected hc d hd', hd'⟩
  refine ⟨fun depth hdepth => ?_, ⟨fun ⟨t, ht⟩ => ?_, fun ⟨⟨path, hpath⟩, hload⟩ => ?_⟩, fun t ht => ?_⟩
  · obtain ⟨more, rfl⟩ := Nat.exists_eq_add_of_le hdepth
    exact collectFrom_add _ more [] package s (prepared_start w s)
  · -- after a success, all that is reached is settled, and so was loaded
    obtain ⟨visited, hc⟩ := hok t ht
    obtain ⟨path, hpath, -⟩ := hc.reached package List.mem_cons_self
    refine ⟨⟨path, hpath⟩, fun d hd => ?_⟩
    exact hc.changes.loadable_iff.1 ((hreached t ht d hd).1.loadable w)
  · -- a failure would have met an obstruction
    cases hx : buildTypes w package s with
    | ok _ t => exact ⟨t, rfl⟩
    | error e t =>
      rcases (buildTypes_spec w package s).of_error hx with hnone | ⟨d, hd, hd'⟩
      · rw [hpath] at hnone
        cases hnone
      · exact absurd (hload d hd) hd'
  · obtain ⟨visited, hc⟩ := hok t ht
    refine ⟨fun d => ⟨fun hd => ?_, fun hd => ?_⟩, fun d hd => (hreached t ht d hd).1.imports, ?_⟩
    · rcases hc.new d hd with hd | ⟨-, p, hp, hreach⟩
      · exact .inl hd
      · exact .inr (List.mem_singleton.1 hp ▸ hreach)
    · rcases hd with hd | hd
      · exact hc.changes.mem_symbols hd
      · exact (hreached t ht d hd).2
    · exact fun d d' hd himport => (hwarm.collected hc d hd).imported himport

/-- The circle: built from one package alone, where the other has symbols only because it is
imported; and built from there again after the other one has brought in both. -/
theorem buildTypes_import_closure_circle :
    let start : Session := { roots := ⟨["src"], none⟩ }
    let run := [(Workspace.empty, Request.resolve "d"), (.circle, .buildTypes "b")]
    (start.symbols.keys = [] ∧ ∃ t, buildTypes .circle "a" start = .ok () t ∧
      t.symbols.keys = ["src/a", "src/b"] ∧ start.Reaches .circle "a" "src/b" ∧
      ∀ d, d ∈ t.symbols ↔ d ∈ start.symbols ∨ start.Reaches .circle "a" d) ∧
    BuildsSucceed start run ∧ ∃ t, buildTypes .circle "a" (start.after run) = .ok () t ∧
      t.symbols.keys = ["src/a", "src/b"] ∧
      ∀ d, d ∈ t.symbols ↔ d ∈ (start.after run).symbols ∨ (start.after run).Reaches .circle "a" d := by
  intro start run
  constructor
  · obtain ⟨_, hok⟩ := eq_ok_of_isOk (r := buildTypes .circle "a" start) (by decide +kernel)
    have hclosure := ((buildTypes_import_closure ⟨["src"], none⟩ "." [] trivial .circle "a").2.2 _ hok).1
    -- nothing has symbols at the start, so what has them after the build was reached
    have hreach : start.Reaches .circle "a" "src/b" :=
      ((hclosure "src/b").1 (by decide +kernel)).resolve_left (by decide +kernel)
    exact ⟨rfl, _, hok, by decide +kernel, hreach, hclosure⟩
  · have hrun : BuildsSucceed start run := by
      refine ⟨fun _ h => (by cases h), fun package h => ?_, trivial⟩
      cases h
      obtain ⟨_, h⟩ := eq_ok_of_isOk
        (r := buildTypes .circle "b" (start.serve Workspace.empty (.resolve "d"))) (by decide +kernel)
      exact ⟨_, h⟩
    obtain ⟨_, hok⟩ := eq_ok_of_isOk (r := buildTypes .circle "a" (start.after run)) (by decide +kernel)
    refine ⟨hrun, _, hok, by decide +kernel, ?_⟩
    exact ((buildTypes_import_closure ⟨["src"], none⟩ "." run hrun .circle "a").2.2 _ hok).1

end ApiDocs.Session
