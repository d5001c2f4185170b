/-
  ApiDocs.Proofs.Package.Knowledge

  What a session knows, together with the workspace that it would ask for the rest: where an
  identifier leads (`whereIs`) and which units a directory holds (`unitsAt`). Locating and
  reading are given as equations over these two, and neither ever changes them as long as the
  workspace stays the same (`whereIs_learn`, `unitsAt_fetch`, …).
-/

import ApiDocs.Package.Session
import ApiDocs.Proofs.Dict
import ApiDocs.Proofs.Ensures

namespace ApiDocs.Session

open Source (SourceUnit)
open Workspace (RealPath)

/-- A computation on the session inside a larger state. -/
theorem ensures_within {σ α : Type} {part : σ → Session} {put : σ → Session → σ} {x : SessionM α}
    {s : σ} {Q : α → σ → Prop} {E : Error → σ → Prop}
    (h : Ensures x (part s) (fun a t => Q a (put s t)) (fun e t => E e (put s t))) :
    Ensures (within part put x) s Q E := by
  rw [Ensures] at h ⊢
  rw [within]
  cases hx : x (part s) with
  | ok a t => rw [hx] at h; exact h
  | error e t => rw [hx] at h; exact h

/-! ## Where identifiers lead -/

/-- Where an identifier leads: the known answer, else the one that the workspace gives. -/
def whereIs (w : Workspace) (s : Session) (identifier : String) : Option String :=
  match s.located[bareIdentifier identifier]? with
  | some known => known
  | none => (probe w (bareIdentifier identifier) s.roots.order).1.map (RealPath.text s.home)

/-- A known answer is where the identifier leads. -/
theorem whereIs_of_known {w : Workspace} {s : Session} {identifier : String} {known : Option String}
    (h : s.located[bareIdentifier identifier]? = some known) : s.whereIs w identifier = known := by
  simp only [whereIs, h]

/-- The session after an identifier has been looked up. -/
def learn (w : Workspace) (s : Session) (identifier : String) : Session :=
  finalState (resolve w identifier s)

/-- An identifier that was asked for before: only the answer is noted. -/
theorem resolve_of_known {w : Workspace} {s : Session} {identifier : String} {known : Option String}
    (h : s.located[bareIdentifier identifier]? = some known) :
    resolve w identifier s = .ok known (s.record (.located identifier known)) := by
  simp only [resolve, bind_apply, get_apply, h, note, modify_apply, pure_apply]

/-- An identifier that is asked for the first time: the roots are gone through. -/
theorem resolve_of_unknown {w : Workspace} {s : Session} {identifier : String}
    (h : s.located[bareIdentifier identifier]? = none) :
    resolve w identifier s =
      .ok (s.whereIs w identifier)
        { s with
          located := s.located.insert (bareIdentifier identifier) (s.whereIs w identifier)
          journal := .located identifier (s.whereIs w identifier) ::
            ((probe w (bareIdentifier identifier) s.roots.order).2.reverse.map Event.canonicalized
              ++ s.journal) } := by
  simp only [resolve, bind_apply, get_apply, h, set_apply, note, modify_apply, pure_apply, whereIs]
  rfl

theorem resolve_eq (w : Workspace) (s : Session) (identifier : String) :
    resolve w identifier s = .ok (s.whereIs w identifier) (s.learn w identifier) := by
  cases h : s.located[bareIdentifier identifier]? with
  | some known =>
    rw [learn, resolve_of_known h, whereIs_of_known h, finalState_ok]
  | none =>
    rw [learn, resolve_of_unknown h]
    rfl

theorem learn_of_known {w : Workspace} {s : Session} {identifier : String} {known : Option String}
    (h : s.located[bareIdentifier identifier]? = some known) :
    s.learn w identifier = s.record (.located identifier known) := by
  rw [learn, resolve_of_known h, finalState_ok]

theorem locate_eq (w : Workspace) (s : Session) (identifier : String) :
    locate w identifier s =
      outcome
        (match s.whereIs w identifier with
          | some path => .ok path
          | none => .error (.packageNotFound (bareIdentifier identifier)))
        (s.learn w identifier) := by
  simp only [locate, bind_apply, resolve_eq]
  cases s.whereIs w identifier <;> rfl

section Learn

variable (w : Workspace) (s : Session) (identifier : String)

/-- Looking an identifier up changes the known answers and the journal, and nothing else. -/
theorem learn_frame :
    s.learn w identifier =
      { s with
        located := (s.learn w identifier).located
        journal := (s.learn w identifier).journal } := by
  cases h : s.located[bareIdentifier identifier]? with
  | some known => rw [learn_of_known h]; rfl
  | none => rw [learn, resolve_of_unknown h]; rfl

@[simp] theorem roots_learn : (s.learn w identifier).roots = s.roots := by
  rw [learn_frame]

@[simp] theorem home_learn : (s.learn w identifier).home = s.home := by
  rw [learn_frame]

@[simp] theorem units_learn : (s.learn w identifier).units = s.units := by
  rw [learn_frame]

@[simp] theorem symbols_learn : (s.learn w identifier).symbols = s.symbols := by
  rw [learn_frame]

@[simp] theorem imports_learn : (s.learn w identifier).imports = s.imports := by
  rw [learn_frame]

/-- Looking an identifier up settles it, and no other one. -/
theorem located_learn (key : String) :
    (s.learn w identifier).located[key]? =
      if bareIdentifier identifier = key then some (s.whereIs w identifier) else s.located[key]? := by
  cases h : s.located[bareIdentifier identifier]? with
  | some known =>
    rw [learn_of_known h]
    by_cases hk : bareIdentifier identifier = key
    · rw [if_pos hk, ← hk, whereIs_of_known h]
      exact h
    · rw [if_neg hk]
      rfl
  | none =>
    rw [learn, resolve_of_unknown h, finalState_ok]
    exact Dict.getElem?_insert ..

/-- Looking one identifier up does not change where any leads. -/
@[simp] theorem whereIs_learn (other : String) :
    (s.learn w identifier).whereIs w other = s.whereIs w other := by
  rw [whereIs, located_learn]
  by_cases hk : bareIdentifier identifier = bareIdentifier other
  · rw [if_pos hk]
    simp only [whereIs, hk]
  · rw [if_neg hk, roots_learn, home_learn]
    rfl

end Learn

/-! ## What directories hold -/

/-- The units in a directory of the workspace. -/
def readDirectory (w : Workspace) (path : String) : Except Error (List SourceUnit) :=
  match w.listFiles path with
  | .error e => .error (.file path e)
  | .ok files => (files.filter isSourceFile).mapM (readUnit w)

/-- The units in a directory: those known, else those in the workspace. -/
def unitsAt (w : Workspace) (s : Session) (path : String) : Except Error (List SourceUnit) :=
  match s.units[path]? with
  | some units => .ok units
  | none => readDirectory w path

/-- The session after the units of a directory have been asked for. -/
def fetch (w : Workspace) (s : Session) (path : String) : Session :=
  finalState (unitsOf w path s)

/-- Reading files only adds to the journal. -/
theorem readUnits_eq (w : Workspace) (paths : List String) (s : Session) :
    ∃ reads : List String,
      readUnits w paths s =
        outcome (paths.mapM (readUnit w))
          { s with journal := reads.map Event.read ++ s.journal } := by
  induction paths generalizing s with
  | nil => exact ⟨[], rfl⟩
  | cons path paths ih =>
    obtain ⟨reads, hreads⟩ := ih (s.record (.read path))
    cases hu : readUnit w path with
    | error e =>
      refine ⟨[path], ?_⟩
      simp only [readUnits, List.mapM_cons, bind_apply, note, modify_apply, hu, throw_apply]
      rfl
    | ok unit =>
      refine ⟨reads ++ [path], ?_⟩
      rw [readUnits] at hreads
      simp only [readUnits, List.mapM_cons, bind_apply, note, modify_apply, hu, pure_apply]
      simp only [note] at hreads
      rw [hreads]
      cases paths.mapM (readUnit w) <;> simp [record, bind, Except.bind, pure, Except.pure]

/-- A directory whose units are known: only the answer is noted. -/
theorem unitsOf_of_known {w : Workspace} {s : Session} {path : String} {units : List SourceUnit}
    (h : s.units[path]? = some units) :
    unitsOf w path s = .ok units (s.record (.supplied path units)) := by
  simp only [unitsOf, bind_apply, get_apply, h, note, modify_apply, pure_apply]

/-- A directory that cannot be read or holds a malformed unit: only the attempt is noted. -/
theorem unitsOf_of_unreadable {w : Workspace} {s : Session} {path : String} {e : Error}
    (h : s.units[path]? = none) (hr : readDirectory w path = .error e) :
    ∃ reads : List String,
      unitsOf w path s =
        .error e { s with journal := reads.map Event.read ++ .listed path :: s.journal } := by
  simp only [unitsOf, bind_apply, get_apply, h, note, modify_apply]
  rw [readDirectory] at hr
  cases hl : w.listFiles path with
  | error cause =>
    simp only [hl, Except.error.injEq] at hr
    exact ⟨[], by rw [← hr]; rfl⟩
  | ok files =>
    simp only [hl] at hr
    obtain ⟨reads, hreads⟩ := readUnits_eq w (files.filter isSourceFile) (s.record (.listed path))
    refine ⟨reads, ?_⟩
    simp only [bind_apply, hreads, hr, outcome_error]
    rfl

/-- A directory that is read for the first time. -/
theorem unitsOf_of_readable {w : Workspace} {s : Session} {path : String} {units : List SourceUnit}
    (h : s.units[path]? = none) (hr : readDirectory w path = .ok units) :
    ∃ reads : List String,
      unitsOf w path s =
        .ok units { s with
          units := s.units.insert path units
          journal := .supplied path units ::
            (reads.map Event.read ++ .listed path :: s.journal) } := by
  simp only [unitsOf, bind_apply, get_apply, h, note, modify_apply]
  rw [readDirectory] at hr
  cases hl : w.listFiles path with
  | error cause => simp [hl] at hr
  | ok files =>
    simp only [hl] at hr
    obtain ⟨reads, hreads⟩ := readUnits_eq w (files.filter isSourceFile) (s.record (.listed path))
    refine ⟨reads, ?_⟩
    simp only [bind_apply, hreads, hr, outcome_ok, modify_apply, pure_apply]
    rfl

/-- The three ways in which asking for the units of a directory can go. -/
theorem unitsOf_cases (w : Workspace) (s : Session) (path : String) :
    (∃ units, s.units[path]? = some units ∧
      unitsOf w path s = .ok units (s.record (.supplied path units))) ∨
    (∃ e reads, s.units[path]? = none ∧ readDirectory w path = .error e ∧
      unitsOf w path s =
        .error e { s with journal := List.map Event.read reads ++ .listed path :: s.journal }) ∨
    (∃ units reads, s.units[path]? = none ∧ readDirectory w path = .ok units ∧
      unitsOf w path s =
        .ok units { s with
          units := s.units.insert path units
          journal := .supplied path units ::
            (List.map Event.read reads ++ .listed path :: s.journal) }) := by
  cases h : s.units[path]? with
  | some units => exact .inl ⟨units, rfl, unitsOf_of_known h⟩
  | none =>
    cases hr : readDirectory w path with
    | error e =>
      obtain ⟨reads, hreads⟩ := unitsOf_of_unreadable h hr
      exact .inr (.inl ⟨e, reads, rfl, rfl, hreads⟩)
    | ok units =>
      obtain ⟨reads, hreads⟩ := unitsOf_of_readable h hr
      exact .inr (.inr ⟨units, reads, rfl, rfl, hreads⟩)

theorem unitsOf_eq (w : Workspace) (s : Session) (path : String) :
    unitsOf w path s = outcome (s.unitsAt w path) (s.fetch w path) := by
  rw [fetch, unitsAt]
  rcases unitsOf_cases w s path with ⟨units, h, hu⟩ | ⟨e, reads, h, hr, hu⟩ | ⟨units, reads, h, hr, hu⟩
  · rw [hu, h]; rfl
  · rw [hu, h]; simp only [hr]; rfl
  · rw [hu, h]; simp only [hr]; rfl

section Fetch

variable (w : Workspace) (s : Session) (path : String)

/-- Asking for units changes the known units and the journal, and nothing else. -/
theorem fetch_frame :
    s.fetch w path =
      { s with units := (s.fetch w path).units, journal := (s.fetch w path).journal } := by
  rw [fetch]
  rcases unitsOf_cases w s path with ⟨_, _, hu⟩ | ⟨_, _, _, _, hu⟩ | ⟨_, _, _, _, hu⟩ <;> rw [hu] <;> rfl

@[simp] theorem roots_fetch : (s.fetch w path).roots = s.roots := by
  rw [fetch_frame]

@[simp] theorem home_fetch : (s.fetch w path).home = s.home := by
  rw [fetch_frame]

@[simp] theorem located_fetch : (s.fetch w path).located = s.located := by
  rw [fetch_frame]

@[simp] theorem symbols_fetch : (s.fetch w path).symbols = s.symbols := by
  rw [fetch_frame]

@[simp] theorem imports_fetch : (s.fetch w path).imports = s.imports := by
  rw [fetch_frame]

/-- The units of the directory are known afterwards if there were any to be had. -/
theorem units_fetch (key : String) :
    (s.fetch w path).units[key]? =
      if path = key then (s.unitsAt w path).toOption else s.units[key]? := by
  rw [fetch, unitsAt]
  rcases unitsOf_cases w s path with ⟨units, h, hu⟩ | ⟨e, reads, h, hr, hu⟩ | ⟨units, reads, h, hr, hu⟩
  · rw [hu, h]
    by_cases hk : path = key
    · rw [if_pos hk, ← hk]
      exact h
    · rw [if_neg hk]
      rfl
  · rw [hu, h]
    by_cases hk : path = key
    · rw [if_pos hk, ← hk]
      simp only [hr]
      exact h
    · rw [if_neg hk]
      rfl
  · rw [hu, h]
    simp only [hr, finalState_ok]
    exact Dict.getElem?_insert ..

@[simp] theorem whereIs_fetch (identifier : String) :
    (s.fetch w path).whereIs w identifier = s.whereIs w identifier := by
  rw [whereIs, located_fetch, roots_fetch, home_fetch]
  rfl

/-- Reading one directory does not change what any holds. -/
@[simp] theorem unitsAt_fetch (other : String) :
    (s.fetch w path).unitsAt w other = s.unitsAt w other := by
  rw [unitsAt, units_fetch]
  by_cases hk : path = other
  · rw [if_pos hk, ← hk]
    cases h : s.units[path]? with
    | some units => simp only [unitsAt, h]; rfl
    | none =>
      simp only [unitsAt, h]
      cases readDirectory w path <;> rfl
  · rw [if_neg hk]
    rfl

@[simp] theorem unitsAt_learn (identifier other : String) :
    (s.learn w identifier).unitsAt w other = s.unitsAt w other := by
  rw [unitsAt, units_learn]
  rfl

end Fetch

end ApiDocs.Session
