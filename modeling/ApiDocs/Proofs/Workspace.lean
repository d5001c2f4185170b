/-
  ApiDocs.Proofs.Workspace

  Where paths lead, as a relation (`Walks`, with `descend_eq_ok_iff`). Following a path goes from
  directory to directory, also through links and back up, so the place that it ends at has an
  entry: it is among the finitely many places of the workspace (`canonicalize_mem_paths`).
-/

import ApiDocs.Workspace.Basic
import Mathlib.Data.List.Basic

namespace ApiDocs.Workspace

/-! ## Where names lead -/

/-- The name can lead on from the place: the place is a directory, and the name stands for an
entry of it, which is not to be written as a file if slashes follow. -/
structure Passes (w : Workspace) (purpose : Purpose) (place : RealPath) (name : String)
    (rest : List String) : Prop where
  directory : w.isDirectory place = true
  plain : isDots name = false
  slash : (purpose = .writing && !rest.isEmpty && rest.all (· = "")) = false
  size : name.utf8ByteSize ≤ maxNameBytes

/-- Where names lead from a place, with at most `links` links on the way. -/
inductive Walks (w : Workspace) (purpose : Purpose) :
    (links : Nat) → RealPath → List String → Target → Prop where
  | done (links : Nat) (place : RealPath) : Walks w purpose links place [] (.occupied place)
  | stay {links : Nat} {place : RealPath} {name : String} {rest : List String} {found : Target}
      (hdirectory : w.isDirectory place = true) (hname : name = "" ∨ name = ".")
      (h : Walks w purpose links place rest found) : Walks w purpose links place (name :: rest) found
  | up {links : Nat} {place : RealPath} {rest : List String} {found : Target}
      (hdirectory : w.isDirectory place = true) (hplace : place ≠ [])
      (h : Walks w purpose links place.dropLast rest found) :
      Walks w purpose links place (".." :: rest) found
  | vacant {links : Nat} {place : RealPath} {name : String} {rest : List String}
      (hpasses : Passes w purpose place name rest) (hentry : w.entry? (place ++ [name]) = none)
      (hrest : rest.all (· = "") = true) :
      Walks w purpose links place (name :: rest) (.vacant (place ++ [name]))
  | enter {links : Nat} {place : RealPath} {name : String} {rest : List String} {found : Target}
      {entry : Entry} (hpasses : Passes w purpose place name rest)
      (hentry : w.entry? (place ++ [name]) = some entry) (hlink : ∀ target, entry ≠ .link target)
      (h : Walks w purpose links (place ++ [name]) rest found) :
      Walks w purpose links place (name :: rest) found
  /-- A link that ends the path, when the link itself is looked for. -/
  | link {links : Nat} {place : RealPath} {name target : String}
      (hpasses : Passes w purpose place name []) (hpurpose : purpose = .entry)
      (hentry : w.entry? (place ++ [name]) = some (.link target)) :
      Walks w purpose links place [name] (.occupied (place ++ [name]))
  /-- Any other link leads to its target, from the root. -/
  | through {links : Nat} {place : RealPath} {name target : String} {rest : List String}
      {found : Target} (hpasses : Passes w purpose place name rest)
      (hpurpose : purpose = .entry → rest ≠ [])
      (hentry : w.entry? (place ++ [name]) = some (.link target))
      (htarget : Path.isAbsolute target = false)
      (h : Walks w purpose links [] (Text.pieces '/' target ++ rest) found) :
      Walks w purpose (links + 1) place (name :: rest) found

variable {w : Workspace}

section Follow

variable {purpose : Purpose}

theorem isDots_iff {name : String} : isDots name = true ↔ (name = "" ∨ name = ".") ∨ name = ".." := by
  simp [isDots]

/-- Where a name that can be passed leads: nowhere, along a link, or to the entry behind it. -/
theorem Passes.follow {place : RealPath} {name : String} {rest : List String}
    (h : Passes w purpose place name rest) (detour : List String → Except OsError Target) :
    (w.entry? (place ++ [name]) = none →
      follow w purpose detour place (name :: rest) =
        if rest.all (· = "") then .ok (.vacant (place ++ [name])) else .error .notFound) ∧
    (∀ target, w.entry? (place ++ [name]) = some (.link target) →
      follow w purpose detour place (name :: rest) =
        if purpose = .entry && rest.isEmpty then .ok (.occupied (place ++ [name]))
        else if Path.isAbsolute target then .error .notFound
        else detour (Text.pieces '/' target ++ rest)) ∧
    ∀ entry, w.entry? (place ++ [name]) = some entry → (∀ target, entry ≠ .link target) →
      follow w purpose detour place (name :: rest) =
        Workspace.follow w purpose detour (place ++ [name]) rest := by
  have hplain : ¬ ((name = "" ∨ name = ".") ∨ name = "..") := by
    rw [← isDots_iff, h.plain]
    exact Bool.false_ne_true
  obtain ⟨hstay, hup⟩ := not_or.1 hplain
  rw [Workspace.follow, if_neg (by simp [h.directory]), if_neg (by simpa using hstay), if_neg hup,
    if_neg (by simp [h.slash]), if_neg (Nat.not_lt.2 h.size)]
  refine ⟨fun hentry => ?_, fun target hentry => ?_, fun entry hentry hlink => ?_⟩
  · simp only [hentry]
  · simp only [hentry]
  · cases entry with
    | link target => exact absurd rfl (hlink target)
    | directory | file => simp only [hentry]

/-- Following names leads where they lead, if detours do with one link less. -/
theorem follow_eq_ok_iff {links : Nat} {detour : List String → Except OsError Target}
    (hdetour : ∀ names found, detour names = .ok found ↔
      ∃ fewer, links = fewer + 1 ∧ Walks w purpose fewer [] names found)
    {place : RealPath} {names : List String} {found : Target} :
    follow w purpose detour place names = .ok found ↔ Walks w purpose links place names found := by
  constructor
  · intro h
    induction names generalizing place with
    | nil =>
      cases h
      exact .done links place
    | cons name rest ih =>
      rw [follow] at h
      split at h
      · cases h
      rename_i hdirectory
      have hdirectory : w.isDirectory place = true := by simpa using hdirectory
      split at h
      · rename_i hname
        exact .stay hdirectory (by simpa using hname) (ih h)
      rename_i hstay
      split at h
      · rename_i hup
        subst hup
        split at h
        · cases h
        · rename_i hplace
          exact .up hdirectory (by simpa using hplace) (ih h)
      rename_i hup
      split at h
      · cases h
      rename_i hslash
      split at h
      · cases h
      rename_i hsize
      have hpasses : Passes w purpose place name rest := by
        refine ⟨hdirectory, ?_, by simpa using hslash, Nat.le_of_not_lt hsize⟩
        rw [← Bool.not_eq_true, isDots_iff, not_or]
        exact ⟨by simpa using hstay, hup⟩
      dsimp only at h
      split at h
      · rename_i hentry
        split at h
        · rename_i hrest
          cases h
          exact .vacant hpasses hentry hrest
        · cases h
      · rename_i target hentry
        split at h
        · rename_i hlast
          cases h
          simp only [Bool.and_eq_true, decide_eq_true_eq, List.isEmpty_iff] at hlast
          obtain ⟨hpurpose, rfl⟩ := hlast
          exact .link hpasses hpurpose hentry
        rename_i hlast
        split at h
        · cases h
        rename_i htarget
        obtain ⟨fewer, rfl, hwalks⟩ := (hdetour _ _).1 h
        refine .through hpasses ?_ hentry (by simpa using htarget) hwalks
        simpa using hlast
      · rename_i entry hlink hentry
        exact .enter hpasses hentry hlink (ih h)
  · intro h
    induction names generalizing place with
    | nil =>
      cases h
      rfl
    | cons name rest ih =>
      cases h with
      | stay hdirectory hname h =>
        rw [follow, if_neg (by simp [hdirectory]), if_pos (by simpa using hname)]
        exact ih h
      | up hdirectory hplace h =>
        rw [follow, if_neg (by simp [hdirectory]), if_neg (by decide), if_pos rfl,
          if_neg (by simpa using hplace)]
        exact ih h
      | vacant hpasses hentry hrest =>
        rw [(hpasses.follow detour).1 hentry]
        exact if_pos hrest
      | enter hpasses hentry hlink h =>
        rw [(hpasses.follow detour).2.2 _ hentry hlink]
        exact ih h
      | link hpasses hpurpose hentry =>
        rw [(hpasses.follow detour).2.1 _ hentry]
        exact if_pos (by simp [hpurpose])
      | through hpasses hpurpose hentry htarget h =>
        rw [(hpasses.follow detour).2.1 _ hentry, if_neg (by simpa using hpurpose),
          if_neg (by simp [htarget])]
        exact (hdetour _ _).2 ⟨_, rfl, h⟩

theorem descend_eq_ok_iff {links : Nat} {names : List String} {found : Target} :
    descend w purpose links names = .ok found ↔ Walks w purpose links [] names found := by
  induction links generalizing names found with
  | zero =>
    refine follow_eq_ok_iff fun names found => ⟨fun h => ?_, ?_⟩
    · cases h
    · rintro ⟨fewer, hfewer, -⟩
      cases hfewer
  | succ links ih =>
    refine follow_eq_ok_iff fun names found => ih.trans ⟨fun h => ⟨links, rfl, h⟩, ?_⟩
    rintro ⟨fewer, hfewer, h⟩
    obtain rfl := Nat.succ.inj hfewer
    exact h

theorem target_eq_ok_iff {path : String} {found : Target} :
    w.target purpose path = .ok found ↔
      Path.isAbsolute path = false ∧ Walks w purpose maxLinks [] (Text.pieces '/' path) found := by
  rw [target, ← descend_eq_ok_iff]
  cases Path.isAbsolute path <;> simp

theorem locate_eq_ok_iff {path : String} {place : RealPath} :
    w.locate purpose path = .ok place ↔ w.target purpose path = .ok (.occupied place) := by
  rw [locate]
  cases w.target purpose path with
  | error e => simp
  | ok found => cases found <;> simp

end Follow

/-! ## Places that have entries -/

/-- Every place on the way to this one has an entry that is no link, and so has this one. -/
def Standing (w : Workspace) (place : RealPath) : Prop :=
  ∀ above, above <+: place → ∃ entry, w.entry? above = some entry ∧ ∀ target, entry ≠ .link target

theorem standing_root : w.Standing [] := by
  intro above h
  rw [List.prefix_nil.1 h]
  exact ⟨.directory, rfl, by simp⟩

theorem Standing.dropLast {place : RealPath} (h : w.Standing place) : w.Standing place.dropLast :=
  fun above habove => h above (habove.trans place.dropLast_prefix)

theorem Standing.append {place : RealPath} (h : w.Standing place) {name : String} {entry : Entry}
    (hentry : w.entry? (place ++ [name]) = some entry) (hlink : ∀ target, entry ≠ .link target) :
    w.Standing (place ++ [name]) := by
  intro above habove
  rcases List.prefix_concat_iff.1 habove with rfl | habove
  · exact ⟨entry, hentry, hlink⟩
  · exact h above habove

/-- Only the search for an entry itself ends at a link. -/
theorem Walks.standing {purpose : Purpose} {links : Nat} {place : RealPath} {names : List String}
    {found : RealPath} (h : Walks w purpose links place names (.occupied found))
    (hpurpose : purpose ≠ .entry) (hplace : w.Standing place) : w.Standing found := by
  generalize htarget : Target.occupied found = target at h
  induction h with
  | done =>
    cases htarget
    exact hplace
  | stay _ _ _ ih => exact ih hplace htarget
  | up _ _ _ ih => exact ih hplace.dropLast htarget
  | vacant => cases htarget
  | enter _ hentry hlink _ ih => exact ih (hplace.append hentry hlink) htarget
  | link _ hentry => exact absurd hentry hpurpose
  | through _ _ _ _ _ ih => exact ih standing_root htarget

theorem standing_of_target {purpose : Purpose} {path : String} {place : RealPath}
    (h : w.target purpose path = .ok (.occupied place)) (hpurpose : purpose ≠ .entry) :
    w.Standing place :=
  (target_eq_ok_iff.1 h).2.standing hpurpose standing_root

/-- What a path names is among the places of the workspace. -/
theorem canonicalize_mem_paths {path home : String} {place : RealPath}
    (h : w.canonicalize? path = some place) : RealPath.text home place ∈ w.paths home := by
  have hlocate : w.locate .reading path = .ok place := by
    rw [canonicalize?] at h
    split at h
    · cases h
    · cases hl : w.locate .reading path with
      | ok found => rw [hl] at h; cases h; rfl
      | error e => rw [hl] at h; cases h
  have hstanding : w.Standing place := standing_of_target (locate_eq_ok_iff.1 hlocate) (by simp)
  obtain ⟨entry, hentry, -⟩ := hstanding place (List.prefix_refl place)
  unfold entry? at hentry
  rw [paths, List.mem_cons, RealPath.text]
  split
  · exact .inl rfl
  · rename_i hne
    rw [if_neg hne] at hentry
    right
    refine List.mem_map.2 ⟨place, ?_, by rw [RealPath.text, if_neg hne]⟩
    rw [Std.ExtTreeMap.mem_keys, Std.ExtTreeMap.mem_iff_isSome_getElem?]
    exact Option.isSome_iff_exists.2 ⟨entry, hentry⟩

end ApiDocs.Workspace
