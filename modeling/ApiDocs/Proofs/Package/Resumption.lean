/-
  ApiDocs.Proofs.Package.Resumption

  Building types after builds that may have failed, in a workspace that does not change. A walk
  that fails leaves symbols in the directories that it was still in, and no later walk follows
  an import to a directory with symbols. So a build can succeed that would fail in a fresh
  session: the closure of its package is then not collected, and some earlier package that
  cannot be built either shares a directory with it. Where a fresh build succeeds, so does one
  after failures, and it collects the whole closure.
-/

import ApiDocs.Proofs.Package.Warming

namespace ApiDocs.Session

variable {w : Workspace} {s t : Session} {package : String}

/-! ## Building in any session -/

theorem not_obstructed_iff : ¬ s.Obstructed w package ↔
    (∃ path, s.whereIs w package = some path) ∧ ∀ d, s.Reaches w package d → s.Loadable w d := by
  rw [Obstructed, not_or, ← ne_eq, Option.ne_none_iff_exists']
  simp only [not_exists, not_and, not_not]

theorem not_blocked_iff : ¬ s.Blocked w package ↔
    (∃ path, s.whereIs w package = some path) ∧ ∀ d, s.Enters w package d → s.Loadable w d := by
  rw [Blocked, not_or, ← ne_eq, Option.ne_none_iff_exists']
  simp only [not_exists, not_and, not_not]

/-- A walk from the start has visited all that it could come to, and nothing else. -/
theorem Collected.mem_visited_iff {visited : List String} (h : Collected w s [package] [] visited t)
    {d : String} : d ∈ visited ↔ s.Enters w package d := by
  have hsettled : ∀ d ∈ visited, t.Settled d ∧ s.Enters w package d := by
    intro d hd
    rcases h.settled d hd with hnil | ⟨hsettled, p, hp, henters⟩
    · cases hnil
    · exact ⟨hsettled, List.mem_singleton.1 hp ▸ henters⟩
  refine ⟨fun hd => (hsettled d hd).2, ?_⟩
  rintro ⟨path, hpath, hwalk⟩
  induction hwalk with
  | refl =>
    obtain ⟨path', hpath', hmem⟩ := h.visits package List.mem_cons_self
    obtain rfl := Option.some.inj (hpath.symm.trans hpath')
    exact hmem
  | tail _ hstep ih =>
    -- what a settled directory imports has symbols, and it had none before
    have himported := (hsettled _ ih).1.imported (h.changes.imports_iff.2 hstep.1)
    exact ((h.symbols _).1 himported).resolve_left hstep.2

/-- Building fails exactly if the walk comes to a directory that cannot be loaded. -/
theorem buildTypes_ok_iff : (∃ t, buildTypes w package s = .ok () t) ↔ ¬ s.Blocked w package := by
  cases hx : buildTypes w package s with
  | ok _ t =>
    obtain ⟨visited, hc⟩ := (buildTypes_walk w package s).of_ok hx
    refine iff_of_true ⟨t, rfl⟩ (not_blocked_iff.2 ⟨?_, fun d hd => ?_⟩)
    · obtain ⟨path, hpath, -⟩ := hc.visits package List.mem_cons_self
      exact ⟨path, hpath⟩
    · rcases hc.settled d (hc.mem_visited_iff.2 hd) with hnil | ⟨hsettled, -⟩
      · cases hnil
      · exact hc.changes.loadable_iff.1 (hsettled.loadable w)
  | error e t =>
    obtain ⟨p, hp, hblocked⟩ := ((buildTypes_walk w package s).of_error hx).blocked
    obtain rfl := List.mem_singleton.1 hp
    exact iff_of_false (by simp) (not_not_intro hblocked)

/-- A path of imports is a walk, or passes a directory with symbols. -/
theorem follows_or_mem_symbols {d d' : String} (h : Relation.ReflTransGen (s.Imports w) d d') :
    Relation.ReflTransGen (s.Follows w) d d' ∨
      ∃ m ∈ s.symbols, Relation.ReflTransGen (s.Imports w) d m ∧
        Relation.ReflTransGen (s.Imports w) m d' := by
  induction h with
  | refl => exact .inl .refl
  | @tail b c hpath himport ih =>
    rcases ih with hwalk | ⟨m, hm, hdm, hmb⟩
    · by_cases hc : c ∈ s.symbols
      · exact .inr ⟨c, hc, hpath.tail himport, .refl⟩
      · exact .inl (hwalk.tail ⟨himport, hc⟩)
    · exact .inr ⟨m, hm, hdm, hmb.tail himport⟩

/-- Where nothing has symbols, a walk comes to all that is reached. -/
theorem blocked_iff_of_fresh (roots : Package.SearchRoots) (home : String) :
    ({ roots, home } : Session).Blocked w package ↔ ({ roots, home } : Session).Obstructed w package := by
  refine ⟨Blocked.obstructed, fun h => h.imp_right ?_⟩
  rintro ⟨d, ⟨path, hpath, hclosure⟩, hload⟩
  rcases follows_or_mem_symbols hclosure with hwalk | ⟨m, hm, -⟩
  · exact ⟨d, ⟨path, hpath, hwalk⟩, hload⟩
  · simp at hm

/-! ## What builds leave behind -/

/-- What building some packages has left behind, whether or not it failed: directories with
symbols were collected to the end, unless they lead to one that cannot be loaded. -/
structure Accounted (w : Workspace) (packages : List String) (s : Session) : Prop where
  symbols : ∀ d ∈ s.symbols, (s.Settled d ∨ s.Doomed w d) ∧ ∃ package ∈ packages, s.Reaches w package d
  imports : ∀ d ∈ s.imports, s.Loadable w d

namespace Accounted

variable {packages : List String}

theorem fresh (roots : Package.SearchRoots) (home : String) :
    Accounted w packages { roots, home } := by
  constructor
  · intro d hd
    simp at hd
  · intro d hd
    simp at hd

theorem collected (h : Accounted w packages s) (hp : package ∈ packages) {visited : List String}
    (hc : Collected w s [package] [] visited t) : Accounted w packages t := by
  constructor
  · intro d hd
    simp only [hc.changes.doomed_iff, hc.changes.reaches_iff]
    rcases hc.new d hd with hd | ⟨hsettled, p, hmem, hreach⟩
    · obtain ⟨hleft, hreach⟩ := h.symbols d hd
      exact ⟨hleft.imp_left fun hsettled => hsettled.mono hc.changes, hreach⟩
    · obtain rfl := List.mem_singleton.1 hmem
      exact ⟨.inl hsettled, p, hp, hreach⟩
  · intro d hd
    rcases (hc.imports d).1 hd with hd | hd
    · exact hc.changes.loadable_iff.2 (h.imports d hd)
    · rcases hc.settled d hd with hnil | ⟨hsettled, -⟩
      · cases hnil
      · exact hsettled.loadable w

theorem halted (h : Accounted w packages s) (hp : package ∈ packages)
    (hh : Halted w s [package] t) : Accounted w packages t := by
  constructor
  · intro d hd
    simp only [hh.changes.doomed_iff, hh.changes.reaches_iff]
    rcases hh.symbols d hd with hd | ⟨hleft, p, hmem, hreach⟩
    · obtain ⟨hleft, hreach⟩ := h.symbols d hd
      exact ⟨hleft.imp_left fun hsettled => hsettled.mono hh.changes, hreach⟩
    · obtain rfl := List.mem_singleton.1 hmem
      exact ⟨hleft, p, hp, hreach⟩
  · intro d hd
    rw [hh.changes.loadable_iff]
    exact (hh.imports d hd).elim (h.imports d) id

/-- One more build, whether or not it fails. -/
theorem serve (h : Accounted w packages s) (hp : package ∈ packages) :
    Accounted w packages (s.serve w (.buildTypes package)) := by
  rw [Session.serve, Request.perform]
  cases hx : buildTypes w package s with
  | ok _ t =>
    obtain ⟨visited, hc⟩ := (buildTypes_walk w package s).of_ok hx
    exact h.collected hp hc
  | error e t => exact h.halted hp ((buildTypes_walk w package s).of_error hx)

theorem afterIn {earlier : List String} (h : Accounted w packages s) (hsub : earlier ⊆ packages) :
    Accounted w packages (s.afterIn w (earlier.map .buildTypes)) := by
  induction earlier generalizing s with
  | nil => exact h
  | cons package earlier ih =>
    obtain ⟨hp, hsub⟩ := List.cons_subset.1 hsub
    exact ih (h.serve hp) hsub

/-- A package that is not obstructed is collected with all that it reaches: what has symbols on
the way was collected to the end, since it leads only to what can be loaded. -/
theorem settled_of_reaches (h : Accounted w packages s) {visited : List String}
    (hc : Collected w s [package] [] visited t) (hclear : ¬ s.Obstructed w package) {d : String}
    (hd : s.Reaches w package d) : d ∈ t.symbols ∧ t.Settled d := by
  have hsettled : ∀ d, s.Reaches w package d → d ∈ t.symbols → t.Settled d := by
    intro d hd hmem
    rcases hc.new d hmem with hold | ⟨hsettled, -⟩
    · rcases (h.symbols d hold).1 with hsettled | ⟨d', hpath, hload⟩
      · exact hsettled.mono hc.changes
      · obtain ⟨path, hp, hclosure⟩ := hd
        exact absurd (.inr ⟨d', ⟨path, hp, hclosure.trans hpath⟩, hload⟩) hclear
    · exact hsettled
  suffices hmem : d ∈ t.symbols from ⟨hmem, hsettled d hd hmem⟩
  obtain ⟨path, hp, hclosure⟩ := hd
  induction hclosure with
  | refl =>
    obtain ⟨path', hp', hmem⟩ := hc.reached package List.mem_cons_self
    obtain rfl := Option.some.inj (hp.symm.trans hp')
    exact hmem
  | tail hpath himport ih =>
    exact (hsettled _ ⟨path, hp, hpath⟩ ih).imported (hc.changes.imports_iff.2 himport)

/-- Only what can be loaded ever gets imports. -/
theorem not_obstructed (h : Accounted w packages s) (hp : package ∈ packages) {visited : List String}
    (hc : Collected w s [package] [] visited t)
    (hall : ∀ d, s.Reaches w package d → d ∈ t.imports) : ¬ s.Obstructed w package := by
  obtain ⟨path, hpath, -⟩ := hc.visits package List.mem_cons_self
  refine not_obstructed_iff.2 ⟨⟨path, hpath⟩, fun d hd => ?_⟩
  exact hc.changes.loadable_iff.1 ((h.collected hp hc).imports d (hall d hd))

/-- A walk that misses what cannot be loaded has passed over a directory that some earlier
build left with symbols. -/
theorem exists_doomed (h : Accounted w packages s) (hblocked : ¬ s.Blocked w package)
    (hobstructed : s.Obstructed w package) : ∃ p ∈ packages, ∃ d ∈ s.symbols,
      s.Reaches w p d ∧ s.Reaches w package d ∧ s.Doomed w d := by
  obtain ⟨⟨path, hpath⟩, hload⟩ := not_blocked_iff.1 hblocked
  rcases hobstructed with hnone | ⟨d', ⟨path', hpath', hclosure⟩, hbad⟩
  · rw [hpath] at hnone
    cases hnone
  · rcases follows_or_mem_symbols hclosure with hwalk | ⟨d, hd, hbefore, hbehind⟩
    · exact absurd (hload d' ⟨path', hpath', hwalk⟩) hbad
    · obtain ⟨p, hp, hreach⟩ := (h.symbols d hd).2
      exact ⟨p, hp, d, hd, hreach, ⟨path', hpath', hbefore⟩, d', hbehind, hbad⟩

end Accounted

/-- A package that reaches a doomed directory is obstructed. -/
theorem Doomed.obstructed {d : String} (h : s.Doomed w d) (hd : s.Reaches w package d) :
    s.Obstructed w package := by
  obtain ⟨d', hbehind, hload⟩ := h
  obtain ⟨path, hpath, hbefore⟩ := hd
  exact .inr ⟨d', ⟨path, hpath, hbefore.trans hbehind⟩, hload⟩

/-- **A fresh build succeeds if and only if one after other builds does and leaves nothing out**,
that is, if all that the package reaches then has symbols and imports. The builds before may have
failed; the workspace does not change. Success alone says less: that all directories can be
loaded to which the walk comes, which does not follow imports to directories with symbols; and
exactly these directories get symbols and imports. If it succeeds where a fresh build fails,
then some package that was built before, and cannot be built either, reaches a directory that
this one reaches too, that has symbols, and that leads to one that cannot be loaded. -/
theorem buildTypes_after_failures (roots : Package.SearchRoots) (home : String) (w : Workspace)
    (earlier : List String) (package : String) :
    let fresh : Session := { roots, home }
    let s := fresh.afterIn w (earlier.map .buildTypes)
    ((∃ t, buildTypes w package fresh = .ok () t) ↔
      ∃ t, buildTypes w package s = .ok () t ∧
        ∀ d, fresh.Reaches w package d → d ∈ t.symbols ∧ d ∈ t.imports) ∧
    ((∃ t, buildTypes w package s = .ok () t) ↔
      (∃ path, fresh.whereIs w package = some path) ∧
        ∀ d, s.Enters w package d → fresh.Loadable w d) ∧
    (∀ t, buildTypes w package s = .ok () t → ∀ d,
      (d ∈ t.symbols ↔ d ∈ s.symbols ∨ s.Enters w package d) ∧
      (d ∈ t.imports ↔ d ∈ s.imports ∨ s.Enters w package d)) ∧
    ∀ t e t', buildTypes w package s = .ok () t → buildTypes w package fresh = .error e t' →
      ∃ p ∈ earlier, (∃ e u, buildTypes w p fresh = .error e u) ∧
        ∃ d ∈ s.symbols, fresh.Reaches w p d ∧ fresh.Reaches w package d ∧ fresh.Doomed w d := by
  intro fresh s
  have hchanges : Changes w Effect.every fresh s := fresh.afterIn_changes w _
  have hbuilt : ∀ {packages}, earlier ⊆ packages → Accounted w packages s :=
    (Accounted.fresh roots home).afterIn
  have hfresh : ∀ p, (∃ t, buildTypes w p fresh = .ok () t) ↔ ¬ fresh.Obstructed w p := fun p =>
    buildTypes_ok_iff.trans (not_congr (blocked_iff_of_fresh roots home))
  have hok : ∀ t, buildTypes w package s = .ok () t →
      ∃ visited, Collected w s [package] [] visited t := fun t ht =>
    (buildTypes_walk w package s).of_ok ht
  refine ⟨?_, ?_, fun t ht d => ?_, fun t e t' ht hfailed => ?_⟩
  · rw [hfresh, ← hchanges.obstructed_iff]
    simp only [← hchanges.reaches_iff]
    constructor
    · intro hclear
      obtain ⟨t, ht⟩ := buildTypes_ok_iff.2 fun hblocked => hclear hblocked.obstructed
      obtain ⟨visited, hc⟩ := hok t ht
      refine ⟨t, ht, fun d hd => ?_⟩
      obtain ⟨hmem, hsettled⟩ :=
        (hbuilt (List.Subset.refl earlier)).settled_of_reaches hc hclear hd
      exact ⟨hmem, hsettled.imports⟩
    · rintro ⟨t, ht, hall⟩
      obtain ⟨visited, hc⟩ := hok t ht
      exact (hbuilt (List.subset_cons_self package earlier)).not_obstructed List.mem_cons_self hc
        fun d hd => (hall d hd).2
  · rw [buildTypes_ok_iff, not_blocked_iff, hchanges.whereIs_eq]
    simp only [hchanges.loadable_iff]
  · obtain ⟨visited, hc⟩ := hok t ht
    rw [← hc.mem_visited_iff]
    exact ⟨hc.symbols d, hc.imports d⟩
  · have hobstructed : s.Obstructed w package := by
      rw [hchanges.obstructed_iff]
      by_contra hclear
      obtain ⟨_, h⟩ := (hfresh package).2 hclear
      rw [hfailed] at h
      cases h
    obtain ⟨p, hp, d, hd, hpd, hpackage, hdoomed⟩ := (hbuilt (List.Subset.refl earlier)).exists_doomed
      (buildTypes_ok_iff.1 ⟨t, ht⟩) hobstructed
    rw [hchanges.reaches_iff] at hpd hpackage
    rw [hchanges.doomed_iff] at hdoomed
    refine ⟨p, hp, ?_, d, hd, hpd, hpackage, hdoomed⟩
    cases hx : buildTypes w p fresh with
    | ok _ u => exact absurd (hdoomed.obstructed hpd) ((hfresh p).1 ⟨u, hx⟩)
    | error e u => exact ⟨e, u, rfl⟩

/-- A package that imports another one, which imports what does not exist. -/
def broken : Workspace :=
  let file (text : String) : Workspace.Entry := .file text.toUTF8
  ((((Workspace.empty.put ["src"] .directory).put ["src", "a"] .directory).put
    ["src", "b"] .directory).put
    ["src", "a", "a.go"] (file "package a\nimport \"b\"\n")).put
    ["src", "b", "b.go"] (file "package b\nimport \"missing\"\n")

/-- Building that package fails, and succeeds when it is tried again: the second walk stops at
the other package, which has symbols by then, but no imports. -/
theorem buildTypes_after_failures_broken :
    let fresh : Session := { roots := ⟨["src"], none⟩ }
    let s := fresh.afterIn broken (["a"].map .buildTypes)
    (∃ e t', buildTypes broken "a" fresh = .error e t') ∧
    (∃ t, buildTypes broken "a" s = .ok () t ∧ t.symbols.keys = ["src/a", "src/b"] ∧
      t.imports.keys = ["src/a"]) ∧
    ∃ d ∈ s.symbols, fresh.Reaches broken "a" d ∧ fresh.Doomed broken d := by
  intro fresh s
  have hfresh : isOk (buildTypes broken "a" fresh) = false := by decide +kernel
  obtain ⟨_, hlater⟩ := eq_ok_of_isOk (r := buildTypes broken "a" s) (by decide +kernel)
  cases hx : buildTypes broken "a" fresh with
  | ok _ t =>
    rw [hx] at hfresh
    cases hfresh
  | error e t' =>
    obtain ⟨p, -, -, d, hd, -, hreach, hdoomed⟩ :=
      (buildTypes_after_failures ⟨["src"], none⟩ "." broken ["a"] "a").2.2.2 _ e t' hlater hx
    exact ⟨⟨e, t', rfl⟩, ⟨_, hlater, by decide +kernel, by decide +kernel⟩, d, hd, hreach, hdoomed⟩

end ApiDocs.Session
