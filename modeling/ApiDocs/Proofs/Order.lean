/-
  ApiDocs.Proofs.Order

  The order of packages does not matter for what handlers document. Building types for several
  packages succeeds if none of them is obstructed, and then the closures of all of them have
  tables (`Built`), in whatever order they were built. So the sessions that two orders lead to
  agree, every handler yields the same operation in both runs, and the catalogs group the same
  operations at the same places (`documentPackages_perm`).
-/

import ApiDocs.Proofs.Package.Resumption
import ApiDocs.Proofs.Reports

namespace ApiDocs

/-! ## Building types for several packages -/

namespace Session

variable {w : Workspace} {s t : Session}

/-- In a warm session, building a package collects all that it reaches. -/
theorem Warm.settled_of_reaches {package : String} {visited : List String} (h : s.Warm)
    (hc : Collected w s [package] [] visited t) {d : String} (hd : s.Reaches w package d) :
    d ∈ t.symbols ∧ t.Settled d := by
  obtain ⟨path, hpath, hmem⟩ := hc.reached package List.mem_cons_self
  obtain ⟨path', hpath', hclosure⟩ := hd
  obtain rfl := Option.some.inj (hpath.symm.trans hpath')
  rw [← hc.changes.graph_eq] at hclosure
  have hsymbols : d ∈ t.symbols := (h.collected hc).reached hmem hclosure
  exact ⟨hsymbols, h.collected hc d hsymbols⟩

/-- So in a warm session, what gets tables is what is reached. -/
theorem Warm.mem_tables_iff {package : String} {visited : List String} (h : s.Warm)
    (hc : Collected w s [package] [] visited t) (d : String) :
    (d ∈ t.symbols ↔ d ∈ s.symbols ∨ s.Reaches w package d) ∧
      (d ∈ t.imports ↔ d ∈ s.imports ∨ s.Reaches w package d) := by
  have hvisited : d ∈ visited → s.Reaches w package d := fun hd =>
    (hc.mem_visited_iff.1 hd).reaches
  refine ⟨⟨fun hd => ((hc.symbols d).1 hd).imp_right hvisited, ?_⟩,
    ⟨fun hd => ((hc.imports d).1 hd).imp_right hvisited, ?_⟩⟩
  · rintro (hd | hd)
    · exact hc.changes.mem_symbols hd
    · exact (h.settled_of_reaches hc hd).1
  · rintro (hd | hd)
    · exact hc.changes.mem_imports hd
    · exact (h.settled_of_reaches hc hd).2.imports

/-- What building types for several packages amounts to if it succeeds: the tables that there
were, and those of all that the packages reach. -/
structure Built (w : Workspace) (s : Session) (packages : List String) (t : Session) : Prop where
  run : t = s.afterIn w (packages.map .buildTypes)
  clear : ∀ package ∈ packages, ¬ s.Obstructed w package
  symbols : ∀ d, d ∈ t.symbols ↔ d ∈ s.symbols ∨ ∃ package ∈ packages, s.Reaches w package d
  imports : ∀ d, d ∈ t.imports ↔ d ∈ s.imports ∨ ∃ package ∈ packages, s.Reaches w package d

/-- One package first, in a warm session. -/
theorem Built.cons {package : String} {packages visited : List String} {u : Session} (hwarm : s.Warm)
    (ht : buildTypes w package s = .ok () t) (hc : Collected w s [package] [] visited t)
    (hb : Built w t packages u) : Built w s (package :: packages) u := by
  refine ⟨?_, ?_, fun d => ?_, fun d => ?_⟩
  · rw [hb.run]
    show _ = (s.serve w (.buildTypes package)).afterIn w (packages.map .buildTypes)
    rw [serve, Request.perform, ht, finalState_ok]
  · intro p hp
    rcases List.mem_cons.1 hp with rfl | hp
    · obtain ⟨path, hpath, -⟩ := hc.visits p List.mem_cons_self
      refine not_obstructed_iff.2 ⟨⟨path, hpath⟩, fun d hd => ?_⟩
      exact hc.changes.loadable_iff.1 ((hwarm.settled_of_reaches hc hd).2.loadable w)
    · rw [← hc.changes.obstructed_iff]
      exact hb.clear p hp
  · rw [hb.symbols, (hwarm.mem_tables_iff hc d).1, or_assoc]
    simp only [hc.changes.reaches_iff, List.exists_mem_cons_iff]
  · rw [hb.imports, (hwarm.mem_tables_iff hc d).2, or_assoc]
    simp only [hc.changes.reaches_iff, List.exists_mem_cons_iff]

theorem buildTypes_forM (packages : List String) (hwarm : s.Warm) :
    Ensures (packages.forM (buildTypes w)) s (fun _ t => Built w s packages t)
      (fun _ _ => ∃ package ∈ packages, s.Obstructed w package) := by
  induction packages generalizing s with
  | nil => exact ensures_pure ⟨rfl, by simp, by simp, by simp⟩
  | cons package packages ih =>
    show Ensures (buildTypes w package >>= fun _ => packages.forM (buildTypes w)) s _ _
    apply ensures_bind
    cases hx : buildTypes w package s with
    | error e t =>
      apply ensures_of_eq_error hx
      exact ⟨package, List.mem_cons_self, (buildTypes_spec w package s).of_error hx⟩
    | ok _ t =>
      apply ensures_of_eq_ok hx
      obtain ⟨visited, hc⟩ := (buildTypes_spec w package s).of_ok hx
      refine (ih (hwarm.collected hc)).mono (fun _ u hb => hb.cons hwarm hx hc) (fun _ u h => ?_)
      obtain ⟨p, hp, hobstructed⟩ := h
      exact ⟨p, List.mem_cons_of_mem _ hp, hc.changes.obstructed_iff.1 hobstructed⟩

/-- Packages built in two orders from a fresh session: the same sessions, as far as answers go. -/
theorem agrees_of_perm (roots : Package.SearchRoots) (home : String) {packages packages' : List String}
    {t' : Session} (hperm : packages.Perm packages') (ht : Built w { roots, home } packages t)
    (ht' : Built w { roots, home } packages' t') : Agrees w t t' := by
  have hsymbols : ∀ d, d ∈ t.symbols ↔ d ∈ t'.symbols := by
    intro d
    rw [ht.symbols, ht'.symbols]
    simp only [hperm.mem_iff]
  have himports : ∀ d, d ∈ t.imports ↔ d ∈ t'.imports := by
    intro d
    rw [ht.imports, ht'.imports]
    simp only [hperm.mem_iff]
  rw [ht.run, ht'.run] at hsymbols himports ⊢
  exact agrees_of_built roots home w hsymbols himports

end Session

/-! ## Documenting packages -/

namespace Generator

open Source (FuncDecl SourceUnit)

variable {w : Workspace}

/-- The two phases of documenting packages: collecting types leads to `g₁`, and documenting the
packages from there yields these reports and leads to `u`. -/
structure Phases (w : Workspace) (packages : List String) (g g₁ : Generator)
    (reports : List HandlerReport) (u : Generator) : Prop where
  collects : collectTypes w packages g = .ok () g₁
  reports : reportPackages w packages g₁ = .ok reports u

theorem documentPackages_eq_ok_iff {packages : List String} {g u : Generator} :
    documentPackages w packages g = .ok () u ↔ ∃ g₁ reports, Phases w packages g g₁ reports u := by
  rw [documentPackages, bind_eq_ok_iff]
  simp only [forM_documentPackage, bind_eq_ok_iff]
  constructor
  · rintro ⟨_, g₁, hcollects, reports, u', hreports, hu⟩
    cases hu
    exact ⟨g₁, reports, hcollects, hreports⟩
  · rintro ⟨g₁, reports, hcollects, hreports⟩
    exact ⟨(), g₁, hcollects, reports, u, hreports, rfl⟩

theorem ask_eq_ok_iff {α : Type} {x : SessionM α} {a : α} {g g' : Generator} :
    ask x g = .ok a g' ↔ ∃ s, x g.session = .ok a s ∧ g' = { g with session := s } := by
  rw [ask, Session.within]
  cases x g.session with
  | ok b s => simp [eq_comm]
  | error e s => simp

section Fresh

variable {roots : Package.SearchRoots} {home basePath : String} {filter : HandlerFilter}
  {packages packages' : List String} {g₁ g₁' : Generator}

theorem built_of_collects
    (h : collectTypes w packages (ofSession { roots, home } basePath filter) = .ok () g₁) :
    Session.Built w { roots, home } packages g₁.session ∧
      g₁ = { ofSession { roots, home } basePath filter with session := g₁.session } := by
  obtain ⟨s, hs, rfl⟩ := ask_eq_ok_iff.1 h
  exact ⟨(Session.buildTypes_forM packages (Session.warm_fresh roots home)).of_ok hs, rfl⟩

/-- If collecting types succeeds in one order, it does in any other. -/
theorem exists_collects (hperm : packages.Perm packages')
    (h : collectTypes w packages (ofSession { roots, home } basePath filter) = .ok () g₁) :
    ∃ g₁', collectTypes w packages' (ofSession { roots, home } basePath filter) = .ok () g₁' := by
  have hclear := (built_of_collects h).1.clear
  cases hx : packages'.forM (Session.buildTypes w) { roots, home } with
  | ok _ s => exact ⟨_, ask_eq_ok_iff.2 ⟨s, hx, rfl⟩⟩
  | error e s =>
    have hspec := Session.buildTypes_forM (w := w) packages' (Session.warm_fresh roots home)
    obtain ⟨package, hp, hobstructed⟩ := hspec.of_error hx
    exact absurd hobstructed (hclear package (hperm.mem_iff.2 hp))

theorem agrees_of_collects (hperm : packages.Perm packages')
    (h : collectTypes w packages (ofSession { roots, home } basePath filter) = .ok () g₁)
    (h' : collectTypes w packages' (ofSession { roots, home } basePath filter) = .ok () g₁') :
    Agrees w g₁ g₁' ∧ g₁.catalog = g₁'.catalog := by
  obtain ⟨hbuilt, hg₁⟩ := built_of_collects h
  obtain ⟨hbuilt', hg₁'⟩ := built_of_collects h'
  rw [hg₁, hg₁']
  exact ⟨⟨Session.agrees_of_perm roots home hperm hbuilt hbuilt', rfl⟩, rfl⟩

end Fresh

/-- What packages report, in generators that agree and in any order. -/
theorem exists_reports {packages packages' : List String} {g g' u : Generator}
    {reports : List HandlerReport} (hperm : packages.Perm packages') (hagrees : Agrees w g g')
    (h : reportPackages w packages g = .ok reports u) :
    ∃ reports' u', reportPackages w packages' g' = .ok reports' u' ∧ reports.Perm reports' := by
  have hgiven := (gives_reportPackages w g packages g (refl_of (Agrees w) g)).1
  rw [h, answer_ok] at hgiven
  obtain ⟨reports', hgiven', hreports⟩ := gather_perm hperm hgiven.symm
  have hanswer := (gives_reportPackages w g packages' g' hagrees).1
  rw [hgiven'] at hanswer
  exact ⟨reports', _, eq_ok_of_answer hanswer, hreports⟩

section Phases

variable {packages : List String} {g g₀ g₁ u : Generator} {reports : List HandlerReport}

/-- What is reported, if types have been collected as for a given generator. -/
theorem Phases.given (h : Phases w packages g g₁ reports u) (hagrees : Agrees w g₀ g₁) :
    gather (fun package => packageReports w package g₀) packages = .ok reports ∧ Agrees w g₀ u := by
  obtain ⟨hanswer, hfinal⟩ := gives_reportPackages w g₀ packages g₁ hagrees
  rw [h.reports] at hanswer hfinal
  exact ⟨hanswer.symm, hfinal⟩

theorem Phases.gains (h : Phases w packages g g₁ reports u) :
    g₁.catalog.Gains (published reports) u.catalog :=
  (publishes_reportPackages w packages g₁).of_ok h.reports

theorem operation_of_given {report : HandlerReport}
    (h : gather (fun package => packageReports w package g₀) packages = .ok reports)
    (hmem : report ∈ reports) :
    answer (handlerOperation w report.package report.function g₀) = .ok report.operation := by
  obtain ⟨package, -, packageReports, hpackage, hmem⟩ := exists_of_mem_gather h hmem
  obtain ⟨rfl, hoperation⟩ := operation_of_mem hpackage hmem
  exact hoperation

end Phases

theorem published_perm {reports reports' : List HandlerReport} (h : reports.Perm reports') :
    (published reports).Perm (published reports') :=
  (h.map _).filter _

/-- If documenting packages succeeds in one order, it does in any other. -/
theorem isOk_documentPackages (roots : Package.SearchRoots) (home basePath : String)
    (filter : HandlerFilter) {packages packages' : List String} (hperm : packages.Perm packages')
    (h : isOk (documentPackages w packages (ofSession { roots, home } basePath filter)) = true) :
    isOk (documentPackages w packages' (ofSession { roots, home } basePath filter)) = true := by
  obtain ⟨_, hu⟩ := eq_ok_of_isOk h
  obtain ⟨g₁, reports, hphases⟩ := documentPackages_eq_ok_iff.1 hu
  obtain ⟨g₁', hcollects'⟩ := exists_collects hperm hphases.collects
  obtain ⟨hagrees, -⟩ := agrees_of_collects hperm hphases.collects hcollects'
  obtain ⟨reports', u', hreports', -⟩ := exists_reports hperm hagrees hphases.reports
  rw [documentPackages_eq_ok_iff.2 ⟨g₁', reports', hcollects', hreports'⟩]
  rfl

/-- **The order of packages is irrelevant to what each handler documents.** Documenting packages in
two orders, from a fresh generator and in a workspace that does not change, fails in both or
succeeds in both. If it succeeds, the tables after the first phase are the same, and the second
phase leaves them alone. Every handler of every package yields the same operation in both runs,
models included. So both catalogs have the same resources, and at each resource and path the
same operations, up to their order. -/
theorem documentPackages_perm (roots : Package.SearchRoots) (home basePath : String)
    (filter : HandlerFilter) (w : Workspace) {packages packages' : List String}
    (hperm : packages.Perm packages') :
    let g := ofSession { roots, home } basePath filter
    isOk (documentPackages w packages g) = isOk (documentPackages w packages' g) ∧
    ∀ u u', documentPackages w packages g = .ok () u → documentPackages w packages' g = .ok () u' →
      ∃ g₁ reports g₁' reports',
        Phases w packages g g₁ reports u ∧ Phases w packages' g g₁' reports' u' ∧
        (g₁.session.symbols = g₁'.session.symbols ∧ g₁.session.imports = g₁'.session.imports) ∧
        (u.session.symbols = g₁.session.symbols ∧ u.session.imports = g₁.session.imports) ∧
        (u'.session.symbols = g₁'.session.symbols ∧ u'.session.imports = g₁'.session.imports) ∧
        (∀ package ∈ packages, ∀ units,
          answer (Session.packageUnits w package g₁.session) = .ok units →
          ∀ unit ∈ units, ∀ function ∈ unit.functions, filter function = true →
            ∃ operation, { package, function, operation } ∈ reports) ∧
        (∀ report ∈ reports, ∀ report' ∈ reports', report.package = report'.package →
          report.function = report'.function → report.operation = report'.operation) ∧
        reports.Perm reports' ∧
        (∀ resource, resource ∈ u.catalog.resources ↔ resource ∈ u'.catalog.resources) ∧
        ∀ resource path,
          (u.catalog.operationsAt resource path).Perm (u'.catalog.operationsAt resource path) := by
  intro g
  refine ⟨Bool.eq_iff_iff.2 ⟨isOk_documentPackages roots home basePath filter hperm,
    isOk_documentPackages roots home basePath filter hperm.symm⟩, fun u u' hu hu' => ?_⟩
  obtain ⟨g₁, reports, hphases⟩ := documentPackages_eq_ok_iff.1 hu
  obtain ⟨g₁', reports', hphases'⟩ := documentPackages_eq_ok_iff.1 hu'
  obtain ⟨hagrees, hcatalog⟩ := agrees_of_collects hperm hphases.collects hphases'.collects
  have hreports : reports.Perm reports' := by
    obtain ⟨_, _, h, hreports⟩ := exists_reports hperm hagrees hphases.reports
    rw [hphases'.reports] at h
    cases h
    exact hreports
  -- both runs report what the same generator gives, package by package
  obtain ⟨hgiven, hfinal⟩ := hphases.given (refl_of (Agrees w) g₁)
  obtain ⟨hgiven', hfinal'⟩ := hphases'.given hagrees
  have hgains := hphases.gains.perm (hcatalog ▸ hphases'.gains) (published_perm hreports)
  refine ⟨g₁, reports, g₁', reports', hphases, hphases', ?_, ?_, ?_, ?_, ?_, hreports, hgains.1, hgains.2⟩
  · exact ⟨hagrees.session.symbols, hagrees.session.imports⟩
  · exact ⟨hfinal.session.symbols.symm, hfinal.session.imports.symm⟩
  · have h := hfinal'.session
    exact ⟨h.symbols.symm.trans hagrees.session.symbols, h.imports.symm.trans hagrees.session.imports⟩
  · intro package hp units hunits unit hunit function hfunction hfilter
    obtain ⟨packageReports, hpackage, hsub⟩ := subset_of_gather hgiven hp
    have hg₁ : g₁.filter = filter := by rw [(built_of_collects hphases.collects).2]; rfl
    obtain ⟨operation, hmem⟩ := exists_report hpackage hunits hunit hfunction (hg₁ ▸ hfilter)
    exact ⟨operation, hsub hmem⟩
  · intro report hmem report' hmem' hpackage hfunction
    have h := operation_of_given hgiven hmem
    have h' := operation_of_given hgiven' hmem'
    rw [hpackage, hfunction, h'] at h
    exact (Except.ok.inj h).symm

/-- Two packages, one of which imports the other, with a handler each for one path. -/
def shared : Workspace :=
  let file (text : String) : Workspace.Entry := .file text.toUTF8
  ((((Workspace.empty.put ["src"] .directory).put ["src", "a"] .directory).put
    ["src", "b"] .directory).put
    ["src", "a", "a.go"] (file "package a\n//@Router /u [get]\nfunc F()\x7b\x7d\n")).put
    ["src", "b", "b.go"] (file "package b\nimport \"a\"\n//@Router /u [put]\nfunc G()\x7b\x7d\n")

/-- In either order, the path has both operations. -/
theorem documentPackages_perm_shared :
    let g := ofSession { roots := ⟨["src"], none⟩ } "" HandlerFilter.all
    ["a", "b"].Perm ["b", "a"] ∧
    ∃ u u', documentPackages shared ["a", "b"] g = .ok () u ∧
      documentPackages shared ["b", "a"] g = .ok () u' ∧
      (u.catalog.operationsAt "u" "/u").length = 2 ∧
      (u.catalog.operationsAt "u" "/u").Perm (u'.catalog.operationsAt "u" "/u") := by
  intro g
  have hperm : ["a", "b"].Perm ["b", "a"] := .swap "b" "a" []
  obtain ⟨hsame, hboth⟩ :=
    documentPackages_perm ⟨["src"], none⟩ "." "" HandlerFilter.all shared hperm
  have hrun : isOk (documentPackages shared ["a", "b"] g) = true ∧
      ((finalState (documentPackages shared ["a", "b"] g)).catalog.operationsAt "u" "/u").length = 2 := by
    decide +kernel
  obtain ⟨_, hu⟩ := eq_ok_of_isOk hrun.1
  -- the other order succeeds as well
  obtain ⟨_, hu'⟩ := eq_ok_of_isOk (hsame.symm.trans hrun.1)
  obtain ⟨_, _, _, _, -, -, -, -, -, -, -, -, -, hoperations⟩ := hboth _ _ hu hu'
  exact ⟨hperm, _, _, hu, hu', hrun.2, hoperations "u" "/u"⟩

end Generator
end ApiDocs
