/-
  ApiDocs.Proofs.Reports

  What each handler yields. The programs that document handlers, units and packages are run
  here with a report of the operation that each handler yields; without the report they are
  the same programs (`forM_documentPackage`). None of them builds tables, so what they report
  depends only on what the sessions at the start agree on (`gives_reportPackages`), and the
  catalog gains exactly the reported operations that have a route (`publishes_reportPackages`).
-/

import ApiDocs.Generator
import ApiDocs.Proofs.History
import ApiDocs.Proofs.Swagger.Grouping

namespace ApiDocs

open Source (FuncDecl SourceUnit)
open Swagger (Operation Catalog)

/-! ## Gathering lists -/

section Gather

variable {ε α β : Type}

/-- The lists that a computation gives for each of some things, one after the other. -/
def gather {m : Type → Type} [Monad m] (f : α → m (List β)) (l : List α) : m (List β) := do
  return (← l.mapM f).flatten

theorem gather_eq_ok_iff {f : α → Except ε (List β)} {l : List α} {r : List β} :
    gather f l = .ok r ↔ ∃ rs, List.Forall₂ (fun a b => f a = .ok b) l rs ∧ rs.flatten = r := by
  simp only [← mapM_eq_ok_iff]
  rw [gather]
  cases l.mapM f with
  | error e => simp [bind, Except.bind]
  | ok rs => simp [bind, Except.bind, pure, Except.pure]

/-- Whatever was gathered came from one of the things. -/
theorem exists_of_mem_gather {f : α → Except ε (List β)} {l : List α} {r : List β}
    (h : gather f l = .ok r) {b : β} (hb : b ∈ r) : ∃ a ∈ l, ∃ bs, f a = .ok bs ∧ b ∈ bs := by
  obtain ⟨rs, hall, rfl⟩ := gather_eq_ok_iff.1 h
  obtain ⟨bs, hbs, hb⟩ := List.mem_flatten.1 hb
  obtain ⟨a, ha, hf⟩ := exists_of_mem_forall₂ hall hbs
  exact ⟨a, ha, bs, hf, hb⟩

/-- What each of the things gives was gathered. -/
theorem subset_of_gather {f : α → Except ε (List β)} {l : List α} {r : List β}
    (h : gather f l = .ok r) {a : α} (ha : a ∈ l) : ∃ bs, f a = .ok bs ∧ bs ⊆ r := by
  obtain ⟨rs, hall, rfl⟩ := gather_eq_ok_iff.1 h
  obtain ⟨bs, hbs, hf⟩ := exists_of_mem_forall₂ hall.flip ha
  exact ⟨bs, hf, fun b hb => List.mem_flatten.2 ⟨bs, hbs, hb⟩⟩

/-- In another order the same is gathered, up to the order. -/
theorem gather_perm {f : α → Except ε (List β)} {l l' : List α} (hperm : l.Perm l') {r : List β}
    (h : gather f l = .ok r) : ∃ r', gather f l' = .ok r' ∧ r.Perm r' := by
  obtain ⟨rs, hall, rfl⟩ := gather_eq_ok_iff.1 h
  obtain ⟨rs', hall', hrs⟩ := List.perm_comp_forall₂ hperm.symm hall
  exact ⟨rs'.flatten, gather_eq_ok_iff.2 ⟨rs', hall', rfl⟩, hrs.symm.flatten⟩

theorem gather_cons {m : Type → Type} [Monad m] [LawfulMonad m] (f : α → m (List β)) (a : α)
    (l : List α) : gather f (a :: l) = (do return (← f a) ++ (← gather f l)) := by
  simp only [gather, List.mapM_cons, bind_assoc, pure_bind, List.flatten_cons]

end Gather

theorem Gives.gather {ε σ α β : Type} {I : σ → Prop} {f : α → EStateM ε σ (List β)}
    {given : α → Except ε (List β)} (l : List α) (hf : ∀ a, Gives I (f a) (given a)) :
    Gives I (ApiDocs.gather f l) (ApiDocs.gather given l) :=
  (Gives.mapM l hf).bind fun rs => gives_pure rs.flatten

theorem forM_eq_gather {ε σ α β : Type} {f : α → EStateM ε σ (List β)} {g : α → EStateM ε σ PUnit}
    (l : List α) (h : ∀ a, g a = (do let _ ← f a)) : l.forM g = (do let _ ← gather f l) := by
  rw [forM_eq_mapM l h, gather]
  simp only [bind_assoc, pure_bind]

/-! ## Reports -/

/-- A handler, and the operation that its documentation yields. -/
structure HandlerReport where
  package : String
  function : FuncDecl
  operation : Operation

namespace Generator

section Programs

variable (w : Workspace) (package : String)

/-- The operation that a handler's documentation yields. -/
def handlerOperation (function : FuncDecl) : GeneratorM Operation :=
  ((function.doc.map (·.lines)).getD []).foldlM (applyLine w package function.name)
    (Operation.ofPackage package)

/-- Adds an operation that has a route to the catalog. -/
def publish (operation : Operation) : GeneratorM Unit :=
  if operation.path.isEmpty then
    return
  else
    modify fun g => { g with catalog := g.catalog.add operation }

/-- Documents a handler, and reports the operation that it yields. -/
def reportHandler (function : FuncDecl) : GeneratorM (List HandlerReport) := do
  let operation ← handlerOperation w package function
  publish operation
  return [{ package, function, operation }]

/-- Documents a unit, and reports what its handlers yield. -/
def reportUnit (unit : SourceUnit) : GeneratorM (List HandlerReport) := do
  let filter := (← get).filter
  let reports ← gather (reportHandler w package) (unit.functions.filter filter)
  (unit.comments.flatMap (·.lines)).forM applySubApi
  return reports

/-- Documents a package, and reports what its handlers yield. -/
def reportPackage : GeneratorM (List HandlerReport) := do
  gather (reportUnit w package) (← ask (Session.packageUnits w package))

/-- Documents packages, and reports what their handlers yield. -/
def reportPackages (packages : List String) : GeneratorM (List HandlerReport) :=
  gather (reportPackage w) packages

theorem documentHandler_eq (function : FuncDecl) :
    documentHandler w package function = (do let _ ← reportHandler w package function) := by
  simp only [reportHandler, bind_assoc, pure_bind]
  refine bind_congr fun operation => ?_
  rw [publish]
  split <;> rfl

theorem documentUnit_eq (unit : SourceUnit) :
    documentUnit w package unit = (do let _ ← reportUnit w package unit) := by
  simp only [reportUnit, bind_assoc, pure_bind]
  refine bind_congr fun g => ?_
  show (unit.functions.filter g.filter).forM (documentHandler w package) >>= _ = _
  rw [forM_eq_gather _ (documentHandler_eq w package), bind_assoc]
  simp only [pure_bind, bind_pure_unit]

theorem documentPackage_eq : documentPackage w package = (do let _ ← reportPackage w package) := by
  rw [reportPackage, bind_assoc]
  exact bind_congr fun units => forM_eq_gather units (documentUnit_eq w package)

/-- Without the report it is the program that documents packages. -/
theorem forM_documentPackage (packages : List String) :
    packages.forM (documentPackage w) = (do let _ ← reportPackages w packages) :=
  forM_eq_gather packages (documentPackage_eq w)

end Programs

/-! ## What reports depend on -/

/-- Two generators with agreeing sessions that take the same functions for handlers. -/
structure Agrees (w : Workspace) (g g' : Generator) : Prop where
  session : Session.Agrees w g.session g'.session
  filter : g.filter = g'.filter

/-- Generators that agree and have the same catalog. -/
structure Looks (w : Workspace) (g g' : Generator) : Prop extends Agrees w g g' where
  catalog : g'.catalog = g.catalog

instance (w : Workspace) : IsPreorder Generator (Agrees w) where
  refl g := ⟨refl_of (Session.Agrees w) g.session, rfl⟩
  trans _ _ _ h h' := ⟨trans_of (Session.Agrees w) h.session h'.session, h.filter.trans h'.filter⟩

instance (w : Workspace) : IsPreorder Generator (Looks w) where
  refl g := ⟨refl_of (Agrees w) g, rfl⟩
  trans _ _ _ h h' := ⟨trans_of (Agrees w) h.toAgrees h'.toAgrees, h'.catalog.trans h.catalog⟩

section Depends

variable (w : Workspace) (package : String)

theorem keeps_looks_ask {α : Type} {effects : List Session.Effect} {x : SessionM α}
    (hx : Keeps (Session.Changes w effects) x) (hsub : effects ⊆ [.locating, .reading]) :
    Keeps (Looks w) (ask x) := by
  intro g
  have hagrees := Session.keeps_agrees hx hsub g.session
  exact Session.ensures_within (hagrees.mono (fun _ _ h => ⟨⟨h, rfl⟩, rfl⟩) fun _ _ h => ⟨⟨h, rfl⟩, rfl⟩)

theorem alike_ask {α : Type} {x : SessionM α} (hx : Alike (Session.Agrees w) x) :
    Alike (Agrees w) (ask x) :=
  Session.alike_within hx (fun _ _ h => h.session) fun _ _ _ _ h hsession => ⟨hsession, h.filter⟩

theorem keeps_looks_applyLine (function : String) (operation : Operation) (line : String) :
    Keeps (Looks w) (applyLine w package function operation line) := by
  have hline := Operation.keeps_applyLine w operation line
  refine (keeps_looks_ask w hline (by simp)).tryCatch fun e => ?_
  split
  · have hwarn : Keeps (Looks w) (warn (.directive function package e)) :=
      fun g => ensures_modify ⟨⟨refl_of (Session.Agrees w) g.session, rfl⟩, rfl⟩
    exact hwarn.bind fun _ => keeps_pure operation
  · exact keeps_throw e

theorem alike_applyLine (function : String) (operation : Operation) (line : String) :
    Alike (Agrees w) (applyLine w package function operation line) := by
  refine (alike_ask w (Operation.alike_applyLine w operation line)).tryCatch fun e => ?_
  split
  · have hwarn : Alike (Agrees w) (warn (.directive function package e)) :=
      alike_modify fun _ _ h => ⟨h.session, h.filter⟩
    exact hwarn.bind fun _ => alike_pure operation
  · exact alike_throw e

theorem keeps_looks_handlerOperation (function : FuncDecl) :
    Keeps (Looks w) (handlerOperation w package function) :=
  Keeps.foldlM _ _ fun line operation =>
    keeps_looks_applyLine w package function.name operation line

theorem alike_handlerOperation (function : FuncDecl) :
    Alike (Agrees w) (handlerOperation w package function) :=
  (compositional_alike _).foldlM _ _ fun line operation =>
    alike_applyLine w package function.name operation line

variable (g : Generator)

/-- What a handler yields for a generator. -/
def handlerReports (function : FuncDecl) : Except Error (List HandlerReport) := do
  return [{ package, function, operation := ← answer (handlerOperation w package function g) }]

/-- What the handlers of a package yield for a generator. -/
def packageReports : Except Error (List HandlerReport) := do
  gather (fun unit => gather (handlerReports w package g) (unit.functions.filter g.filter))
    (← answer (Session.packageUnits w package g.session))

/-- What a handler yields depends only on what generators agree on. -/
theorem gives_reportHandler (function : FuncDecl) :
    Gives (Agrees w g) (reportHandler w package function) (handlerReports w package g function) := by
  have hoperation := (alike_handlerOperation w package function).gives
    ((keeps_looks_handlerOperation w package function).mono fun _ _ h => h.toAgrees) g
  refine hoperation.bind fun operation => ?_
  have hpublish : Gives (Agrees w g) (publish operation) (.ok ()) := by
    rw [publish]
    split
    · exact gives_pure ()
    · exact gives_modify fun _ h => ⟨h.session, h.filter⟩
  exact hpublish.bind fun _ => gives_pure _

theorem gives_reportUnit (unit : SourceUnit) :
    Gives (Agrees w g) (reportUnit w package unit)
      (gather (handlerReports w package g) (unit.functions.filter g.filter)) := by
  refine gives_get_bind fun g' hg' => ?_
  rw [← hg'.filter]
  have hhandlers := Gives.gather (unit.functions.filter g.filter) (gives_reportHandler w package g)
  have hsub : ∀ line, Gives (Agrees w g) (applySubApi line) (.ok ()) := fun line =>
    gives_modify fun _ h => ⟨h.session, h.filter⟩
  exact hhandlers.then (Gives.forM (unit.comments.flatMap (·.lines)) hsub)

/-- What the handlers of a package yield depends only on what generators agree on. -/
theorem gives_reportPackage :
    Gives (Agrees w g) (reportPackage w package) (packageReports w package g) := by
  have hunits := (alike_ask w (Session.alike_packageUnits w package)).gives
    ((keeps_looks_ask w (Session.keeps_packageUnits w package) (by simp)).mono
      fun _ _ h => h.toAgrees) g
  rw [ask, Session.answer_within] at hunits
  exact hunits.bind fun units => Gives.gather units (gives_reportUnit w package g)

theorem gives_reportPackages (packages : List String) :
    Gives (Agrees w g) (reportPackages w packages)
      (gather (fun package => packageReports w package g) packages) :=
  Gives.gather packages fun package => gives_reportPackage w package g

end Depends

/-! ## What reports hold -/

section Contents

variable {w : Workspace} {package : String} {g : Generator}

theorem handlerReports_eq_ok {function : FuncDecl} {reports : List HandlerReport}
    (h : handlerReports w package g function = .ok reports) :
    ∃ operation, answer (handlerOperation w package function g) = .ok operation ∧
      reports = [{ package, function, operation }] := by
  rw [handlerReports] at h
  cases ho : answer (handlerOperation w package function g) with
  | error e =>
    rw [ho] at h
    cases h
  | ok operation =>
    rw [ho] at h
    exact ⟨operation, rfl, (Except.ok.inj h).symm⟩

/-- A report gives what the documentation of its handler yields. -/
theorem operation_of_mem {reports : List HandlerReport} {report : HandlerReport}
    (h : packageReports w package g = .ok reports) (hmem : report ∈ reports) :
    report.package = package ∧
      answer (handlerOperation w package report.function g) = .ok report.operation := by
  rw [packageReports] at h
  cases hunits : answer (Session.packageUnits w package g.session) with
  | error e =>
    rw [hunits] at h
    cases h
  | ok units =>
    rw [hunits] at h
    obtain ⟨unit, -, unitReports, hunit, hmem⟩ := exists_of_mem_gather h hmem
    obtain ⟨function, -, handled, hhandler, hmem⟩ := exists_of_mem_gather hunit hmem
    obtain ⟨operation, hoperation, rfl⟩ := handlerReports_eq_ok hhandler
    obtain rfl := List.mem_singleton.1 hmem
    exact ⟨rfl, hoperation⟩

/-- Every handler of a package is reported. -/
theorem exists_report {reports : List HandlerReport} {units : List SourceUnit} {unit : SourceUnit}
    {function : FuncDecl} (h : packageReports w package g = .ok reports)
    (hunits : answer (Session.packageUnits w package g.session) = .ok units) (hunit : unit ∈ units)
    (hfunction : function ∈ unit.functions) (hfilter : g.filter function = true) :
    ∃ operation, { package, function, operation } ∈ reports := by
  rw [packageReports, hunits] at h
  obtain ⟨unitReports, hunitReports, hsub⟩ := subset_of_gather h hunit
  obtain ⟨handled, hhandled, hsub'⟩ :=
    subset_of_gather hunitReports (List.mem_filter.2 ⟨hfunction, hfilter⟩)
  obtain ⟨operation, -, rfl⟩ := handlerReports_eq_ok hhandled
  exact ⟨operation, hsub (hsub' List.mem_cons_self)⟩

end Contents

/-! ## What the catalog gains -/

/-- The reported operations that have a route. -/
def published (reports : List HandlerReport) : List Operation :=
  (reports.map (·.operation)).filter fun operation => !operation.path.isEmpty

/-- The catalog gains what is reported. -/
def Publishes (x : GeneratorM (List HandlerReport)) : Prop :=
  ∀ g, Ensures x g (fun reports g' => g.catalog.Gains (published reports) g'.catalog)
    (fun _ _ => True)

/-- The resources stay. -/
def SameResources (g g' : Generator) : Prop := g'.catalog.resources = g.catalog.resources

instance : IsPreorder Generator SameResources where
  refl _ := rfl
  trans _ _ _ h h' := h'.trans h

section Publishes

variable (w : Workspace) (package : String)

theorem publishes_reportHandler (function : FuncDecl) :
    Publishes (reportHandler w package function) := by
  intro g
  apply ensures_bind
  have hlooks := keeps_looks_handlerOperation w package function g
  refine hlooks.mono (fun operation g' h => ?_) (fun _ _ _ => trivial)
  apply ensures_bind
  rw [publish]
  by_cases hpath : operation.path.isEmpty = true
  · rw [if_pos hpath]
    apply ensures_pure
    apply ensures_pure
    simpa [published, hpath] using Catalog.gains_of_eq (congrArg Catalog.resources h.catalog)
  · rw [if_neg hpath]
    apply ensures_modify
    apply ensures_pure
    simpa [published, hpath, h.catalog] using g.catalog.gains_add operation

theorem publishes_gather {α : Type} {f : α → GeneratorM (List HandlerReport)}
    (hf : ∀ a, Publishes (f a)) (l : List α) : Publishes (gather f l) := by
  intro g
  induction l generalizing g with
  | nil => exact ensures_pure (Catalog.gains_of_eq rfl)
  | cons a l ih =>
    rw [gather_cons]
    apply ensures_bind
    refine (hf a g).mono (fun reports g' h => ?_) (fun _ _ _ => trivial)
    apply ensures_bind
    refine (ih g').mono (fun reports' g'' h' => ?_) (fun _ _ _ => trivial)
    apply ensures_pure
    rw [published, List.map_append, List.filter_append]
    exact h.trans h'

theorem publishes_reportUnit (unit : SourceUnit) : Publishes (reportUnit w package unit) := by
  intro g
  apply ensures_bind
  apply ensures_get
  apply ensures_bind
  have hhandlers := publishes_gather (publishes_reportHandler w package)
  refine (hhandlers _ g).mono (fun reports g' h => ?_) (fun _ _ _ => trivial)
  apply ensures_bind
  have hsub : ∀ line, Keeps SameResources (applySubApi line) := fun _ _ => ensures_modify rfl
  refine (Keeps.forM _ hsub g').mono (fun _ g'' hsame => ?_) (fun _ _ _ => trivial)
  apply ensures_pure
  simpa using h.trans (Catalog.gains_of_eq hsame)

theorem publishes_reportPackage : Publishes (reportPackage w package) := by
  intro g
  apply ensures_bind
  have hunits := keeps_looks_ask w (Session.keeps_packageUnits w package) (by simp) g
  refine hunits.mono (fun units g' h => ?_) (fun _ _ _ => trivial)
  rw [← h.catalog]
  exact publishes_gather (publishes_reportUnit w package) units g'

theorem publishes_reportPackages (packages : List String) : Publishes (reportPackages w packages) :=
  publishes_gather (publishes_reportPackage w) packages

end Publishes

end Generator
end ApiDocs
