/-
  ApiDocs.Proofs.Swagger.Documents

  No declaration of a resource mentions a model that it does not hold. An operation under
  construction holds all models that it mentions (`Operation.Complete`), whatever lines have
  been applied to it; a declaration takes the models over with the operation
  (`ApiDeclaration.Closed`). The main statement is about every run of a workbench, on which
  operations are drafted line by line and added in any order while packages are documented.
-/

import ApiDocs.Generator
import ApiDocs.Proofs.Swagger.Forms
import ApiDocs.Proofs.Swagger.References

namespace ApiDocs.Swagger

/-! ## Mentioned models -/

/-- The model that a type's name refers to: names with a point in them are ids. -/
def idsInName (typeName : String) : List String :=
  if '.' ∈ typeName.toList then [typeName] else []

/-- The models that a parameter refers to. -/
def Parameter.mentions (parameter : Parameter) : List String :=
  idsInName parameter.dataType ++ idsInName parameter.typeName ++
    (parameter.items.bind (·.reference)).toList

/-- The models that an operation refers to. -/
def Operation.mentions (operation : Operation) : List String :=
  idsInName operation.typeName ++ (operation.items.bind (·.reference)).toList ++
    operation.parameters.flatMap Parameter.mentions ++
    operation.responseMessages.filterMap (·.responseModel)

/-- An operation that holds the models it refers to, and those that they refer to. -/
structure Operation.Complete (operation : Operation) : Prop where
  closed : Closed operation.models
  mentioned : ∀ id ∈ operation.mentions, id ∈ operation.models

/-- A declaration whose models are closed and hold those that its operations refer to. -/
structure ApiDeclaration.Closed (declaration : ApiDeclaration) : Prop where
  models : Swagger.Closed declaration.models
  mentioned : ∀ api ∈ declaration.apis, ∀ operation ∈ api.operations, ∀ id ∈ operation.mentions,
    id ∈ declaration.models

/-- A catalog all of whose declarations are closed. -/
def Catalog.Closed (catalog : Catalog) : Prop :=
  ∀ (resource : String) (declaration : ApiDeclaration),
    catalog.resources[resource]? = some declaration → declaration.Closed

theorem DataType.KnownIn.idsInName {models : Dict Model} {type : DataType}
    (h : type.KnownIn models) : ∀ id ∈ Swagger.idsInName type.typeName, id ∈ models := by
  intro id hid
  rw [Swagger.idsInName] at hid
  split at hid
  · rename_i hpoint
    rw [List.mem_singleton.1 hid]
    exact h.typeName hpoint
  · cases hid

theorem DataType.KnownIn.itemsReference {models : Dict Model} {type : DataType}
    (h : type.KnownIn models) : ∀ id ∈ (type.items?.bind (·.reference)).toList, id ∈ models := by
  intro id hid
  obtain ⟨items, hitems, href⟩ := Option.bind_eq_some_iff.1 (Option.mem_toList.1 hid)
  exact h.items items hitems id href

/-! ## Lines of documentation -/

namespace Operation

theorem complete_ofPackage (package : String) : (ofPackage package).Complete := by
  refine ⟨closed_empty, fun id hid => ?_⟩
  have hnone : (ofPackage package).mentions = [] := by
    simp only [mentions, ofPackage]
    decide
  rw [hnone] at hid
  cases hid

/-! A complete operation may take on models, and anything that refers to its models. -/

section Complete

variable {operation : Operation} (h : operation.Complete)
include h

theorem Complete.extend {w : Workspace} {package written : String} {s t : Session}
    {type : DataType} {models : Dict Model}
    (hrun : Builder.run w package written s = .ok (type, models) t) :
    { operation with models := operation.models.extend models }.Complete ∧
      type.KnownIn (operation.models.extend models) := by
  obtain ⟨hclosed, htype⟩ := (Builder.run_sound w package written s).of_ok hrun
  refine ⟨⟨closed_extend h.closed hclosed, fun id hid => ?_⟩, ?_⟩
  · exact Dict.mem_extend.2 (.inr (h.mentioned id hid))
  · exact htype.mono fun hid => Dict.mem_extend.2 (.inl hid)

theorem Complete.setType {type : DataType} (htype : type.KnownIn operation.models) :
    { operation with typeName := type.typeName, items := type.items? }.Complete := by
  refine ⟨h.closed, fun id hid => ?_⟩
  have hold : id ∈ operation.mentions → id ∈ operation.models := h.mentioned id
  simp only [mentions, List.mem_append] at hid hold
  rcases hid with ((hid | hid) | hid) | hid
  · exact htype.idsInName id hid
  · exact htype.itemsReference id hid
  · exact hold (.inl (.inr hid))
  · exact hold (.inr hid)

theorem Complete.appendParameter {parameter : Parameter}
    (hparameter : ∀ id ∈ parameter.mentions, id ∈ operation.models) :
    { operation with parameters := operation.parameters ++ [parameter] }.Complete := by
  refine ⟨h.closed, fun id hid => ?_⟩
  have hold : id ∈ operation.mentions → id ∈ operation.models := h.mentioned id
  simp only [mentions, List.flatMap_append, List.flatMap_singleton, List.mem_append] at hid hold
  rcases hid with (hid | hid | hid) | hid
  · exact hold (.inl (.inl hid))
  · exact hold (.inl (.inr hid))
  · exact hparameter id hid
  · exact hold (.inr hid)

theorem Complete.appendResponse {response : ResponseMessage}
    (hresponse : ∀ id ∈ response.responseModel, id ∈ operation.models) :
    { operation with responseMessages := operation.responseMessages ++ [response] }.Complete := by
  refine ⟨h.closed, fun id hid => ?_⟩
  have hold : id ∈ operation.mentions → id ∈ operation.models := h.mentioned id
  simp only [mentions, List.filterMap_append, List.mem_append] at hid hold
  rcases hid with hid | hid | hid
  · exact hold (.inl hid)
  · exact hold (.inr hid)
  · exact hresponse id (by simpa using hid)

end Complete

/-- Whatever a line adds, it adds together with the models that it refers to. -/
theorem Takes.complete {w : Workspace} {s : Session} {operation operation' : Operation}
    (h : operation.Takes w s operation') (hop : operation.Complete) : operation'.Complete := by
  cases h with
  | fields => exact ⟨hop.closed, hop.mentioned⟩
  | parameter _ hrun =>
    obtain ⟨hdescribed, htype⟩ := hop.extend hrun
    refine hdescribed.appendParameter fun id hid => ?_
    simp only [Parameter.mentions, parameterOf, List.mem_append] at hid
    rcases hid with (hid | hid) | hid
    · exact htype.idsInName id hid
    · exact htype.idsInName id hid
    · exact htype.itemsReference id hid
  | message => exact hop.appendResponse fun _ hid => by cases hid
  | @response success _ _ _ _ _ _ _ _ hrun =>
    obtain ⟨hdescribed, htype⟩ := hop.extend hrun
    cases success with
    | true => exact (hdescribed.setType htype).appendResponse htype.modelId
    | false => exact hdescribed.appendResponse htype.modelId

/-- One line of documentation keeps an operation complete. -/
theorem applyLine_complete (w : Workspace) (operation : Operation) (line : String) (s : Session) :
    Ensures (operation.applyLine w line) s
      (fun operation' _ => operation.Complete → operation'.Complete) (fun _ _ => True) :=
  (applyLine_takes w operation line s).mono (fun _ _ h => h.complete) (fun _ _ h => h)

end Operation

/-! ## Declarations and catalogs -/

/-- The operations of a declaration after one has been added. -/
theorem ApiDeclaration.mem_insertOperation {operation other : Operation} {apis : List Api}
    (h : ∃ api ∈ insertOperation operation apis, other ∈ api.operations) :
    other = operation ∨ ∃ api ∈ apis, other ∈ api.operations := by
  obtain ⟨api, hapi, hother⟩ := h
  fun_induction insertOperation operation apis with
  | case1 =>
    obtain rfl := List.mem_singleton.1 hapi
    exact .inl (List.mem_singleton.1 hother)
  | case2 first apis hpath =>
    rcases List.mem_cons.1 hapi with rfl | hapi
    · rcases List.mem_append.1 hother with hother | hother
      · exact .inr ⟨first, List.mem_cons_self, hother⟩
      · exact .inl (List.mem_singleton.1 hother)
    · exact .inr ⟨api, List.mem_cons_of_mem first hapi, hother⟩
  | case3 first apis hpath ih =>
    rcases List.mem_cons.1 hapi with rfl | hapi
    · exact .inr ⟨api, List.mem_cons_self, hother⟩
    · obtain h | ⟨api', hapi', hother'⟩ := ih hapi
      · exact .inl h
      · exact .inr ⟨api', List.mem_cons_of_mem first hapi', hother'⟩

/-- A declaration takes the models of an operation over together with the operation. -/
theorem ApiDeclaration.Closed.add {declaration : ApiDeclaration} {operation : Operation}
    (h : declaration.Closed) (hop : operation.Complete) : (declaration.add operation).Closed := by
  refine ⟨closed_extend h.models hop.closed, fun api hapi other hother id hid => ?_⟩
  rcases mem_insertOperation ⟨api, hapi, hother⟩ with rfl | ⟨api', hapi', hother'⟩
  · exact Dict.mem_extend.2 (.inl (hop.mentioned id hid))
  · exact Dict.mem_extend.2 (.inr (h.mentioned api' hapi' other hother' id hid))

theorem ApiDeclaration.closed_ofResource (apiVersion basePath resource : String) :
    (ofResource apiVersion basePath resource).Closed :=
  ⟨closed_empty, fun _ hapi => by cases hapi⟩

theorem Catalog.Closed.add {catalog : Catalog} {operation : Operation} (h : catalog.Closed)
    (hop : operation.Complete) : (catalog.add operation).Closed := by
  -- in both cases one closed declaration is put under the operation's resource
  have hinsert : ∀ declaration : ApiDeclaration, declaration.Closed →
      ∀ (resource : String) (other : ApiDeclaration),
        (catalog.resources.insert operation.resource (declaration.add operation))[resource]? =
          some other → other.Closed := by
    intro declaration hd resource other ho
    rw [Dict.getElem?_insert] at ho
    by_cases hr : operation.resource = resource
    · rw [if_pos hr, Option.some.injEq] at ho
      exact ho ▸ hd.add hop
    · rw [if_neg hr] at ho
      exact h resource other ho
  unfold Catalog.add
  dsimp only
  cases hc : catalog.resources[operation.resource]? with
  | some declaration => exact hinsert declaration (h _ declaration hc)
  | none => exact hinsert _ (ApiDeclaration.closed_ofResource ..)

theorem Catalog.closed_ofBasePath (basePath : String) : (ofBasePath basePath).Closed := by
  intro resource declaration h
  simp [ofBasePath] at h

end ApiDocs.Swagger

/-! ## Generators -/

namespace ApiDocs.Generator

open Swagger (Operation Catalog)
open Source (FuncDecl SourceUnit)

/-- If the declarations were closed before, they are closed after. -/
def KeepsClosed (g g' : Generator) : Prop := g.catalog.Closed → g'.catalog.Closed

instance : IsPreorder Generator KeepsClosed where
  refl _ := id
  trans _ _ _ h h' := h' ∘ h

theorem KeepsClosed.of_eq {g g' : Generator} (h : g'.catalog.resources = g.catalog.resources) :
    KeepsClosed g g' := by
  intro hg resource declaration hd
  exact hg resource declaration (h ▸ hd)

theorem keeps_modify {f : Generator → Generator} (h : ∀ g, KeepsClosed g (f g)) :
    Keeps KeepsClosed (modify f : GeneratorM PUnit) :=
  fun g => ensures_modify (h g)

theorem ensures_ask {α : Type} {x : SessionM α} {g : Generator} {Q : α → Generator → Prop}
    {E : Error → Generator → Prop}
    (h : Ensures x g.session (fun a s => Q a { g with session := s })
      (fun e s => E e { g with session := s })) : Ensures (ask x) g Q E :=
  Session.ensures_within h

/-- Looking something up changes no declaration. -/
theorem keeps_ask {α : Type} (x : SessionM α) : Keeps KeepsClosed (ask x) := by
  intro g
  apply ensures_ask
  rw [Ensures]
  cases x g.session <;> exact .of_eq rfl

/-- A line of a handler's documentation, whether or not it is malformed. -/
theorem applyLine_complete (w : Workspace) (package function : String) (operation : Operation)
    (line : String) (g : Generator) :
    Ensures (applyLine w package function operation line) g
      (fun operation' g' => KeepsClosed g g' ∧ (operation.Complete → operation'.Complete))
      (fun _ g' => KeepsClosed g g') := by
  unfold applyLine
  apply ensures_tryCatch
  apply ensures_ask
  have hline := Operation.applyLine_complete w operation line g.session
  refine hline.mono (fun operation' s h => ⟨.of_eq rfl, h⟩) (fun e s _ => ?_)
  split
  · apply ensures_bind
    apply ensures_modify
    exact ensures_pure ⟨.of_eq rfl, fun hop => hop⟩
  · exact ensures_throw (.of_eq rfl)

theorem keeps_documentHandler (w : Workspace) (package : String) (function : FuncDecl) :
    Keeps KeepsClosed (documentHandler w package function) := by
  intro g
  unfold documentHandler
  apply ensures_bind
  have hlines := ensures_foldlM (f := applyLine w package function.name)
    (I := fun operation g' => KeepsClosed g g' ∧ operation.Complete)
    (E := fun _ g' => KeepsClosed g g') ((function.doc.map (·.lines)).getD [])
    (Operation.ofPackage package) g ⟨refl_of KeepsClosed g, Operation.complete_ofPackage package⟩
  refine (hlines ?_).mono (fun operation g' h => ?_) (fun _ _ h => h)
  · rintro line - operation g' ⟨hg, hop⟩
    refine (applyLine_complete w package function.name operation line g').mono
      (fun operation' g'' h => ?_) (fun _ g'' h => ?_)
    · exact ⟨trans_of KeepsClosed hg h.1, h.2 hop⟩
    · exact trans_of KeepsClosed hg h
  · split
    · exact ensures_pure h.1
    · exact ensures_modify fun hg => (h.1 hg).add h.2

theorem keeps_documentUnit (w : Workspace) (package : String) (unit : SourceUnit) :
    Keeps KeepsClosed (documentUnit w package unit) :=
  keeps_get.bind fun _ =>
    (Keeps.forM _ fun function => keeps_documentHandler w package function).bind fun _ =>
      Keeps.forM _ fun _ => keeps_modify fun _ => .of_eq rfl

theorem keeps_documentPackage (w : Workspace) (package : String) :
    Keeps KeepsClosed (documentPackage w package) :=
  (keeps_ask _).bind fun _ => Keeps.forM _ fun unit => keeps_documentUnit w package unit

theorem keeps_scan (w : Workspace) (roots : List String) : Keeps KeepsClosed (scan w roots) := by
  intro g
  rw [Ensures]
  unfold scan
  cases Scan.scanAll w roots { session := g.session } <;> exact .of_eq rfl

theorem keeps_documentApi (w : Workspace) (roots : List String) :
    Keeps KeepsClosed (documentApi w roots) :=
  (keeps_scan w roots).bind fun packages =>
    (keeps_ask _).bind fun _ => Keeps.forM packages fun package => keeps_documentPackage w package

theorem keeps_readInformation (w : Workspace) (path : String) :
    Keeps KeepsClosed (readInformation w path) := by
  have hlisting : ∀ f, Keeps KeepsClosed (modifyListing f) := fun f => keeps_modify fun _ => .of_eq rfl
  unfold readInformation
  refine (keeps_ask _).bind fun _ => (keeps_ofExcept _).bind fun unit => ?_
  exact (hlisting _).bind fun _ => Keeps.forM _ fun line => hlisting _

end ApiDocs.Generator

/-! ## Runs -/

namespace ApiDocs

open Swagger (Operation)

/-- A generator, and operations that are being drafted beside those it documents itself. -/
structure Workbench where
  generator : Generator
  drafts : List Operation := []

namespace Workbench

/-- What can be done on a workbench. -/
inductive Action where
  /-- Reads general information from a file. -/
  | readInformation (path : String)
  | buildTypes (package : String)
  | documentPackage (package : String)
  | documentApi (roots : List String)
  /-- Starts to draft an operation. -/
  | draft (package : String)
  /-- Applies a line of documentation to a draft. -/
  | applyLine (draft : Nat) (line : String)
  /-- Adds a draft, as it is now, to the catalog. -/
  | add (draft : Nat)

/-- Lets the generator do something; what it has done stays if it fails. -/
def generate {α : Type} (bench : Workbench) (x : GeneratorM α) : Workbench :=
  { bench with generator := finalState (x bench.generator) }

/-- Applies a line to a draft, which stays as it is if the line cannot be applied. -/
def reviseDraft (w : Workspace) (bench : Workbench) (index : Nat) (draft : Operation)
    (line : String) : Workbench :=
  match draft.applyLine w line bench.generator.session with
  | .ok draft' session =>
    { generator := { bench.generator with session }, drafts := bench.drafts.set index draft' }
  | .error _ session => { bench with generator := { bench.generator with session } }

/-- One action in a workspace. An action on a draft that does not exist does nothing. -/
def perform (bench : Workbench) (w : Workspace) : Action → Workbench
  | .readInformation path => bench.generate (Generator.readInformation w path)
  | .buildTypes package => bench.generate (Generator.ask (Session.buildTypes w package))
  | .documentPackage package => bench.generate (Generator.documentPackage w package)
  | .documentApi roots => bench.generate (Generator.documentApi w roots)
  | .draft package => { bench with drafts := bench.drafts ++ [Operation.ofPackage package] }
  | .applyLine index line =>
    match bench.drafts[index]? with
    | some draft => reviseDraft w bench index draft line
    | none => bench
  | .add index =>
    match bench.drafts[index]? with
    | some draft =>
      { bench with generator := { bench.generator with catalog := bench.generator.catalog.add draft } }
    | none => bench

/-- The workbench after a run of actions, each in the workspace as it is at that moment. -/
def after (bench : Workbench) (run : List (Workspace × Action)) : Workbench :=
  run.foldl (fun bench (w, action) => bench.perform w action) bench

/-- All declarations are closed, and all drafts hold the models that they mention. -/
structure Sound (bench : Workbench) : Prop where
  catalog : bench.generator.catalog.Closed
  drafts : ∀ draft ∈ bench.drafts, draft.Complete

theorem Sound.generate {α : Type} {bench : Workbench} {x : GeneratorM α} (h : bench.Sound)
    (hx : Keeps Generator.KeepsClosed x) : (bench.generate x).Sound :=
  ⟨hx.finalState bench.generator h.catalog, h.drafts⟩

theorem Sound.reviseDraft {bench : Workbench} (h : bench.Sound) (w : Workspace) (index : Nat)
    {draft : Operation} (hdraft : draft.Complete) (line : String) :
    (reviseDraft w bench index draft line).Sound := by
  have hline := draft.applyLine_complete w line bench.generator.session
  unfold Workbench.reviseDraft
  rw [Ensures] at hline
  cases hx : draft.applyLine w line bench.generator.session with
  | error e session => exact ⟨h.catalog, h.drafts⟩
  | ok draft' session =>
    rw [hx] at hline
    refine ⟨h.catalog, fun other hother => ?_⟩
    rcases List.mem_or_eq_of_mem_set hother with hother | rfl
    · exact h.drafts other hother
    · exact hline hdraft

theorem Sound.perform {bench : Workbench} (h : bench.Sound) (w : Workspace) (action : Action) :
    (bench.perform w action).Sound := by
  cases action with
  | readInformation path => exact h.generate (Generator.keeps_readInformation w path)
  | buildTypes package => exact h.generate (Generator.keeps_ask _)
  | documentPackage package => exact h.generate (Generator.keeps_documentPackage w package)
  | documentApi roots => exact h.generate (Generator.keeps_documentApi w roots)
  | draft package =>
    refine ⟨h.catalog, fun other hother => ?_⟩
    rcases List.mem_append.1 hother with hother | hother
    · exact h.drafts other hother
    · rw [List.mem_singleton.1 hother]
      exact Operation.complete_ofPackage package
  | applyLine index line =>
    rw [Workbench.perform]
    cases hd : bench.drafts[index]? with
    | none => exact h
    | some draft => exact h.reviseDraft w index (h.drafts draft (List.mem_of_getElem? hd)) line
  | add index =>
    rw [Workbench.perform]
    cases hd : bench.drafts[index]? with
    | none => exact h
    | some draft => exact ⟨h.catalog.add (h.drafts draft (List.mem_of_getElem? hd)), h.drafts⟩

theorem Sound.after {bench : Workbench} (h : bench.Sound) (run : List (Workspace × Action)) :
    (bench.after run).Sound := by
  induction run generalizing bench with
  | nil => exact h
  | cons step run ih => exact ih (h.perform step.1 step.2)

/-- **No declaration of any resource refers to a model that it does not hold**, whatever a
generator has documented, whatever operations have been drafted and added to its catalog, and
however the workspace has changed meanwhile. -/
theorem no_dangling_reference (session : Session) (basePath : String) (filter : HandlerFilter)
    (run : List (Workspace × Action)) :
    (after ⟨Generator.ofSession session basePath filter, []⟩ run).generator.catalog.Closed := by
  have hstart : Sound ⟨Generator.ofSession session basePath filter, []⟩ :=
    ⟨Swagger.Catalog.closed_ofBasePath basePath, fun _ h => by cases h⟩
  exact (hstart.after run).catalog

/-- Two structs that refer to each other: the declaration that mentions one holds both. -/
example :
    let types := "package p\ntype A struct \x7b\n X []B\n\x7d\ntype B struct \x7b\n Y *A\n\x7d\n"
    let w := ((Workspace.empty.put ["src"] .directory).put ["src", "p"] .directory).put
      ["src", "p", "a.go"] (.file types.toUTF8)
    let bench := after ⟨Generator.ofSession { roots := ⟨["src"], none⟩ } "" HandlerFilter.all, []⟩
      [(w, .buildTypes "p"), (w, .draft "p"), (w, .applyLine 0 "@Success 200 \x7barray\x7d A"),
        (w, .applyLine 0 "@Router /x"), (w, .add 0)]
    (bench.generator.catalog.resources["x"]?).map (·.models.keys) = some ["p.A", "p.B"] := by
  decide +kernel

end Workbench
end ApiDocs
