/-
  ApiDocs.Proofs.Swagger.Collection

  What a catalog holds after any run of steps, as a function of the operations that were added.
  Each resource has the entries `apisOf` and the models `modelsOf` of its own operations, one
  entry for each path in the order of first appearance (`insertOperation_apisOf`), and the listing
  has one reference for each resource, again in the order of first appearance. The other steps,
  which apply lines to the listing, change none of this (`Holds.performs`).
-/

import ApiDocs.Proofs.Swagger.Grouping
import ApiDocs.Proofs.Swagger.Steps
import Mathlib.Data.List.Induction
import Mathlib.Data.List.Nodup

namespace ApiDocs.Swagger

/-! ## The order of first appearance -/

section FirstAppearance

variable {α : Type} [DecidableEq α]

theorem eraseDups_concat (l : List α) (a : α) :
    (l ++ [a]).eraseDups = if a ∈ l then l.eraseDups else l.eraseDups ++ [a] := by
  rw [List.eraseDups_append]
  by_cases h : a ∈ l
  · simp [List.removeAll, h]
  · simp [List.removeAll, h, List.eraseDups_cons]

theorem nodup_eraseDups (l : List α) : l.eraseDups.Nodup := by
  induction l using List.reverseRecOn with
  | nil => simp
  | append_singleton l a ih =>
    rw [eraseDups_concat]
    split
    · exact ih
    · rename_i h
      refine List.nodup_append.2 ⟨ih, by simp, fun b hb c hc => ?_⟩
      rw [List.mem_singleton.1 hc]
      rintro rfl
      exact h (List.mem_eraseDups.1 hb)

end FirstAppearance

/-! ## The entries and models of operations -/

/-- The entry of a path: its operations, under the summary of the first one. -/
def apiAt (operations : List Operation) (path : String) : Api where
  path
  description := ((operations.find? fun operation => operation.path = path).map (·.summary)).getD ""
  operations := (operations.filter fun operation => operation.path = path).map Operation.bare

/-- The entries of operations, one for each path. -/
def apisOf (operations : List Operation) : List Api :=
  (operations.map (·.path)).eraseDups.map (apiAt operations)

/-- The models of operations; of several with one id the last one counts. -/
def modelsOf (operations : List Operation) : Dict Model :=
  operations.foldl (fun models operation => models.extend operation.models) ∅

/-- An operation does not change the entries of other paths. -/
theorem apiAt_concat_of_ne (operations : List Operation) {operation : Operation} {path : String}
    (h : operation.path ≠ path) : apiAt (operations ++ [operation]) path = apiAt operations path := by
  have hnot : ¬ operation.path = path := h
  simp [apiAt, List.find?_append, List.filter_append, hnot]

/-- An operation on a path that has an entry is put behind the operations of that entry. -/
theorem apiAt_concat_of_mem {operations : List Operation} {operation : Operation}
    (h : operation.path ∈ operations.map (·.path)) :
    apiAt (operations ++ [operation]) operation.path =
      { apiAt operations operation.path with
        operations := (apiAt operations operation.path).operations ++ [operation.bare] } := by
  obtain ⟨other, hother, hpath⟩ := List.mem_map.1 h
  obtain ⟨first, hfirst⟩ : ∃ first,
      (operations.find? fun o => o.path = operation.path) = some first := by
    rw [← Option.isSome_iff_exists, List.find?_isSome]
    exact ⟨other, hother, by simpa using hpath⟩
  simp [apiAt, List.find?_append, List.filter_append, hfirst]

/-- The entry of an operation on a new path. -/
theorem apiAt_concat_of_not_mem {operations : List Operation} {operation : Operation}
    (h : operation.path ∉ operations.map (·.path)) :
    apiAt (operations ++ [operation]) operation.path =
      { path := operation.path, description := operation.summary, operations := [operation.bare] } := by
  have hnone : ∀ other ∈ operations, other.path ≠ operation.path :=
    fun other hother heq => h (List.mem_map.2 ⟨other, hother, heq⟩)
  have hfind : (operations.find? fun o => o.path = operation.path) = none := by
    simpa [List.find?_eq_none] using hnone
  have hfilter : (operations.filter fun o => o.path = operation.path) = [] := by
    simpa [List.filter_eq_nil_iff] using hnone
  simp [apiAt, List.find?_append, List.filter_append, hfind, hfilter]

/-- Putting an operation into entries among which its path is. -/
theorem insertOperation_of_mem {operations : List Operation} {operation : Operation}
    (hmem : operation.path ∈ operations.map (·.path)) {paths : List String} (hnodup : paths.Nodup)
    (hpath : operation.path ∈ paths) :
    ApiDeclaration.insertOperation operation.bare (paths.map (apiAt operations)) =
      paths.map (apiAt (operations ++ [operation])) := by
  induction paths with
  | nil => cases hpath
  | cons path paths ih =>
    obtain ⟨hfresh, hnodup⟩ := List.nodup_cons.1 hnodup
    have hcond : (apiAt operations path).path = operation.bare.path ↔ path = operation.path := Iff.rfl
    rw [List.map_cons, List.map_cons, ApiDeclaration.insertOperation]
    by_cases heq : path = operation.path
    · subst heq
      have hrest : paths.map (apiAt (operations ++ [operation])) = paths.map (apiAt operations) := by
        refine List.map_congr_left fun other hother => apiAt_concat_of_ne operations ?_
        rintro rfl
        exact hfresh hother
      -- this is the entry that gets the operation, and the others keep theirs
      rw [if_pos (hcond.2 rfl), apiAt_concat_of_mem hmem, hrest]
    · have hrest : operation.path ∈ paths := by
        rcases List.mem_cons.1 hpath with h | h
        · exact absurd h.symm heq
        · exact h
      rw [if_neg (mt hcond.1 heq), ih hnodup hrest, apiAt_concat_of_ne operations (Ne.symm heq)]

/-- Putting an operation into entries of other paths. -/
theorem insertOperation_of_not_mem (operation : Operation) {apis : List Api}
    (h : ∀ api ∈ apis, api.path ≠ operation.path) :
    ApiDeclaration.insertOperation operation apis =
      apis ++ [{ path := operation.path, description := operation.summary, operations := [operation] }] := by
  induction apis with
  | nil => rfl
  | cons api apis ih =>
    rw [ApiDeclaration.insertOperation, if_neg (h api List.mem_cons_self),
      ih fun other hother => h other (List.mem_cons_of_mem api hother), List.cons_append]

/-- Adding an operation to the entries of others gives the entries of all of them. -/
theorem insertOperation_apisOf (operations : List Operation) (operation : Operation) :
    ApiDeclaration.insertOperation operation.bare (apisOf operations) =
      apisOf (operations ++ [operation]) := by
  rw [apisOf, apisOf, List.map_append, List.map_singleton, eraseDups_concat]
  by_cases hmem : operation.path ∈ operations.map (·.path)
  · rw [if_pos hmem]
    exact insertOperation_of_mem hmem (nodup_eraseDups _) (List.mem_eraseDups.2 hmem)
  · -- a new path: its entry comes last, and no other one changes
    have hothers : ∀ path ∈ (operations.map (·.path)).eraseDups, path ≠ operation.path := by
      rintro path hpath rfl
      exact hmem (List.mem_eraseDups.1 hpath)
    have hsame : (operations.map (·.path)).eraseDups.map (apiAt (operations ++ [operation])) =
        (operations.map (·.path)).eraseDups.map (apiAt operations) :=
      List.map_congr_left fun path hpath =>
        apiAt_concat_of_ne operations (Ne.symm (hothers path hpath))
    rw [if_neg hmem, List.map_append, List.map_singleton, hsame, apiAt_concat_of_not_mem hmem]
    refine insertOperation_of_not_mem operation.bare fun api hapi => ?_
    obtain ⟨path, hpath, rfl⟩ := List.mem_map.1 hapi
    exact hothers path hpath

theorem modelsOf_concat (operations : List Operation) (operation : Operation) :
    modelsOf (operations ++ [operation]) = (modelsOf operations).extend operation.models := by
  rw [modelsOf, List.foldl_append]
  rfl

/-- An id has the model of the last operation that has a model with this id. -/
theorem getElem?_modelsOf (operations : List Operation) (id : String) :
    (modelsOf operations)[id]? = (operations.filterMap fun operation => operation.models[id]?).getLast? := by
  induction operations using List.reverseRecOn with
  | nil => simp [modelsOf]
  | append_singleton operations operation ih =>
    rw [modelsOf_concat, Dict.getElem?_extend, ih, List.filterMap_append, List.getLast?_append]
    cases h : operation.models[id]? <;> simp [h]

theorem mem_modelsOf {operations : List Operation} {id : String} :
    id ∈ modelsOf operations ↔ ∃ operation ∈ operations, id ∈ operation.models := by
  induction operations using List.reverseRecOn with
  | nil => simp [modelsOf]
  | append_singleton operations operation ih =>
    rw [modelsOf_concat, Dict.mem_extend, ih]
    simp only [List.mem_append, List.mem_singleton, or_and_right, exists_or, exists_eq_left]
    exact or_comm

/-! ## What a catalog holds -/

/-- The operations of a resource. -/
def ownOf (operations : List Operation) (resource : String) : List Operation :=
  operations.filter fun operation => operation.resource = resource

theorem ownOf_concat_of_ne (operations : List Operation) {operation : Operation} {resource : String}
    (h : operation.resource ≠ resource) :
    ownOf (operations ++ [operation]) resource = ownOf operations resource := by
  have hnot : ¬ operation.resource = resource := h
  simp [ownOf, List.filter_append, hnot]

theorem ownOf_concat (operations : List Operation) (operation : Operation) :
    ownOf (operations ++ [operation]) operation.resource =
      ownOf operations operation.resource ++ [operation] := by
  simp [ownOf, List.filter_append]

theorem ownOf_eq_nil {operations : List Operation} {resource : String} :
    ownOf operations resource = [] ↔ resource ∉ operations.map Operation.resource := by
  simp [ownOf, List.filter_eq_nil_iff]

namespace Catalog

/-- The entries and models of a resource. -/
def groups (catalog : Catalog) (resource : String) : Option (List Api × Dict Model) :=
  catalog.resources[resource]?.map fun declaration => (declaration.apis, declaration.models)

/-- The catalog holds these operations: each resource that has some holds their entries and
models, and the listing refers to the resources in the order of their first appearance. -/
structure Holds (catalog : Catalog) (operations : List Operation) : Prop where
  entries : ∀ resource, catalog.groups resource =
    if ownOf operations resource = [] then none
    else some (apisOf (ownOf operations resource), modelsOf (ownOf operations resource))
  paths : catalog.listing.apis.map (·.path) =
    (operations.map Operation.resource).eraseDups.map ("/" ++ ·)

section Holds

variable {catalog : Catalog} {operations : List Operation}

theorem holds_ofBasePath (basePath : String) : (ofBasePath basePath).Holds [] := by
  constructor
  · intro resource
    simp [groups, ofBasePath, ownOf]
  · simp [ofBasePath]

/-- A declared resource has operations, and it has their entries and models. -/
theorem Holds.eq_of_declared (h : catalog.Holds operations) {resource : String}
    {declaration : ApiDeclaration} (hd : catalog.resources[resource]? = some declaration) :
    ownOf operations resource ≠ [] ∧ declaration.apis = apisOf (ownOf operations resource) ∧
      declaration.models = modelsOf (ownOf operations resource) := by
  have hgroups := h.entries resource
  rw [groups, hd] at hgroups
  split at hgroups
  · cases hgroups
  · rename_i hown
    exact ⟨hown, by simpa using hgroups⟩

/-- A resource that is not declared has no operations. -/
theorem Holds.eq_nil_of_undeclared (h : catalog.Holds operations) {resource : String}
    (hd : catalog.resources[resource]? = none) : ownOf operations resource = [] := by
  have hgroups := h.entries resource
  rw [groups, hd] at hgroups
  split at hgroups
  · assumption
  · cases hgroups

theorem Holds.mem_resources (h : catalog.Holds operations) (resource : String) :
    resource ∈ catalog.resources ↔ resource ∈ operations.map Operation.resource := by
  cases hd : catalog.resources[resource]? with
  | none =>
    have hout : resource ∉ catalog.resources := by simp [Dict.mem_iff_getElem?, hd]
    have hown := ownOf_eq_nil.1 (h.eq_nil_of_undeclared hd)
    exact iff_of_false hout hown
  | some declaration =>
    have hin : resource ∈ catalog.resources := Dict.mem_iff_getElem?.2 ⟨declaration, hd⟩
    have hown := mt ownOf_eq_nil.2 (h.eq_of_declared hd).1
    exact iff_of_true hin (not_not.1 hown)

/-- Once an operation is put into the declaration of its resource, it is held there, and the other
resources hold what they held. -/
theorem Holds.entries_add (h : catalog.Holds operations) (operation : Operation)
    {declaration : ApiDeclaration}
    (hapis : declaration.apis = apisOf (ownOf operations operation.resource))
    (hmodels : declaration.models = modelsOf (ownOf operations operation.resource))
    {catalog' : Catalog}
    (hresources : catalog'.resources =
      catalog.resources.insert operation.resource (declaration.add operation)) (resource : String) :
    catalog'.groups resource =
      if ownOf (operations ++ [operation]) resource = [] then none
      else some (apisOf (ownOf (operations ++ [operation]) resource),
        modelsOf (ownOf (operations ++ [operation]) resource)) := by
  rw [groups, hresources, Dict.getElem?_insert]
  by_cases hr : operation.resource = resource
  · subst hr
    rw [if_pos rfl, ownOf_concat, if_neg (by simp), ← insertOperation_apisOf, modelsOf_concat,
      ← hapis, ← hmodels]
    rfl
  · rw [if_neg hr, ownOf_concat_of_ne operations hr]
    exact h.entries resource

/-- One step: an operation is held together with those that were held before it, and applying a
line changes nothing that is held. -/
theorem Holds.performs {catalog' : Catalog} {step : Step} (h : catalog.Holds operations)
    (hstep : catalog.Performs step catalog') :
    catalog'.Holds (operations ++ step.operation?.toList) := by
  cases hstep with
  | join hd =>
    obtain ⟨hown, hapis, hmodels⟩ := h.eq_of_declared hd
    -- the resource has appeared before, so the listing stays as it is
    refine ⟨h.entries_add _ hapis hmodels rfl, ?_⟩
    have hmem := not_not.1 (mt ownOf_eq_nil.2 hown)
    simp only [Step.operation?, Option.toList_some, List.map_append, List.map_singleton]
    rw [eraseDups_concat, if_pos hmem]
    exact h.paths
  | found hd =>
    have hown := h.eq_nil_of_undeclared hd
    -- the resource has no operations yet, and neither does the new declaration
    refine ⟨h.entries_add _ (by rw [hown]; rfl) (by rw [hown]; rfl) rfl, ?_⟩
    have hfresh := ownOf_eq_nil.1 hown
    simp only [Step.operation?, Option.toList_some, List.map_append, List.map_singleton]
    rw [eraseDups_concat, if_neg hfresh, List.map_append, h.paths]
    rfl
  | set hsets =>
    refine ⟨fun resource => ?_, ?_⟩
    · simpa [Step.operation?, groups] using h.entries resource
    · simpa [Step.operation?] using h.paths
  | describe hdescribes =>
    refine ⟨fun resource => ?_, ?_⟩
    · simpa [Step.operation?, groups] using h.entries resource
    · simpa [Step.operation?] using h.paths
  | skipGeneral => simpa [Step.operation?] using h
  | skipSubApi => simpa [Step.operation?] using h

end Holds

/-- After any run of steps a catalog holds the operations that were added. -/
theorem holds_after (basePath : String) (steps : List Step) :
    ((ofBasePath basePath).after steps).Holds (added steps) := by
  induction steps using List.reverseRecOn with
  | nil => exact holds_ofBasePath basePath
  | append_singleton steps step ih =>
    rw [after_concat, added_concat]
    exact ih.performs (performs _ step)

end Catalog

theorem map_path_apisOf (operations : List Operation) :
    (apisOf operations).map (·.path) = (operations.map (·.path)).eraseDups := by
  rw [apisOf, List.map_map]
  exact List.map_id _

/-- The entries of operations hold the operations of their paths, and none is empty. -/
theorem operations_of_mem_apisOf {operations : List Operation} {api : Api}
    (h : api ∈ apisOf operations) :
    api.operations ≠ [] ∧
      api.operations = (operations.filter fun operation => operation.path = api.path).map Operation.bare := by
  obtain ⟨path, hpath, rfl⟩ := List.mem_map.1 h
  refine ⟨?_, rfl⟩
  obtain ⟨operation, hmem, rfl⟩ := List.mem_map.1 (List.mem_eraseDups.1 hpath)
  have : operation ∈ operations.filter fun other => other.path = operation.path :=
    List.mem_filter.2 ⟨hmem, by simp⟩
  exact fun hnil => List.ne_nil_of_mem this (List.map_eq_nil_iff.1 hnil)

/-- **A catalog groups its operations without loss, duplication or reordering**, whatever lines
are applied in between. Its resources are those of the operations, and the listing refers to
each of them once, in the order of first appearance. A resource has one entry for each path of
its own operations, again in the order of first appearance, with the operations of this path in
the order in which they were added, and it has their models, where the last one with an id
counts. So the entries and models of a resource depend on nothing but its own operations. -/
theorem Catalog.operations_grouped (basePath : String) (steps : List Catalog.Step) :
    let catalog := (ofBasePath basePath).after steps
    (∀ resource, resource ∈ catalog.resources ↔
      ∃ operation ∈ added steps, operation.resource = resource) ∧
    catalog.listing.apis.map (·.path) =
      ((added steps).map Operation.resource).eraseDups.map ("/" ++ ·) ∧
    (catalog.listing.apis.map (·.path)).Nodup ∧
    (∀ resource declaration, catalog.resources[resource]? = some declaration →
      let own := ownOf (added steps) resource
      declaration.apis.map (·.path) = (own.map (·.path)).eraseDups ∧
      (declaration.apis.map (·.path)).Nodup ∧
      (∀ api ∈ declaration.apis, api.operations ≠ [] ∧
        api.operations = (own.filter fun operation => operation.path = api.path).map Operation.bare) ∧
      (∀ id, id ∈ declaration.models ↔ ∃ operation ∈ own, id ∈ operation.models) ∧
      ∀ id : String, declaration.models[id]? = (own.filterMap fun operation => operation.models[id]?).getLast?) ∧
    ∀ basePath' steps' resource, ownOf (added steps') resource = ownOf (added steps) resource →
      ((ofBasePath basePath').after steps').groups resource = catalog.groups resource := by
  intro catalog
  have hholds := holds_after basePath steps
  refine ⟨fun resource => ?_, hholds.paths, ?_, fun resource declaration hd => ?_,
    fun basePath' steps' resource hown => ?_⟩
  · rw [hholds.mem_resources, List.mem_map]
  · rw [hholds.paths]
    have hinj : Function.Injective ("/" ++ · : String → String) :=
      fun resource resource' heq => (String.append_right_inj "/").1 heq
    exact List.Nodup.map hinj (nodup_eraseDups _)
  · obtain ⟨-, hapis, hmodels⟩ := hholds.eq_of_declared hd
    rw [hapis, hmodels, map_path_apisOf]
    exact ⟨rfl, nodup_eraseDups _, fun api hapi => operations_of_mem_apisOf hapi,
      fun id => mem_modelsOf, getElem?_modelsOf _⟩
  · rw [hholds.entries, (holds_after basePath' steps').entries, hown]

/-- A shop: its orders are read and written under one path, by operations that have a model with
one id, and one operation names the resource that its path does not give. -/
def Catalog.shop : List Catalog.Step :=
  [.add { path := "/orders", method := "GET", summary := "Orders",
          models := (∅ : Dict Model).insert "shop.Order" { id := "shop.Order" } },
   .subApi "@SubApi Orders of the shop [/orders]",
   .add { path := "//  /", method := "GET" },
   .general "@APIVersion 2",
   .add { path := "/carts", resourceName := some "orders" },
   .add { path := "/orders", method := "POST",
          models := (∅ : Dict Model).insert "shop.Order" { id := "shop.Order", description := some "new" } }]

theorem Catalog.operations_grouped_shop :
    let catalog := (ofBasePath "/").after shop
    catalog.listing.apis.map (·.path) = ["/orders", "/"] ∧
    ∃ declaration, catalog.resources["orders"]? = some declaration ∧
      declaration.apis.map (·.path) = ["/orders", "/carts"] ∧
      (∀ api ∈ declaration.apis, api.path = "/orders" →
        api.operations.map (·.method) = ["GET", "POST"]) ∧
      declaration.models["shop.Order"]? = some { id := "shop.Order", description := some "new" } := by
  intro catalog
  obtain ⟨hresources, hpaths, -, hdeclarations, -⟩ := operations_grouped "/" shop
  refine ⟨hpaths.trans (by decide +kernel), ?_⟩
  have hmem : "orders" ∈ catalog.resources := (hresources "orders").2 (by decide +kernel)
  obtain ⟨declaration, hd⟩ := Dict.mem_iff_getElem?.1 hmem
  obtain ⟨hapis, -, hoperations, -, hmodels⟩ := hdeclarations "orders" declaration hd
  refine ⟨declaration, hd, hapis.trans (by decide +kernel), fun api hapi hpath => ?_,
    (hmodels "shop.Order").trans (by decide +kernel)⟩
  rw [(hoperations api hapi).2, hpath]
  decide +kernel

end ApiDocs.Swagger
