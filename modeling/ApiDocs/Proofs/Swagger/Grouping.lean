/-
  ApiDocs.Proofs.Swagger.Grouping

  How a catalog groups operations. Adding an operation puts it, without its models, at its
  resource and path and leaves all other groups alone (`Catalog.gains_add`). So what a catalog
  holds after any additions is said by the operations alone, and up to their order in each
  group it does not depend on the order in which they were added (`Catalog.Gains.perm`).
-/

import ApiDocs.Proofs.Dict
import ApiDocs.Swagger.Catalog
import Mathlib.Data.List.Perm.Basic

namespace ApiDocs.Swagger

/-- The operations under a path. -/
def ApiDeclaration.operationsAt (declaration : ApiDeclaration) (path : String) : List Operation :=
  (declaration.apis.filter fun api => api.path = path).flatMap (·.operations)

/-- The operations of a resource under a path. -/
def Catalog.operationsAt (catalog : Catalog) (resource path : String) : List Operation :=
  (catalog.resources[resource]?.map fun declaration => declaration.operationsAt path).getD []

/-- An operation as a catalog lists it: its models are kept elsewhere. -/
def Operation.bare (operation : Operation) : Operation :=
  { operation with models := ∅ }

/-! ## One operation -/

theorem ApiDeclaration.operationsAt_insertOperation (operation : Operation) (apis : List Api)
    (path : String) :
    (((insertOperation operation apis).filter fun api => api.path = path).flatMap (·.operations)).Perm
      (((apis.filter fun api => api.path = path).flatMap (·.operations)) ++
        if operation.path = path then [operation] else []) := by
  induction apis with
  | nil =>
    rw [insertOperation]
    by_cases h : operation.path = path
    · simp [h]
    · simp [h]
  | cons api apis ih =>
    rw [insertOperation]
    by_cases hsame : api.path = operation.path
    · rw [if_pos hsame]
      by_cases h : operation.path = path
      · -- the operation comes before those of later entries with the same path, if there are any
        have hapi : api.path = path := hsame.trans h
        simp only [List.filter_cons, hapi, h, decide_true, if_true, List.flatMap_cons,
          List.append_assoc]
        exact List.Perm.append_left _ List.perm_append_comm
      · have hapi : api.path ≠ path := fun hp => h (hsame.symm.trans hp)
        simp [hapi, h]
    · rw [if_neg hsame]
      by_cases hapi : api.path = path
      · simp only [List.filter_cons, hapi, decide_true, if_true, List.flatMap_cons,
          List.append_assoc]
        exact List.Perm.append_left _ ih
      · simpa [List.filter_cons, hapi] using ih

theorem ApiDeclaration.operationsAt_add (declaration : ApiDeclaration) (operation : Operation)
    (path : String) :
    ((declaration.add operation).operationsAt path).Perm
      (declaration.operationsAt path ++ if operation.path = path then [operation.bare] else []) :=
  operationsAt_insertOperation operation.bare declaration.apis path

namespace Catalog

/-- The declaration that an operation is added to: the one of its resource, or a new one. -/
theorem add_resources (catalog : Catalog) (operation : Operation) :
    ∃ declaration : ApiDeclaration,
      (∀ path, declaration.operationsAt path = catalog.operationsAt operation.resource path) ∧
      (catalog.add operation).resources =
        catalog.resources.insert operation.resource (declaration.add operation) := by
  cases h : catalog.resources[operation.resource]? with
  | some declaration =>
    refine ⟨declaration, fun path => ?_, by simp only [add, h]⟩
    rw [operationsAt, h]
    rfl
  | none =>
    refine ⟨ApiDeclaration.ofResource catalog.listing.apiVersion catalog.basePath operation.resource,
      fun path => ?_, by simp only [add, h]⟩
    rw [operationsAt, h]
    rfl

/-! ## Any number of operations -/

/-- One catalog holds what the other one held, and these operations at their places. -/
structure Gains (catalog : Catalog) (operations : List Operation) (catalog' : Catalog) : Prop where
  resources : ∀ resource, resource ∈ catalog'.resources ↔
    resource ∈ catalog.resources ∨ ∃ operation ∈ operations, operation.resource = resource
  operationsAt : ∀ resource path, (catalog'.operationsAt resource path).Perm
    (catalog.operationsAt resource path ++
      (operations.filter fun operation =>
        operation.resource = resource ∧ operation.path = path).map Operation.bare)

/-- Where resources stay, nothing is gained. -/
theorem gains_of_eq {catalog catalog' : Catalog} (h : catalog'.resources = catalog.resources) :
    catalog.Gains [] catalog' := by
  constructor
  · intro resource
    simp [h]
  · intro resource path
    simp [operationsAt, h]

theorem gains_add (catalog : Catalog) (operation : Operation) :
    catalog.Gains [operation] (catalog.add operation) := by
  obtain ⟨declaration, hdeclaration, hresources⟩ := catalog.add_resources operation
  constructor
  · intro resource
    rw [hresources, Dict.mem_insert_iff]
    simp [or_comm]
  · intro resource path
    rw [operationsAt, hresources, Dict.getElem?_insert]
    by_cases hr : operation.resource = resource
    · have hadd := declaration.operationsAt_add operation path
      rw [hdeclaration, hr] at hadd
      rw [if_pos hr]
      by_cases hp : operation.path = path
      · simpa [hr, hp] using hadd
      · simpa [hr, hp] using hadd
    · rw [if_neg hr]
      simp [hr, operationsAt]

theorem Gains.trans {catalog catalog' catalog'' : Catalog} {operations operations' : List Operation}
    (h : catalog.Gains operations catalog') (h' : catalog'.Gains operations' catalog'') :
    catalog.Gains (operations ++ operations') catalog'' := by
  constructor
  · intro resource
    rw [h'.resources, h.resources]
    simp only [List.mem_append, or_and_right, exists_or, or_assoc]
  · intro resource path
    rw [List.filter_append, List.map_append, ← List.append_assoc]
    exact (h'.operationsAt resource path).trans ((h.operationsAt resource path).append_right _)

/-- The order in which operations were added does not matter. -/
theorem Gains.perm {catalog catalog₁ catalog₂ : Catalog} {operations₁ operations₂ : List Operation}
    (h₁ : catalog.Gains operations₁ catalog₁) (h₂ : catalog.Gains operations₂ catalog₂)
    (hperm : operations₁.Perm operations₂) :
    (∀ resource, resource ∈ catalog₁.resources ↔ resource ∈ catalog₂.resources) ∧
    ∀ resource path, (catalog₁.operationsAt resource path).Perm (catalog₂.operationsAt resource path) := by
  constructor
  · intro resource
    rw [h₁.resources, h₂.resources]
    simp only [hperm.mem_iff]
  · intro resource path
    have hgroup := ((hperm.filter fun operation =>
      operation.resource = resource ∧ operation.path = path).map Operation.bare).append_left
        (catalog.operationsAt resource path)
    exact (h₁.operationsAt resource path).trans (hgroup.trans (h₂.operationsAt resource path).symm)

end Catalog
end ApiDocs.Swagger
