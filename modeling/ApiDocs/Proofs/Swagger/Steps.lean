/-
  ApiDocs.Proofs.Swagger.Steps

  The steps that build a catalog, in any order: operations are added, and lines are applied to
  the listing. The relation `Performs` says all that one step can do, with one case for each way
  it can go, and every step is one of them (`Catalog.performs`).
-/

import ApiDocs.Proofs.Swagger.Lines
import ApiDocs.Swagger.Catalog

namespace ApiDocs.Swagger

/-- What can happen to a catalog: an operation is added, or a line of general information or a
line that describes a resource is applied to its listing. -/
inductive Catalog.Step where
  | add (operation : Operation)
  | general (line : String)
  | subApi (line : String)

namespace Catalog

/-- The catalog after one step. A line that holds no directive changes nothing. -/
def perform (catalog : Catalog) : Step → Catalog
  | .add operation => catalog.add operation
  | .general line =>
    { catalog with listing := (catalog.listing.applyGlobal? line).getD catalog.listing }
  | .subApi line => { catalog with listing := (catalog.listing.applySubApi line).1 }

/-- The catalog after a run of steps. -/
def after (catalog : Catalog) (steps : List Step) : Catalog :=
  steps.foldl perform catalog

@[simp] theorem after_nil (catalog : Catalog) : catalog.after [] = catalog := rfl

@[simp] theorem after_concat (catalog : Catalog) (steps : List Step) (step : Step) :
    catalog.after (steps ++ [step]) = (catalog.after steps).perform step := by
  rw [after, List.foldl_append]
  rfl

/-- The operation that a step adds. -/
def Step.operation? : Step → Option Operation
  | .add operation => some operation
  | .general _ | .subApi _ => none

/-- The operations that are added, in order. -/
def added (steps : List Step) : List Operation :=
  steps.filterMap Step.operation?

theorem added_concat (steps : List Step) (step : Step) :
    added (steps ++ [step]) = added steps ++ step.operation?.toList := by
  rw [added, List.filterMap_append]
  cases h : step.operation? <;> simp [h, added]

/-! ## What one step does -/

/-- A step takes one catalog to the other. -/
inductive Performs (catalog : Catalog) : Step → Catalog → Prop where
  /-- The operation is put into the declaration of its resource. -/
  | join {operation : Operation} {declaration : ApiDeclaration}
      (h : catalog.resources[operation.resource]? = some declaration) :
      catalog.Performs (.add operation)
        { catalog with
          resources := catalog.resources.insert operation.resource (declaration.add operation) }
  /-- The resource of the operation appears for the first time. -/
  | found {operation : Operation} (h : catalog.resources[operation.resource]? = none) :
      catalog.Performs (.add operation)
        { catalog with
          listing := { catalog.listing with
            apis := catalog.listing.apis ++ [⟨"/" ++ operation.resource, operation.summary⟩] }
          resources := catalog.resources.insert operation.resource
            ((ApiDeclaration.ofResource catalog.listing.apiVersion catalog.basePath
              operation.resource).add operation) }
  | set {line value : String} {field : GeneralField} (h : Sets line field value) :
      catalog.Performs (.general line)
        { catalog with listing := catalog.listing.setValue value field }
  | describe {line path description : String} (h : Describes line path description) :
      catalog.Performs (.subApi line)
        { catalog with
          listing := { catalog.listing with
            apis := describeResource path description catalog.listing.apis } }
  | skipGeneral {line : String} (h : ∀ field value, ¬ Sets line field value) :
      catalog.Performs (.general line) catalog
  | skipSubApi {line : String} (h : ∀ path description, ¬ Describes line path description) :
      catalog.Performs (.subApi line) catalog

theorem performs (catalog : Catalog) (step : Step) : catalog.Performs step (catalog.perform step) := by
  cases step with
  | add operation =>
    cases hd : catalog.resources[operation.resource]? with
    | some declaration =>
      simp only [perform, add, hd]
      exact .join hd
    | none =>
      simp only [perform, add, hd]
      exact .found hd
  | general line =>
    rcases catalog.listing.applyGlobal?_cases line with ⟨field, value, hsets, heq⟩ | ⟨hsilent, heq⟩
    · simp only [perform, heq]
      exact .set hsets
    · simp only [perform, heq]
      exact .skipGeneral hsilent
  | subApi line =>
    rcases catalog.listing.applySubApi_cases line with
      ⟨path, description, hdescribes, heq⟩ | ⟨hsilent, heq⟩
    · simp only [perform, heq]
      exact .describe hdescribes
    · simp only [perform, heq]
      exact .skipSubApi hsilent

end Catalog
end ApiDocs.Swagger
