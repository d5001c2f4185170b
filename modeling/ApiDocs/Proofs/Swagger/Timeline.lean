/-
  ApiDocs.Proofs.Swagger.Timeline

  When the parts of a catalog take their values. Three rules share one listing. A declaration is
  frozen: it keeps the version and the base path of the moment at which its resource first
  appeared (`declared_after`). A field of the general information holds what the last line about
  it says (`value_after`). The description of a resource is the last one that was given after
  the resource had appeared, and at first the summary of its first operation
  (`referred_after`). The rules hold for every order of the steps, and a step changes nothing
  but what they name.
-/

import ApiDocs.Proofs.Swagger.Collection

namespace ApiDocs.Swagger

/-! ## Lines say one thing -/

theorem Sets.unique {line value value' : String} {field field' : GeneralField}
    (h : Sets line field value) (h' : Sets line field' value') : field = field' ∧ value = value' :=
  ⟨GeneralField.lowered_directive_inj (h.1.symm.trans h'.1), h.2.trans h'.2.symm⟩

theorem Describes.unique {line path description path' description' : String}
    (h : Describes line path description) (h' : Describes line path' description') :
    path = path' ∧ description = description' := by
  obtain ⟨rest, captured, hline, hcaptures, rfl⟩ := h
  obtain ⟨rest', captured', hline', hcaptures', rfl⟩ := h'
  obtain rfl : rest = rest' := List.append_cancel_left (hline.symm.trans hline')
  obtain ⟨rfl, hpath⟩ := hcaptures.unique hcaptures'
  exact ⟨String.toList_inj.1 hpath, rfl⟩

namespace Catalog

/-- The step gives the field this value. -/
def Step.Gives (field : GeneralField) (step : Step) (value : String) : Prop :=
  ∃ line, step = .general line ∧ Sets line field value

/-- The step describes the resource with this path. -/
def Step.Tells (path : String) (step : Step) (description : String) : Prop :=
  ∃ line, step = .subApi line ∧ Describes line path description

/-! ## The last word -/

/-- The value is the one that the last step says, or the initial one if no step says any. -/
def Settles (tells : Step → String → Prop) (steps : List Step) (initial value : String) : Prop :=
  (∃ before step behind, steps = before ++ step :: behind ∧ tells step value ∧
    ∀ later ∈ behind, ∀ other, ¬ tells later other) ∨
  (∀ step ∈ steps, ∀ other, ¬ tells step other) ∧ value = initial

section Settles

variable {tells : Step → String → Prop} {steps : List Step} {step : Step} {initial value : String}

theorem Settles.nil : Settles tells [] initial initial :=
  .inr ⟨fun _ hstep => absurd hstep List.not_mem_nil, rfl⟩

/-- What a step says counts from then on. -/
theorem Settles.concat_tells (h : tells step value) : Settles tells (steps ++ [step]) initial value :=
  .inl ⟨steps, step, [], rfl, h, fun _ hlater => absurd hlater List.not_mem_nil⟩

/-- A step that says nothing leaves the value as it is. -/
theorem Settles.concat_silent (h : Settles tells steps initial value)
    (hsilent : ∀ other, ¬ tells step other) : Settles tells (steps ++ [step]) initial value := by
  rcases h with ⟨before, last, behind, rfl, hlast, hbehind⟩ | ⟨hnone, rfl⟩
  · refine .inl ⟨before, last, behind ++ [step], by simp, hlast, fun later hlater => ?_⟩
    rcases List.mem_append.1 hlater with hlater | hlater
    · exact hbehind later hlater
    · rw [List.mem_singleton.1 hlater]
      exact hsilent
  · refine .inr ⟨fun other hother => ?_, rfl⟩
    rcases List.mem_append.1 hother with hother | hother
    · exact hnone other hother
    · rw [List.mem_singleton.1 hother]
      exact hsilent

end Settles

/-! ## The first appearance of a resource -/

/-- The resource appears for the first time with this operation. -/
structure Appears (steps : List Step) (resource : String) (before : List Step)
    (operation : Operation) (behind : List Step) : Prop where
  split : steps = before ++ .add operation :: behind
  resource_eq : operation.resource = resource
  first : ∀ earlier ∈ added before, earlier.resource ≠ resource

theorem Appears.concat {steps before behind : List Step} {resource : String} {operation : Operation}
    (h : Appears steps resource before operation behind) (step : Step) :
    Appears (steps ++ [step]) resource before operation (behind ++ [step]) :=
  { h with split := by rw [h.split]; simp }

/-- A resource that is not declared appears with the next operation on it. -/
theorem appears_of_undeclared {basePath : String} {steps : List Step} {operation : Operation}
    (h : ((ofBasePath basePath).after steps).resources[operation.resource]? = none) :
    Appears (steps ++ [.add operation]) operation.resource steps operation [] := by
  have hholds := holds_after basePath steps
  have hown := ownOf_eq_nil.1 (hholds.eq_nil_of_undeclared h)
  exact ⟨rfl, rfl, fun earlier hmem heq => hown (List.mem_map.2 ⟨earlier, hmem, heq⟩)⟩

/-! ## What a step leaves alone -/

/-- A reference after a step: it has the path it had, and unless the step describes it, it is
the reference it was. -/
def Step.Rewrites (step : Step) (reference reference' : ResourceRef) : Prop :=
  reference'.path = reference.path ∧
    ((∀ description, ¬ step.Tells reference.path description) → reference' = reference)

/-- What a step leaves alone. -/
structure Frame (catalog : Catalog) (step : Step) (catalog' : Catalog) : Prop where
  basePath : catalog'.basePath = catalog.basePath
  swaggerVersion : catalog'.listing.swaggerVersion = catalog.listing.swaggerVersion
  /-- Only a line about a field changes it. -/
  value : ∀ field, (∀ value, ¬ step.Gives field value) →
    catalog'.listing.value field = catalog.listing.value field
  /-- References stay in place, and a new one stands for a new resource. -/
  references : ∃ kept new, catalog'.listing.apis = kept ++ new ∧
    List.Forall₂ step.Rewrites catalog.listing.apis kept ∧
    ((∀ operation, step = .add operation → operation.resource ∈ catalog.resources) → new = [])
  /-- Only an operation of the resource changes its declaration. -/
  declarations : ∀ resource : String,
    (∀ operation, step = .add operation → operation.resource ≠ resource) →
    catalog'.resources[resource]? = catalog.resources[resource]?
  /-- A declaration that exists gets entries and models only. -/
  frozen : ∀ (resource : String) (declaration : ApiDeclaration),
    catalog.resources[resource]? = some declaration →
    ∃ declaration', catalog'.resources[resource]? = some declaration' ∧
      { declaration' with apis := declaration.apis, models := declaration.models } = declaration

theorem Step.rewrites_self (step : Step) (references : List ResourceRef) :
    List.Forall₂ step.Rewrites references references :=
  List.forall₂_same.2 fun _ _ => ⟨rfl, fun _ => rfl⟩

theorem Frame.refl (catalog : Catalog) (step : Step) : catalog.Frame step catalog where
  basePath := rfl
  swaggerVersion := rfl
  value _ _ := rfl
  references := ⟨_, [], (List.append_nil _).symm, step.rewrites_self _, fun _ => rfl⟩
  declarations _ _ := rfl
  frozen _ declaration hd := ⟨declaration, hd, rfl⟩

/-- Describing a resource rewrites the references to it. -/
theorem rewrites_describeResource {line path description : String}
    (h : Describes line path description) (references : List ResourceRef) :
    List.Forall₂ (Step.subApi line).Rewrites references
      (describeResource path description references) := by
  refine List.forall₂_map_right_iff.2 (List.forall₂_same.2 fun reference _ => ?_)
  by_cases hpath : reference.path = path
  · rw [if_pos hpath]
    refine ⟨rfl, fun hsilent => absurd ⟨line, rfl, ?_⟩ (hsilent description)⟩
    rw [hpath]
    exact h
  · rw [if_neg hpath]
    exact ⟨rfl, fun _ => rfl⟩

/-- Adding an operation to its resource keeps the other declarations, and of its own declaration
all but entries and models. -/
theorem frozen_insert {resources : Dict ApiDeclaration} {operation : Operation}
    {added : ApiDeclaration}
    (h : ∀ declaration, resources[operation.resource]? = some declaration → added = declaration.add operation)
    (resource : String) (declaration : ApiDeclaration)
    (hd : resources[resource]? = some declaration) :
    ∃ declaration', (resources.insert operation.resource added)[resource]? = some declaration' ∧
      { declaration' with apis := declaration.apis, models := declaration.models } = declaration := by
  rw [Dict.getElem?_insert]
  by_cases hr : operation.resource = resource
  · subst hr
    rw [if_pos rfl]
    exact ⟨added, rfl, by rw [h declaration hd]; rfl⟩
  · rw [if_neg hr]
    exact ⟨declaration, hd, rfl⟩

theorem Performs.frame {catalog catalog' : Catalog} {step : Step}
    (h : catalog.Performs step catalog') : catalog.Frame step catalog' := by
  have hkept := step.rewrites_self catalog.listing.apis
  cases h with
  | @join operation declaration hd =>
    refine { Frame.refl catalog (.add operation) with
      declarations := fun resource hne => ?_, frozen := frozen_insert fun declaration' hd' => ?_ }
    · exact Dict.getElem?_insert_ne _ _ (hne operation rfl)
    · rw [hd] at hd'
      rw [Option.some.inj hd']
  | @found operation hd =>
    refine ⟨rfl, rfl, fun field _ => ?_, ⟨_, _, rfl, hkept, fun hin => ?_⟩, fun resource hne => ?_,
      frozen_insert fun declaration hd' => ?_⟩
    · cases field <;> rfl
    · obtain ⟨declaration, hd'⟩ := Dict.mem_iff_getElem?.1 (hin operation rfl)
      rw [hd] at hd'
      cases hd'
    · exact Dict.getElem?_insert_ne _ _ (hne operation rfl)
    · rw [hd] at hd'
      cases hd'
  | @set line value field hsets =>
    refine { Frame.refl catalog (.general line) with
      swaggerVersion := by simp, value := fun other hsilent => ?_, references := ?_ }
    · rw [ResourceListing.value_setValue, if_neg]
      rintro rfl
      exact hsilent value ⟨line, rfl, hsets⟩
    · exact ⟨_, [], by simp, hkept, fun _ => rfl⟩
  | @describe line path description hdescribes =>
    refine { Frame.refl catalog (.subApi line) with value := fun field _ => ?_, references := ?_ }
    · cases field <;> rfl
    · exact ⟨_, [], (List.append_nil _).symm, rewrites_describeResource hdescribes _, fun _ => rfl⟩
  | skipGeneral => exact Frame.refl _ _
  | skipSubApi => exact Frame.refl _ _

/-! ## What a step changes -/

section Performs

variable {catalog catalog' : Catalog} {step : Step}

theorem Performs.value_of_gives (h : catalog.Performs step catalog') {field : GeneralField}
    {value : String} (hgives : step.Gives field value) : catalog'.listing.value field = value := by
  obtain ⟨line, rfl, hsets⟩ := hgives
  cases h with
  | set hsets' =>
    obtain ⟨rfl, rfl⟩ := hsets.unique hsets'
    rw [ResourceListing.value_setValue, if_pos rfl]
  | skipGeneral hsilent => exact absurd hsets (hsilent field value)

/-- A resource that gets declared takes the version and the base path that the catalog has. -/
theorem Performs.eq_of_undeclared (h : catalog.Performs step catalog') {resource : String}
    {declaration : ApiDeclaration} (hnone : catalog.resources[resource]? = none)
    (hd : catalog'.resources[resource]? = some declaration) :
    ∃ operation, step = .add operation ∧ operation.resource = resource ∧
      declaration = (ApiDeclaration.ofResource catalog.listing.apiVersion catalog.basePath resource).add
        operation := by
  by_cases hadds : ∃ operation, step = .add operation ∧ operation.resource = resource
  · obtain ⟨operation, rfl, rfl⟩ := hadds
    cases h with
    | join hd' =>
      rw [hnone] at hd'
      cases hd'
    | found =>
      rw [Dict.getElem?_insert_self] at hd
      exact ⟨operation, rfl, rfl, (Option.some.inj hd).symm⟩
  · -- no other step declares the resource
    have hsame := h.frame.declarations resource fun operation hop heq => hadds ⟨operation, hop, heq⟩
    rw [hsame, hnone] at hd
    cases hd

/-- A reference is new, or it was there with the same path, and then the step describes it or
leaves it as it was. -/
theorem Performs.mem_references (h : catalog.Performs step catalog') {reference : ResourceRef}
    (hmem : reference ∈ catalog'.listing.apis) :
    (∃ operation, step = .add operation ∧ catalog.resources[operation.resource]? = none ∧
      reference = ⟨"/" ++ operation.resource, operation.summary⟩) ∨
    ∃ old ∈ catalog.listing.apis, reference.path = old.path ∧
      (step.Tells old.path reference.description ∨
        (∀ description, ¬ step.Tells old.path description) ∧ reference = old) := by
  have hsilent : ∀ {path : String}, (∀ line, step ≠ .subApi line) →
      ∀ description, ¬ step.Tells path description :=
    fun hne description ⟨line, hstep, _⟩ => hne line hstep
  cases h with
  | join => exact .inr ⟨reference, hmem, rfl, .inr ⟨hsilent (by simp), rfl⟩⟩
  | @found operation hd =>
    rcases List.mem_append.1 hmem with hmem | hmem
    · exact .inr ⟨reference, hmem, rfl, .inr ⟨hsilent (by simp), rfl⟩⟩
    · exact .inl ⟨operation, rfl, hd, List.mem_singleton.1 hmem⟩
  | set =>
    rw [ResourceListing.apis_setValue] at hmem
    exact .inr ⟨reference, hmem, rfl, .inr ⟨hsilent (by simp), rfl⟩⟩
  | @describe line path description hdescribes =>
    obtain ⟨old, hold, rfl⟩ := List.mem_map.1 hmem
    by_cases hpath : old.path = path
    · refine .inr ⟨old, hold, by rw [if_pos hpath], .inl ⟨line, rfl, ?_⟩⟩
      rw [if_pos hpath, hpath]
      exact hdescribes
    · rw [if_neg hpath]
      -- the line describes another resource
      refine .inr ⟨old, hold, rfl, .inr ⟨?_, rfl⟩⟩
      rintro other ⟨line', hline, hother⟩
      cases hline
      exact hpath (hother.unique hdescribes).1
  | skipGeneral => exact .inr ⟨reference, hmem, rfl, .inr ⟨hsilent (by simp), rfl⟩⟩
  | @skipSubApi line hskip =>
    refine .inr ⟨reference, hmem, rfl, .inr ⟨?_, rfl⟩⟩
    rintro description ⟨line', hline, hdescribes⟩
    cases hline
    exact hskip _ _ hdescribes

theorem Performs.of_subApi {line : String} (h : catalog.Performs (.subApi line) catalog') :
    catalog'.resources = catalog.resources ∧
      catalog'.listing.apis.map (·.path) = catalog.listing.apis.map (·.path) := by
  cases h with
  | describe => exact ⟨rfl, map_path_describeResource _ _ _⟩
  | skipSubApi => exact ⟨rfl, rfl⟩

theorem Performs.of_general {line : String} (h : catalog.Performs (.general line) catalog') :
    catalog'.resources = catalog.resources ∧ catalog'.listing.apis = catalog.listing.apis := by
  cases h with
  | set => exact ⟨rfl, ResourceListing.apis_setValue _ _ _⟩
  | skipGeneral => exact ⟨rfl, rfl⟩

end Performs

/-! ## Runs -/

section Runs

variable (basePath : String) (steps : List Step)

theorem basePath_after : ((ofBasePath basePath).after steps).basePath = basePath := by
  induction steps using List.reverseRecOn with
  | nil => rfl
  | append_singleton steps step ih =>
    rw [after_concat]
    exact (performs _ step).frame.basePath.trans ih

/-- Each field has the value that the last line about it gives. -/
theorem value_after (field : GeneralField) :
    Settles (Step.Gives field) steps "" (((ofBasePath basePath).after steps).listing.value field) := by
  induction steps using List.reverseRecOn with
  | nil =>
    have hempty : (ofBasePath basePath).listing.value field = "" := by cases field <;> rfl
    rw [after_nil, hempty]
    exact .nil
  | append_singleton steps step ih =>
    have hstep := performs ((ofBasePath basePath).after steps) step
    rw [after_concat]
    by_cases hgives : ∃ value, step.Gives field value
    · obtain ⟨value, hgives⟩ := hgives
      rw [hstep.value_of_gives hgives]
      exact .concat_tells hgives
    · have hsilent : ∀ value, ¬ step.Gives field value := fun value h => hgives ⟨value, h⟩
      rw [hstep.frame.value field hsilent]
      exact ih.concat_silent hsilent

/-- Each declaration has the version and the base path of its first appearance. -/
theorem declared_after {resource : String} {declaration : ApiDeclaration}
    (h : ((ofBasePath basePath).after steps).resources[resource]? = some declaration) :
    ∃ before operation behind, Appears steps resource before operation behind ∧
      declaration.apiVersion = ((ofBasePath basePath).after before).listing.apiVersion ∧
      declaration.basePath = basePath := by
  induction steps using List.reverseRecOn generalizing declaration with
  | nil => simp [ofBasePath] at h
  | append_singleton steps step ih =>
    have hstep := performs ((ofBasePath basePath).after steps) step
    rw [after_concat] at h
    cases hd : ((ofBasePath basePath).after steps).resources[resource]? with
    | some old =>
      -- it was declared before the step, and has kept all but entries and models
      obtain ⟨before, operation, behind, happears, hversion, hbase⟩ := ih hd
      obtain ⟨declaration', hd', hfrozen⟩ := hstep.frame.frozen resource old hd
      obtain rfl : declaration' = declaration := Option.some.inj (hd'.symm.trans h)
      rw [← hfrozen] at hversion hbase
      exact ⟨before, operation, behind ++ [step], happears.concat step, hversion, hbase⟩
    | none =>
      obtain ⟨operation, rfl, rfl, rfl⟩ := hstep.eq_of_undeclared hd h
      exact ⟨steps, operation, [], appears_of_undeclared hd, rfl, basePath_after basePath steps⟩

/-- Each reference has the last description that was given after its first appearance. -/
theorem referred_after {reference : ResourceRef}
    (h : reference ∈ ((ofBasePath basePath).after steps).listing.apis) :
    ∃ resource before operation behind, Appears steps resource before operation behind ∧
      reference.path = "/" ++ resource ∧
      Settles (Step.Tells reference.path) behind operation.summary reference.description := by
  induction steps using List.reverseRecOn generalizing reference with
  | nil => simp [ofBasePath] at h
  | append_singleton steps step ih =>
    have hstep := performs ((ofBasePath basePath).after steps) step
    rw [after_concat] at h
    rcases hstep.mem_references h with ⟨operation, rfl, hd, rfl⟩ | ⟨old, hold, hpath, hchange⟩
    · exact ⟨operation.resource, steps, operation, [], appears_of_undeclared hd, rfl, .nil⟩
    · obtain ⟨resource, before, operation, behind, happears, hresource, hsettles⟩ := ih hold
      refine ⟨resource, before, operation, behind ++ [step], happears.concat step,
        hpath.trans hresource, ?_⟩
      -- the step describes the resource, or it says nothing about it
      rcases hchange with htells | ⟨hsilent, rfl⟩
      · rw [hpath]
        exact .concat_tells htells
      · exact hsettles.concat_silent hsilent

end Runs

/-- **The history of a catalog's metadata**, for every order of the steps. A declaration has the
version that the listing had when the resource first appeared, and the base path of the catalog.
A reference has the description of the last line that describes its path and came after the
resource first appeared, or else the summary of its first operation. A field of the general
information has the value of the last line with its directive, or else it is empty. And no step
changes anything else: lines that describe resources change no declaration and no path, and
lines of general information no declaration and no reference. -/
theorem metadata_history (basePath : String) (steps : List Step) :
    let catalog := (ofBasePath basePath).after steps
    (∀ (resource : String) (declaration : ApiDeclaration),
      catalog.resources[resource]? = some declaration →
      ∃ before operation behind, Appears steps resource before operation behind ∧
        declaration.apiVersion = ((ofBasePath basePath).after before).listing.apiVersion ∧
        declaration.basePath = basePath) ∧
    (∀ reference ∈ catalog.listing.apis,
      ∃ resource before operation behind, Appears steps resource before operation behind ∧
        reference.path = "/" ++ resource ∧
        Settles (Step.Tells reference.path) behind operation.summary reference.description) ∧
    (∀ field, Settles (Step.Gives field) steps "" (catalog.listing.value field)) ∧
    catalog.basePath = basePath ∧
    (∀ step, catalog.Frame step (catalog.perform step)) ∧
    (∀ line, (catalog.perform (.subApi line)).resources = catalog.resources ∧
      (catalog.perform (.subApi line)).listing.apis.map (·.path) =
        catalog.listing.apis.map (·.path)) ∧
    ∀ line, (catalog.perform (.general line)).resources = catalog.resources ∧
      (catalog.perform (.general line)).listing.apis = catalog.listing.apis := by
  intro catalog
  refine ⟨fun resource declaration => declared_after basePath steps,
    fun reference => referred_after basePath steps, value_after basePath steps,
    basePath_after basePath steps, fun step => (performs catalog step).frame,
    fun line => (performs catalog (.subApi line)).of_subApi,
    fun line => (performs catalog (.general line)).of_general⟩

/-- The history of a shop: its version changes after the orders appeared, and these are described
too early, and then in time by a line with two opening brackets. -/
def opening : List Step :=
  [.general "@apiVERSION 1",
   .subApi "@SubApi Too early [/orders]",
   .add { path := "/orders", summary := "Orders" },
   .general "  @APIVersion  2 ",
   .subApi "@SubApi [x] Orders of the shop [/orders] and more",
   .add { path := "/orders/late", summary := "Late orders" },
   .add { path := "/carts", summary := "Carts" }]

theorem metadata_history_opening :
    let catalog := (ofBasePath "/").after opening
    (∃ declaration, catalog.resources["orders"]? = some declaration ∧ declaration.apiVersion = "1" ∧
      ∃ before operation behind, Appears opening "orders" before operation behind ∧
        declaration.apiVersion = ((ofBasePath "/").after before).listing.apiVersion ∧
        declaration.basePath = "/") ∧
    (⟨"/orders", "x] Orders of the shop"⟩ ∈ catalog.listing.apis ∧
      ∃ resource before operation behind, Appears opening resource before operation behind ∧
        "/orders" = "/" ++ resource ∧
        Settles (Step.Tells "/orders") behind operation.summary "x] Orders of the shop") ∧
    catalog.listing.apiVersion = "2" ∧
    Settles (Step.Gives .apiVersion) opening "" catalog.listing.apiVersion := by
  intro catalog
  obtain ⟨hdeclarations, hreferences, hfields, -⟩ := metadata_history "/" opening
  have hversion : (catalog.resources["orders"]?).map (·.apiVersion) = some "1" := by decide +kernel
  obtain ⟨declaration, hd, hone⟩ := Option.map_eq_some_iff.1 hversion
  have hmem : ⟨"/orders", "x] Orders of the shop"⟩ ∈ catalog.listing.apis := by decide +kernel
  exact ⟨⟨declaration, hd, hone, hdeclarations "orders" declaration hd⟩,
    ⟨hmem, hreferences _ hmem⟩, by decide +kernel, hfields .apiVersion⟩

end Catalog
end ApiDocs.Swagger
