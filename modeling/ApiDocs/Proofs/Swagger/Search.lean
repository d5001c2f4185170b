/-
  ApiDocs.Proofs.Swagger.Search

  Describing a type is a search, and it is complete if ids are unique. A walk passes over a struct
  that has a model, and over any other declaration, or an embedded struct, that is being
  unwrapped. With unique ids the walk has come before to what it passes over, so that its tour
  comes to everything in reach (`Tour.comes`): what is collected are the models of all structs in
  reach, and the only failures are names in reach that lead nowhere.
-/

import ApiDocs.Proofs.Package.Resolution
import ApiDocs.Proofs.Swagger.Entry
import ApiDocs.Proofs.Swagger.Tour

namespace ApiDocs.Swagger.Builder

open Source (TypeExpr Field)
open Package (Resolved)

/-! ## What is followed -/

/-- What looking references up in the session gives. -/
def lookup (w : Workspace) (s : Session) : Lookup := fun reference package =>
  result? (Session.findModel w reference package s)

theorem lookup_eq_find (w : Workspace) (s : Session) : lookup w s = s.find w := by
  funext reference package
  rw [lookup]
  have h := Session.findModel_spec w reference package s
  cases hx : Session.findModel w reference package s with
  | ok r t => exact (h.of_ok hx).2.1.symm
  | error e t => exact (h.of_error hx).2.symm

/-- Describing the written type comes to the declaration, to describe it or to flatten it. -/
def Encounters (find : Lookup) (package written : String) (r : Resolved) : Prop :=
  Reaches find package written (.declaration r) ∨ Reaches find package written (.embedded r)

/-! ## Unique ids -/

/-- Among the declarations that a walk from `start` comes to, ids are unique. -/
def UniqueIds (find : Lookup) (start : Resolved) : Prop :=
  ∀ r r', (Leads find (.declaration start) (.declaration r) ∨
      Leads find (.declaration start) (.embedded r)) →
    (Leads find (.declaration start) (.declaration r') ∨
      Leads find (.declaration start) (.embedded r')) → idOf r = idOf r' → r = r'

section UniqueIds

variable {find : Lookup} {start : Resolved} {place part : Place} {id : String}

theorem Place.guard?_eq_some (h : place.guard? = some id) :
    ∃ r, idOf r = id ∧
      ((place = .declaration r ∧ ∀ fields, r.decl.type ≠ .struct fields) ∨
        (place = .embedded r ∧ ∃ fields, r.decl.type = .struct fields)) := by
  cases place with
  | declaration r =>
    unfold Place.guard? at h
    dsimp only at h
    split at h
    · cases h
    · rename_i hr
      exact ⟨r, Option.some.inj h, .inl ⟨rfl, hr⟩⟩
  | embedded r =>
    unfold Place.guard? at h
    dsimp only at h
    split at h
    · rename_i fields hr
      exact ⟨r, Option.some.inj h, .inr ⟨rfl, fields, hr⟩⟩
    · cases h
  | expression | line | lines => cases h

/-- What an id guards is one place. -/
theorem UniqueIds.place_eq (hunique : UniqueIds find start)
    (hplace : Leads find (.declaration start) place) (hguard : place.guard? = some id)
    {place' : Place} (hplace' : Leads find (.declaration start) place')
    (hguard' : place'.guard? = some id) : place' = place := by
  obtain ⟨r, hid, hr⟩ := Place.guard?_eq_some hguard
  obtain ⟨r', hid', hr'⟩ := Place.guard?_eq_some hguard'
  have hsame : idOf r' = idOf r := hid'.trans hid.symm
  rcases hr with ⟨rfl, hr⟩ | ⟨rfl, fields, hr⟩ <;> rcases hr' with ⟨rfl, hr'⟩ | ⟨rfl, fields', hr'⟩
  · rw [hunique r' r (.inl hplace') (.inl hplace) hsame]
  · obtain rfl := hunique r' r (.inr hplace') (.inl hplace) hsame
    exact absurd hr' (hr fields')
  · obtain rfl := hunique r' r (.inl hplace') (.inr hplace) hsame
    exact absurd hr (hr' fields)
  · rw [hunique r' r (.inr hplace') (.inr hplace) hsame]

/-- What is unwrapped has one part. -/
theorem Inside.eq_of_guard {part' : Place} (h : Inside find place part)
    (h' : Inside find place part') (hguard : place.guard? = some id) : part' = part := by
  obtain ⟨r, -, ⟨rfl, hr⟩ | ⟨rfl, fields, hr⟩⟩ := Place.guard?_eq_some hguard
  · cases h
    cases h'
    rfl
  · cases h with
    | flattened hr₁ =>
      cases h' with
      | flattened hr₂ => rw [TypeExpr.struct.inj (hr₁.symm.trans hr₂)]

end UniqueIds

/-! ## What a tour comes to -/

section Tour

variable {find : Lookup} {start : Resolved} {models : Dict Model} {entered : List Entry}

/-- Where an id is being unwrapped, the walk has come to what the id guards. -/
theorem Comes.unwrapped {stop : Stop} (h : Comes find entered ⟨[], .declaration start⟩ stop)
    {id : String} (hid : id ∈ stop.unwrapping) :
    ∃ unwrapping place part, Leads find (.declaration start) place ∧ place.guard? = some id ∧
      Inside find place part ∧
      Comes find entered ⟨[], .declaration start⟩ ⟨id :: unwrapping, part⟩ := by
  induction h with
  | refl => cases hid
  | @tail stop next hcomes hstep ih =>
    cases hstep with
    | looks hlooks =>
      cases hlooks with
      | inside => exact ih hid
      | @unwrap unwrapping place part other hpart hguard hother =>
        rcases List.mem_cons.1 hid with rfl | hold
        · exact ⟨unwrapping, place, part, (Comes.visits hcomes).reached, hguard, hpart,
            hcomes.tail (.looks (.unwrap hpart hguard hother))⟩
        · exact ih hold
    | lines => exact ih hid

/-- If ids are unique, a tour comes to everything in reach: what a walk passes over, since it is
being unwrapped or has a model, the walk has come to before. -/
theorem Tour.comes (h : Tour find start models entered) (hunique : UniqueIds find start)
    {place : Place} (hplace : Leads find (.declaration start) place) :
    ∃ unwrapping, Comes find entered ⟨[], .declaration start⟩ ⟨unwrapping, place⟩ := by
  induction hplace with
  | refl => exact ⟨[], .refl⟩
  | @tail place next hleads hgoes ih =>
    obtain ⟨unwrapping, hcomes⟩ := ih
    cases hgoes with
    | @lines r fields hr =>
      obtain ⟨entry, hentry, hid⟩ := (h.mem_iff _).1 (h.settled _ hcomes ⟨fields, hr⟩)
      have hreached := h.reached entry hentry
      obtain rfl : entry.struct = r :=
        hunique _ _ (.inl hreached.visits.reached) (.inl hleads) hid
      exact ⟨_, hreached.tail (.lines entry hentry hr)⟩
    | inside hpart =>
      cases hguard : place.guard? with
      | none => exact ⟨_, hcomes.tail (.looks (.inside hpart hguard))⟩
      | some id =>
        by_cases hid : id ∈ unwrapping
        · obtain ⟨_, place', part', hplace', hguard', hpart', hcomes'⟩ := hcomes.unwrapped hid
          obtain rfl := hunique.place_eq hleads hguard hplace' hguard'
          exact ⟨_, hpart.eq_of_guard hpart' hguard ▸ hcomes'⟩
        · exact ⟨_, hcomes.tail (.looks (.unwrap hpart hguard hid))⟩

end Tour

/-! ## Whole types -/

/-- Describing a type settles whatever it reaches, or fails for a reference that it follows. -/
theorem run_searches (w : Workspace) (package written : String) (s : Session)
    (hunique : ∀ start, s.find w (elementName written.toList) package = some start →
      plainType? (elementName written.toList) = none → UniqueIds (s.find w) start) :
    Ensures (run w package written) s
      (fun described _ =>
        (plainType? (elementName written.toList) ≠ none → described.2 = ∅) ∧
        (plainType? (elementName written.toList) = none →
          ∃ start, s.find w (elementName written.toList) package = some start) ∧
        ∀ place, Reaches (s.find w) package written place → place.Settled (s.find w) described.2)
      (fun e _ => Stranded (s.find w) package written e) := by
  refine (run_tours w package written s).mono (fun described _ h => ?_) (fun _ _ h => h)
  rcases h with ⟨hplain, hempty⟩ | ⟨start, entered, hplain, hstart, htour⟩
  · refine ⟨fun _ => hempty, fun h => absurd h hplain, ?_⟩
    rintro place ⟨_, h, -⟩
    exact absurd h hplain
  · refine ⟨fun h => absurd hplain h, fun _ => ⟨start, hstart⟩, ?_⟩
    rintro place ⟨start', -, hstart', hplace⟩
    obtain rfl := Option.some.inj (hstart.symm.trans hstart')
    obtain ⟨unwrapping, hcomes⟩ := htour.comes (hunique start hstart hplain) hplace
    exact htour.settled _ hcomes

/-- **Describing a type collects exactly the structs in reach, and fails exactly on a reference
that is not resolved.** Let the declarations that are encountered have ids of their own. Then the
type is described if and only if every reference that is followed leads to a declaration. If it is,
the models are those of the structs that are reached; if not, the error names a reference that is
followed and leads nowhere, with its package. -/
theorem run_collects_reachable (roots : Package.SearchRoots) (home : String)
    (requests : List (Workspace × Request)) (w : Workspace) (package written : String)
    (hdistinct : ∀ r r',
      Encounters (lookup w (({ roots, home } : Session).after requests)) package written r →
      Encounters (lookup w (({ roots, home } : Session).after requests)) package written r' →
      idOf r = idOf r' → r.package = r'.package ∧ r.decl.name = r'.decl.name) :
    let s := ({ roots, home } : Session).after requests
    (isOk (run w package written s) = true ↔
      ∀ reference context, Follows (lookup w s) package written reference context →
        isOk (Session.findModel w reference context s) = true) ∧
    (∀ type models t, run w package written s = .ok (type, models) t → ∀ id : String, id ∈ models ↔
      ∃ r fields, Reaches (lookup w s) package written (.declaration r) ∧
        r.decl.type = .struct fields ∧ idOf r = id) ∧
    (∀ e t, run w package written s = .error e t → ∃ reference context fault,
      Follows (lookup w s) package written reference context ∧
      isOk (Session.findModel w reference context s) = false ∧
      e = .modelNotFound reference context fault) := by
  intro s
  have hisOk : ∀ reference context, isOk (Session.findModel w reference context s) =
      (s.find w reference context).isSome := by
    intro reference context
    rw [← lookup_eq_find, lookup]
    cases Session.findModel w reference context s <;> rfl
  rw [lookup_eq_find] at hdistinct ⊢
  have hunique : ∀ start, s.find w (elementName written.toList) package = some start →
      plainType? (elementName written.toList) = none → UniqueIds (s.find w) start := by
    intro start hstart hplain r r' hr hr' hid
    have hmet : ∀ {r}, Leads (s.find w) (.declaration start) (.declaration r) ∨
        Leads (s.find w) (.declaration start) (.embedded r) →
        Encounters (s.find w) package written r ∧ ∃ name, s.declared w name r.package = some r := by
      rintro r (h | h)
      · exact ⟨.inl ⟨start, hplain, hstart, h⟩, h.declared hstart⟩
      · exact ⟨.inr ⟨start, hplain, hstart, h⟩, h.declared hstart⟩
    obtain ⟨hpackage, hname⟩ := hdistinct r r' (hmet hr).1 (hmet hr').1 hid
    exact (Session.namedTables_after roots home requests).eq_of_found (hmet hr).2 (hmet hr').2
      hpackage hname
  have hrun := run_searches w package written s hunique
  have hfails : ∀ e t, run w package written s = .error e t → ∃ reference context fault,
      Follows (s.find w) package written reference context ∧
      isOk (Session.findModel w reference context s) = false ∧
      e = .modelNotFound reference context fault := by
    intro e t he
    obtain ⟨reference, context, fault, hfollows, hnone, rfl⟩ := hrun.of_error he
    exact ⟨reference, context, fault, hfollows, by rw [hisOk, hnone]; rfl, rfl⟩
  refine ⟨⟨fun hok reference context hfollows => ?_, fun hall => ?_⟩,
    fun type models t hok id => ⟨fun hid => ?_, ?_⟩, hfails⟩
  · obtain ⟨described, hok⟩ := eq_ok_of_isOk hok
    obtain ⟨-, hname, hsettled⟩ := hrun.of_ok hok
    rw [hisOk, Option.isSome_iff_exists]
    rcases hfollows with ⟨hplain, rfl, rfl⟩ | ⟨place, hplace, hneeds⟩
    · exact hname hplain
    · exact (hsettled place hplace).resolved hneeds
  · cases hx : run w package written s with
    | ok => rfl
    | error e t =>
      obtain ⟨reference, context, fault, hfollows, hfalse, -⟩ := hfails e t hx
      rw [hall reference context hfollows] at hfalse
      cases hfalse
  · obtain ⟨model, hmodel⟩ := Dict.mem_iff_getElem?.1 hid
    obtain ⟨start, hstart, hmodelId, unwrapping, r, hvisits, hentered⟩ :=
      (run_entered w package written s).of_ok hok id model hmodel
    have hidOf : idOf r = id := hentered.id_eq.symm.trans hmodelId
    obtain ⟨fields, properties, hr, -, -⟩ := hentered
    refine ⟨r, fields, ⟨start, ?_, hstart, hvisits.reached⟩, hr, hidOf⟩
    by_contra hplain
    have hempty : models = ∅ := (hrun.of_ok hok).1 hplain
    rw [hempty] at hid
    simp at hid
  · rintro ⟨r, fields, hplace, hr, rfl⟩
    exact (hrun.of_ok hok).2.2 _ hplace ⟨fields, hr⟩

/-- Of the tangle's declarations, only `B` becomes a model for `A`: `C` is embedded everywhere, and
`D` is not followed, since the field is not exported. From `E` it is. -/
theorem run_collects_reachable_tangle :
    let s := ({ roots := ⟨["src"], none⟩ } : Session).after [(tangle, .buildTypes "p")]
    (∀ reference context, Follows (lookup tangle s) "p" "A" reference context →
      isOk (Session.findModel tangle reference context s) = true) ∧
    (∀ id, id = "p.B" ↔ ∃ r fields, Reaches (lookup tangle s) "p" "A" (.declaration r) ∧
      r.decl.type = .struct fields ∧ idOf r = id) ∧
    Follows (lookup tangle s) "p" "E" "D" "p" := by
  intro s
  have hplain : ∀ decl ∈ declarations s, ∀ mention ∈ mentioned decl,
      (Text.pieces '.' (reference mention.1 mention.2)).dropLast = [] := by
    decide +kernel
  -- no name is qualified, so that all walks stay in the package, where names make ids
  have hdistinct : ∀ written, (Text.pieces '.' (elementName written.toList)).dropLast = [] → ∀ r r',
      Encounters (lookup tangle s) "p" written r → Encounters (lookup tangle s) "p" written r' →
      idOf r = idOf r' → r.package = r'.package ∧ r.decl.name = r'.decl.name := by
    intro written hwritten r r' hr hr' hid
    rw [lookup_eq_find] at hr hr'
    have hpackage : ∀ {r}, Encounters (s.find tangle) "p" written r → r.package = "p" := by
      rintro r (⟨start, -, hstart, h⟩ | ⟨start, -, hstart, h⟩)
      · exact h.package_eq hplain hwritten hstart
      · exact h.package_eq hplain hwritten hstart
    rw [idOf, idOf, hpackage hr, hpackage hr'] at hid
    exact ⟨(hpackage hr).trans (hpackage hr').symm, modelId_injective "p" hid⟩
  obtain ⟨hok, hmodels, -⟩ := run_collects_reachable ⟨["src"], none⟩ "." [(tangle, .buildTypes "p")]
    tangle "p" "A" (hdistinct "A" (by decide +kernel))
  obtain ⟨-, -, herror⟩ := run_collects_reachable ⟨["src"], none⟩ "." [(tangle, .buildTypes "p")]
    tangle "p" "E" (hdistinct "E" (by decide +kernel))
  have hkeys : (result? (run tangle "p" "A" s)).map (fun described => described.2.keys) =
      some ["p.B"] := by
    decide +kernel
  obtain ⟨⟨type, models⟩, hresult, hkeys⟩ := Option.map_eq_some_iff.1 hkeys
  have hrun := eq_ok_of_result? hresult
  refine ⟨hok.1 (by rw [hrun]; rfl), fun id => ?_, ?_⟩
  · rw [← hmodels type models _ hrun, ← Std.ExtTreeMap.mem_keys, hkeys, List.mem_singleton]
  · have hfault : answer (run tangle "p" "E" s) = .error (.modelNotFound "D" "p" .undeclared) := by
      decide +kernel
    cases hx : run tangle "p" "E" s with
    | ok described t =>
      rw [hx] at hfault
      cases hfault
    | error e t =>
      rw [hx] at hfault
      obtain ⟨reference, context, fault, hfollows, -, rfl⟩ := herror e t hx
      cases hfault
      exact hfollows

end ApiDocs.Swagger.Builder
