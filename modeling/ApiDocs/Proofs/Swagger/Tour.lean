/-
  ApiDocs.Proofs.Swagger.Tour

  How describing a type goes on from place to place, and which structs it enters. `Looks` says
  where a walk goes on inside a declaration; the lines of a struct are read only where the struct
  is entered (`Steps`). The structs that are entered have ids of their own, each is come to by
  steps through those entered, and its model is what its lines mean there; whatever is come to is
  settled: names lead to declarations, and structs have models, be it their own or that of another
  struct with the same id (`Tour`). If describing fails, it has come to a name that leads nowhere
  (`Unresolved`). All this holds whether or not ids are unique.
-/

import ApiDocs.Proofs.Swagger.Depth

namespace ApiDocs.Swagger.Builder

open Source (TypeExpr Field)
open Package (Resolved)

/-! ## What places need -/

/-- The place can be passed only if the reference is resolved in the package. -/
inductive Needs : Place → (reference package : String) → Prop where
  | named {package : String} {qualifier : Option String} {name : String}
      (hbuiltin : builtin? qualifier name = none) :
      Needs (.expression package (.named qualifier name)) (reference qualifier name) package
  | embeds {package name : String} {field : Field} (hfield : Embeds field name) :
      Needs (.line package field) name package

/-- What the place needs is there: the declaration of a name, or the model of a struct. -/
def Place.Settled (find : Lookup) (models : Dict Model) : Place → Prop
  | .declaration r => (∃ fields, r.decl.type = .struct fields) → idOf r ∈ models
  | .expression package (.named qualifier name) =>
    builtin? qualifier name = none → ∃ r, find (reference qualifier name) package = some r
  | .line package field => ∀ name, Embeds field name → ∃ r, find name package = some r
  | _ => True

/-- The error is that a reference is not resolved which a place needs that is reached. -/
def Unresolved (find : Lookup) (start : Resolved) (e : Error) : Prop :=
  ∃ place reference package fault, Leads find (.declaration start) place ∧
    Needs place reference package ∧ find reference package = none ∧
    e = .modelNotFound reference package fault

theorem Place.Settled.resolved {find : Lookup} {models : Dict Model} {place : Place}
    (h : place.Settled find models) {reference package : String}
    (hneeds : Needs place reference package) : ∃ r, find reference package = some r := by
  cases hneeds with
  | named hbuiltin => exact h hbuiltin
  | embeds hfield => exact h _ hfield

theorem Place.Settled.mono {find : Lookup} {models models' : Dict Model} {place : Place}
    (h : place.Settled find models) (hmem : ∀ {id : String}, id ∈ models → id ∈ models') :
    place.Settled find models' := by
  unfold Place.Settled at h ⊢
  split
  · exact fun hr => hmem (h hr)
  · exact h
  · exact h
  · trivial

/-- Looking a reference up changes no models, and fails if it is not resolved. -/
theorem ask_findModel_resolves {w : Workspace} {find : Lookup} {b : Builder}
    (reference package : String) (hb : b.session.find w = find) :
    Ensures (ask (Session.findModel w reference package)) b
      (fun r b' => find reference package = some r ∧ Continues w b b' ∧ b'.models = b.models)
      (fun e _ => find reference package = none ∧ ∃ fault, e = .modelNotFound reference package fault) := by
  apply ensures_ask
  refine ((Session.findModel_spec w reference package b.session).and
    (Session.findModel_fault w reference package b.session)).mono (fun r t h => ?_) (fun e t h => ?_)
  · exact ⟨hb ▸ h.1.2.1, ⟨h.1.1.find_eq, id⟩, rfl⟩
  · obtain ⟨⟨-, hnone⟩, fault, rfl, -⟩ := h
    exact ⟨hb ▸ hnone, fault, rfl⟩

/-! ## Steps -/

/-- Where a walk is: a place, and the ids that are being unwrapped there. -/
structure Stop where
  unwrapping : List String
  place : Place

/-- A struct that has got its model, and the ids that were being unwrapped when its lines were
read. -/
structure Entry where
  unwrapping : List String
  struct : Resolved

/-- Where the struct was entered. -/
def Entry.stop (entry : Entry) : Stop := ⟨entry.unwrapping, .declaration entry.struct⟩

/-- A walk goes on inside what it is at. It does not unwrap what is being unwrapped. -/
inductive Looks (find : Lookup) : Stop → Stop → Prop where
  | inside {unwrapping : List String} {place part : Place} (hpart : Inside find place part)
      (hguard : place.guard? = none) : Looks find ⟨unwrapping, place⟩ ⟨unwrapping, part⟩
  | unwrap {unwrapping : List String} {place part : Place} {id : String}
      (hpart : Inside find place part) (hguard : place.guard? = some id) (hid : id ∉ unwrapping) :
      Looks find ⟨unwrapping, place⟩ ⟨id :: unwrapping, part⟩

/-- A walk that enters these structs goes on from the one stop to the other. -/
inductive Steps (find : Lookup) (entered : List Entry) : Stop → Stop → Prop where
  | looks {stop next : Stop} (h : Looks find stop next) : Steps find entered stop next
  | lines (entry : Entry) {fields : List Field} (hentry : entry ∈ entered)
      (hr : entry.struct.decl.type = .struct fields) :
      Steps find entered entry.stop ⟨entry.unwrapping, .lines entry.struct.package fields⟩

/-- A walk that enters these structs comes from the one stop to the other. -/
def Comes (find : Lookup) (entered : List Entry) : Stop → Stop → Prop :=
  Relation.ReflTransGen (Steps find entered)

/-- Whatever a walk comes to from the stop without entering a struct is settled. -/
def Seen (find : Lookup) (models : Dict Model) (stop : Stop) : Prop :=
  ∀ stop', Relation.ReflTransGen (Looks find) stop stop' → stop'.place.Settled find models

section Steps

variable {find : Lookup} {entered entered' : List Entry} {stop stop' next : Stop}
  {models models' : Dict Model}

theorem Comes.mono (h : Comes find entered stop stop') (hsub : entered ⊆ entered') :
    Comes find entered' stop stop' := by
  refine Relation.ReflTransGen.mono (fun stop next hstep => ?_) _ _ h
  cases hstep with
  | looks hlooks => exact .looks hlooks
  | lines entry hentry hr => exact .lines entry (hsub hentry) hr

/-- Where a walk comes, it can be. -/
theorem Comes.visits {start : Resolved} (h : Comes find entered ⟨[], .declaration start⟩ stop) :
    Visits find start stop.unwrapping stop.place := by
  induction h with
  | refl => exact .start
  | tail _ hstep ih =>
    cases hstep with
    | looks hlooks =>
      cases hlooks with
      | inside hpart hguard => exact ih.inside hpart hguard
      | unwrap hpart hguard hid => exact ih.unwrap hpart hguard hid
    | lines _ _ hr => exact ih.lines hr

/-- From a type expression, a walk comes to the declaration that the name in it refers to. -/
theorem comes_of_leafName {unwrapping : List String} {package name : String}
    {qualifier : Option String} {type : TypeExpr} {r : Resolved}
    (hleaf : leafName? type = some (qualifier, name)) (hbuiltin : builtin? qualifier name = none)
    (hfind : find (reference qualifier name) package = some r) :
    Comes find entered ⟨unwrapping, .expression package type⟩ ⟨unwrapping, .declaration r⟩ := by
  fun_induction leafName? type with
  | case1 target ih => exact (ih hleaf).head (.looks (.inside .pointer rfl))
  | case2 element ih => exact (ih hleaf).head (.looks (.inside .slice rfl))
  | case3 element ih => exact (ih hleaf).head (.looks (.inside .array rfl))
  | case4 qualifier' name' =>
    cases hleaf
    exact .single (.looks (.inside (.named hbuiltin hfind) rfl))
  | case5 => cases hleaf

/-- A walk that enters a struct comes to the declarations that its lines refer to. -/
theorem comes_of_documented {entry : Entry} {fields : List Field} {field : Field} {name : String}
    {qualifier : Option String} {r : Resolved}
    (hentry : entry ∈ entered) (hfields : entry.struct.decl.type = .struct fields)
    (hfield : field ∈ fields) (hdocumented : Documented field)
    (hleaf : leafName? field.type = some (qualifier, name))
    (hbuiltin : builtin? qualifier name = none)
    (hfind : find (reference qualifier name) entry.struct.package = some r) :
    Comes find entered entry.stop ⟨entry.unwrapping, .declaration r⟩ :=
  .head (.lines entry hentry hfields) <| .head (.looks (.inside (.line hfield) rfl)) <|
    .head (.looks (.inside (.documented hdocumented) rfl)) (comes_of_leafName hleaf hbuiltin hfind)

theorem Seen.here (h : Seen find models stop) : stop.place.Settled find models :=
  h stop .refl

theorem Seen.looks (h : Seen find models stop) (hlooks : Looks find stop next) :
    Seen find models next :=
  fun stop' hpath => h stop' (hpath.head hlooks)

theorem Seen.mono (h : Seen find models stop)
    (hmem : ∀ {id : String}, id ∈ models → id ∈ models') : Seen find models' stop :=
  fun stop' hpath => (h stop' hpath).mono hmem

theorem seen_of_next (hsettled : stop.place.Settled find models)
    (hnext : ∀ next, Looks find stop next → Seen find models next) : Seen find models stop := by
  intro stop' hpath
  rcases Relation.ReflTransGen.cases_head hpath with rfl | ⟨next, hlooks, hrest⟩
  · exact hsettled
  · exact hnext next hlooks stop' hrest

end Steps

/-! ## Tours -/

/-- The entry's struct has the model that its lines mean, and whatever they look at is settled. -/
def Entry.Read (find : Lookup) (models : Dict Model) (entry : Entry) : Prop :=
  ∃ fields model, entry.struct.decl.type = .struct fields ∧
    models[idOf entry.struct]? = some model ∧ HasModel find entry.unwrapping entry.struct model ∧
    Seen find models ⟨entry.unwrapping, .lines entry.struct.package fields⟩

/-- From one builder to the other, the walk has been at the stops and wherever it comes from
there, and has entered these structs, which had no models before. -/
structure Toured (w : Workspace) (find : Lookup) (b b' : Builder) (stops : List Stop)
    (entered : List Entry) : Prop where
  find_eq : b'.session.find w = b.session.find w
  kept : ∀ {id : String} {model : Model}, b.models[id]? = some model → b'.models[id]? = some model
  new : ∀ {id : String}, id ∈ b'.models → id ∈ b.models ∨ ∃ entry ∈ entered, idOf entry.struct = id
  fresh : ∀ entry ∈ entered, idOf entry.struct ∉ b.models
  distinct : (entered.map fun entry => idOf entry.struct).Nodup
  reached : ∀ entry ∈ entered, ∃ stop ∈ stops, Comes find entered stop entry.stop
  read : ∀ entry ∈ entered, entry.Read find b'.models
  seen : ∀ stop ∈ stops, Seen find b'.models stop

/-- How the models came about that describing a declaration gives: each is that of a struct which
was entered, and whatever the walk through those structs comes to is settled. -/
structure Tour (find : Lookup) (start : Resolved) (models : Dict Model) (entered : List Entry) :
    Prop where
  mem_iff : ∀ id : String, id ∈ models ↔ ∃ entry ∈ entered, idOf entry.struct = id
  distinct : (entered.map fun entry => idOf entry.struct).Nodup
  reached : ∀ entry ∈ entered, Comes find entered ⟨[], .declaration start⟩ entry.stop
  hasModel : ∀ entry ∈ entered, ∃ model, models[idOf entry.struct]? = some model ∧
    HasModel find entry.unwrapping entry.struct model
  settled : ∀ stop, Comes find entered ⟨[], .declaration start⟩ stop →
    stop.place.Settled find models

section Toured

variable {w : Workspace} {find : Lookup} {b b₁ b' : Builder} {stop : Stop} {stops : List Stop}
  {unwrapping : List String} {place part : Place} {entered : List Entry}

theorem Entry.Read.mono {entry : Entry} {models models' : Dict Model}
    (h : entry.Read find models)
    (hkept : ∀ {id : String} {model : Model}, models[id]? = some model → models'[id]? = some model) :
    entry.Read find models' := by
  obtain ⟨fields, model, hr, hmodel, hhas, hseen⟩ := h
  refine ⟨fields, model, hr, hkept hmodel, hhas, hseen.mono fun hid => ?_⟩
  obtain ⟨other, hother⟩ := Dict.mem_iff_getElem?.1 hid
  exact Dict.mem_iff_getElem?.2 ⟨other, hkept hother⟩

/-- The builder stays as it is where the walk ends. -/
theorem toured_of_end (hsettled : stop.place.Settled find b.models)
    (hend : ∀ next, ¬ Looks find stop next) : Toured w find b b [stop] [] where
  find_eq := rfl
  kept := id
  new := .inl
  fresh _ hentry := absurd hentry List.not_mem_nil
  distinct := List.nodup_nil
  reached _ hentry := absurd hentry List.not_mem_nil
  read _ hentry := absurd hentry List.not_mem_nil
  seen other hother := by
    rw [List.mem_singleton.1 hother]
    exact seen_of_next hsettled fun next hlooks => absurd hlooks (hend next)

namespace Toured

theorem mem (h : Toured w find b b' stops entered) {id : String} (hid : id ∈ b.models) :
    id ∈ b'.models := by
  obtain ⟨model, hmodel⟩ := Dict.mem_iff_getElem?.1 hid
  exact Dict.mem_iff_getElem?.2 ⟨model, h.kept hmodel⟩

theorem continues (h : Toured w find b b' stops entered) : Continues w b b' :=
  ⟨h.find_eq, h.mem⟩

/-- Before a tour, the session may change as long as names are looked up as before. -/
theorem of_models_eq (h : Toured w find b₁ b' stops entered) (hcontinues : Continues w b b₁)
    (hmodels : b₁.models = b.models) : Toured w find b b' stops entered where
  find_eq := h.find_eq.trans hcontinues.find_eq
  kept := hmodels ▸ h.kept
  new := hmodels ▸ h.new
  fresh := hmodels ▸ h.fresh
  distinct := h.distinct
  reached := h.reached
  read := h.read
  seen := h.seen

/-- Two tours one after the other. What the first one has entered has models in the second. -/
theorem append {stops' : List Stop} {entered' : List Entry}
    (h : Toured w find b b₁ stops entered) (h' : Toured w find b₁ b' stops' entered') :
    Toured w find b b' (stops ++ stops') (entered ++ entered') where
  find_eq := h'.find_eq.trans h.find_eq
  kept hmodel := h'.kept (h.kept hmodel)
  new {id} hid := by
    rcases h'.new hid with hid | ⟨entry, hentry, hid⟩
    · refine (h.new hid).imp_right ?_
      rintro ⟨entry, hentry, hid⟩
      exact ⟨entry, List.mem_append_left _ hentry, hid⟩
    · exact .inr ⟨entry, List.mem_append_right _ hentry, hid⟩
  fresh entry hentry := by
    rcases List.mem_append.1 hentry with hentry | hentry
    · exact h.fresh entry hentry
    · exact fun hid => h'.fresh entry hentry (h.mem hid)
  distinct := by
    rw [List.map_append, List.nodup_append]
    refine ⟨h.distinct, h'.distinct, fun id hid id' hid' hsame => ?_⟩
    obtain ⟨entry, hentry, rfl⟩ := List.mem_map.1 hid
    obtain ⟨entry', hentry', rfl⟩ := List.mem_map.1 hid'
    obtain ⟨-, model, -, hmodel, -, -⟩ := h.read entry hentry
    exact h'.fresh entry' hentry' (hsame ▸ Dict.mem_iff_getElem?.2 ⟨model, hmodel⟩)
  reached entry hentry := by
    rcases List.mem_append.1 hentry with hentry | hentry
    · obtain ⟨stop, hstop, hcomes⟩ := h.reached entry hentry
      exact ⟨stop, List.mem_append_left _ hstop, hcomes.mono (List.subset_append_left ..)⟩
    · obtain ⟨stop, hstop, hcomes⟩ := h'.reached entry hentry
      exact ⟨stop, List.mem_append_right _ hstop, hcomes.mono (List.subset_append_right ..)⟩
  read entry hentry := by
    rcases List.mem_append.1 hentry with hentry | hentry
    · exact (h.read entry hentry).mono h'.kept
    · exact h'.read entry hentry
  seen stop hstop := by
    rcases List.mem_append.1 hstop with hstop | hstop
    · exact (h.seen stop hstop).mono h'.mem
    · exact h'.seen stop hstop

/-- The walk has been at a stop if it has been wherever it goes on from there. -/
theorem of_looks (h : Toured w find b b' stops entered) (hsettled : stop.place.Settled find b'.models)
    (hstops : ∀ next, Looks find stop next ↔ next ∈ stops) : Toured w find b b' [stop] entered where
  find_eq := h.find_eq
  kept := h.kept
  new := h.new
  fresh := h.fresh
  distinct := h.distinct
  reached entry hentry := by
    obtain ⟨next, hnext, hcomes⟩ := h.reached entry hentry
    exact ⟨stop, List.mem_singleton_self stop, hcomes.head (.looks ((hstops next).2 hnext))⟩
  read := h.read
  seen other hother := by
    rw [List.mem_singleton.1 hother]
    exact seen_of_next hsettled fun next hlooks => h.seen next ((hstops next).1 hlooks)

theorem inside (h : Toured w find b b' [⟨unwrapping, part⟩] entered)
    (hsettled : place.Settled find b'.models) (hguard : place.guard? = none)
    (hpart : ∀ other, Inside find place other ↔ other = part) :
    Toured w find b b' [⟨unwrapping, place⟩] entered := by
  refine h.of_looks hsettled fun next => ⟨fun hlooks => ?_, fun hnext => ?_⟩
  · cases hlooks with
    | inside hinside => rw [(hpart _).1 hinside, List.mem_singleton]
    | unwrap _ hguard' =>
      rw [hguard] at hguard'
      cases hguard'
  · rw [List.mem_singleton.1 hnext]
    exact .inside ((hpart part).2 rfl) hguard

theorem unwrap {id : String} (h : Toured w find b b' [⟨id :: unwrapping, part⟩] entered)
    (hsettled : place.Settled find b'.models) (hguard : place.guard? = some id)
    (hid : id ∉ unwrapping) (hpart : ∀ other, Inside find place other ↔ other = part) :
    Toured w find b b' [⟨unwrapping, place⟩] entered := by
  refine h.of_looks hsettled fun next => ⟨fun hlooks => ?_, fun hnext => ?_⟩
  · cases hlooks with
    | inside _ hguard' =>
      rw [hguard] at hguard'
      cases hguard'
    | unwrap hinside hguard' =>
      obtain rfl := Option.some.inj (hguard.symm.trans hguard')
      rw [(hpart _).1 hinside, List.mem_singleton]
  · rw [List.mem_singleton.1 hnext]
    exact .unwrap ((hpart part).2 rfl) hguard hid

/-- A struct has been entered if its lines have been read while it had a model. -/
theorem put_model {r : Resolved} {fields : List Field} {properties : Dict Property}
    (h : Toured w find (b.put (modelOf r ∅)) b' [⟨unwrapping, .lines r.package fields⟩] entered)
    (hr : r.decl.type = .struct fields) (hm : idOf r ∉ b.models)
    (hproperties : HasProperties find unwrapping (.lines r.package fields) ∅ properties) :
    Toured w find b (b'.put (modelOf r properties)) [⟨unwrapping, .declaration r⟩]
      (⟨unwrapping, r⟩ :: entered) := by
  have hne : ∀ {id : String}, id ∈ b.models → idOf r ≠ id := fun hid hsame => hm (hsame ▸ hid)
  have hother : ∀ entry ∈ entered, idOf r ≠ idOf entry.struct := fun entry hentry hsame =>
    h.fresh entry hentry (Dict.mem_insert_iff.2 (.inl hsame))
  have hkept : ∀ {id : String} {model : Model}, idOf r ≠ id → b'.models[id]? = some model →
      (b'.put (modelOf r properties)).models[id]? = some model := by
    intro id model hid hmodel
    rwa [getElem?_put_modelOf, if_neg hid]
  have hmem : ∀ {id : String}, id ∈ b'.models → id ∈ (b'.put (modelOf r properties)).models :=
    fun hid => Dict.mem_insert_iff.2 (.inr hid)
  refine ⟨h.find_eq, fun {id model} hmodel => ?_, fun {id} hid => ?_, fun entry hentry => ?_, ?_,
    fun entry hentry => ?_, fun entry hentry => ?_, fun stop hstop => ?_⟩
  · have hid := hne (Dict.mem_iff_getElem?.2 ⟨model, hmodel⟩)
    refine hkept hid (h.kept ?_)
    rwa [getElem?_put_modelOf, if_neg hid]
  · rcases Dict.mem_insert_iff.1 hid with hid | hid
    · exact .inr ⟨_, List.mem_cons_self, hid⟩
    · rcases h.new hid with hid | ⟨entry, hentry, hid⟩
      · rcases Dict.mem_insert_iff.1 hid with hid | hid
        · exact .inr ⟨_, List.mem_cons_self, hid⟩
        · exact .inl hid
      · exact .inr ⟨entry, List.mem_cons_of_mem _ hentry, hid⟩
  · rcases List.mem_cons.1 hentry with rfl | hentry
    · exact hm
    · exact fun hid => h.fresh entry hentry (Dict.mem_insert_iff.2 (.inr hid))
  · rw [List.map_cons, List.nodup_cons]
    refine ⟨fun hid => ?_, h.distinct⟩
    obtain ⟨entry, hentry, hsame⟩ := List.mem_map.1 hid
    exact hother entry hentry hsame.symm
  · refine ⟨_, List.mem_cons_self, ?_⟩
    rcases List.mem_cons.1 hentry with rfl | hentry
    · exact .refl
    · -- from the struct to its lines, and on from there
      obtain ⟨stop, hstop, hcomes⟩ := h.reached entry hentry
      rw [List.mem_singleton.1 hstop] at hcomes
      refine (hcomes.mono (List.subset_cons_self ..)).head ?_
      exact .lines ⟨unwrapping, r⟩ List.mem_cons_self hr
  · rcases List.mem_cons.1 hentry with rfl | hentry
    · refine ⟨fields, modelOf r properties, hr, ?_, ⟨fields, properties, hr, hproperties, rfl⟩, ?_⟩
      · rw [getElem?_put_modelOf, if_pos rfl]
      · exact (h.seen _ List.mem_cons_self).mono hmem
    · obtain ⟨fields', model, hr', hmodel, hhas, hseen⟩ := h.read entry hentry
      exact ⟨fields', model, hr', hkept (hother entry hentry) hmodel, hhas, hseen.mono hmem⟩
  · rw [List.mem_singleton.1 hstop]
    refine seen_of_next (fun _ => Dict.mem_insert_iff.2 (.inl rfl)) fun next hlooks => ?_
    -- nothing is looked at inside a struct
    cases hlooks with
    | inside hinside | unwrap hinside =>
      cases hinside with
      | unwrapped hr' => exact absurd hr (hr' fields)

/-- A tour from a declaration, starting without models. -/
theorem tour {start : Resolved} (h : Toured w find b b' [⟨[], .declaration start⟩] entered)
    (hb : b.models = ∅) : Tour find start b'.models entered := by
  have hreached : ∀ entry ∈ entered, Comes find entered ⟨[], .declaration start⟩ entry.stop := by
    intro entry hentry
    obtain ⟨stop, hstop, hcomes⟩ := h.reached entry hentry
    rwa [List.mem_singleton.1 hstop] at hcomes
  refine ⟨fun id => ⟨fun hid => ?_, ?_⟩, h.distinct, hreached, fun entry hentry => ?_,
    fun stop hcomes => ?_⟩
  · refine (h.new hid).resolve_left fun hold => ?_
    rw [hb] at hold
    simp at hold
  · rintro ⟨entry, hentry, rfl⟩
    obtain ⟨-, model, -, hmodel, -, -⟩ := h.read entry hentry
    exact Dict.mem_iff_getElem?.2 ⟨model, hmodel⟩
  · obtain ⟨-, model, -, hmodel, hhas, -⟩ := h.read entry hentry
    exact ⟨model, hmodel, hhas⟩
  · -- whatever is looked at is seen, and so are the lines of the structs that are entered
    suffices hseen : Seen find b'.models stop from hseen.here
    induction hcomes with
    | refl => exact h.seen _ List.mem_cons_self
    | tail _ hstep ih =>
      cases hstep with
      | looks hlooks => exact ih.looks hlooks
      | lines entry hentry hr =>
        obtain ⟨fields, -, hr', -, -, hseen⟩ := h.read entry hentry
        rwa [TypeExpr.struct.inj (hr.symm.trans hr')]

end Toured

/-! ## The walk -/

/-- A walk that can be accounted for, or fails for a reason. -/
structure Walk.Accounted (w : Workspace) (find : Lookup) (start : Resolved) (ids : List String)
    (depth : Nat) (walk : Walk) : Prop where
  describe : ∀ (unwrapping : List String) (r : Resolved) (b : Builder),
    Visits find start unwrapping (.declaration r) → Ready w find ids depth unwrapping b →
    Ensures (walk.describe unwrapping r) b
      (fun _ b' => ∃ entered, Toured w find b b' [⟨unwrapping, .declaration r⟩] entered)
      (fun e _ => Unresolved find start e)
  flatten : ∀ (unwrapping : List String) (r : Resolved) (properties : Dict Property) (b : Builder),
    Visits find start unwrapping (.embedded r) → Ready w find ids depth unwrapping b →
    Ensures (walk.flatten unwrapping r properties) b
      (fun _ b' => ∃ entered, Toured w find b b' [⟨unwrapping, .embedded r⟩] entered)
      (fun e _ => Unresolved find start e)

variable {start : Resolved} {ids : List String} {depth : Nat}

section Step

variable {walk : Walk} (hwalk : walk.Accounted w find start ids depth)
include hwalk

theorem describeExpr_accounted {package : String} {type : TypeExpr}
    (hplace : Visits find start unwrapping (.expression package type))
    (hb : Ready w find ids depth unwrapping b) :
    Ensures (describeExpr w walk unwrapping package type) b
      (fun _ b' => ∃ entered, Toured w find b b' [⟨unwrapping, .expression package type⟩] entered)
      (fun e _ => Unresolved find start e) := by
  fun_induction describeExpr w walk unwrapping package type with
  | case1 qualifier name type hbuiltin =>
    refine ensures_pure ⟨[], toured_of_end (fun hnone => ?_) fun next hlooks => ?_⟩
    · rw [hbuiltin] at hnone
      cases hnone
    · cases hlooks with
      | inside hinside | unwrap hinside =>
        cases hinside with
        | named hnone =>
          rw [hbuiltin] at hnone
          cases hnone
  | case2 qualifier name hbuiltin =>
    apply ensures_bind
    refine (ask_findModel_resolves (reference qualifier name) package hb.find_eq).mono
      (fun r b₁ h₁ => ?_) (fun e _ h => ?_)
    · obtain ⟨hfind, hcontinues, hmodels⟩ := h₁
      have hr : Visits find start unwrapping (.declaration r) :=
        hplace.inside (.named hbuiltin hfind) rfl
      apply ensures_bind
      refine (hwalk.describe unwrapping r b₁ hr (hb.continues hcontinues)).mono (fun _ b' h => ?_)
        (fun _ _ h => h)
      obtain ⟨entered, h⟩ := h
      refine ensures_pure ⟨entered, (h.of_models_eq hcontinues hmodels).inside (fun _ => ⟨r, hfind⟩)
        rfl fun other => ⟨fun hother => ?_, fun hother => hother ▸ .named hbuiltin hfind⟩⟩
      cases hother with
      | named _ hfind' => rw [Option.some.inj (hfind'.symm.trans hfind)]
    · obtain ⟨hnone, fault, rfl⟩ := h
      exact ⟨_, _, _, fault, hplace.reached, .named hbuiltin, hnone, rfl⟩
  | case3 target ih =>
    refine (ih (hplace.inside .pointer rfl)).mono (fun _ _ h => ?_) (fun _ _ h => h)
    obtain ⟨entered, h⟩ := h
    refine ⟨entered, h.inside trivial rfl fun other => ⟨fun hother => ?_, fun hother => hother ▸ .pointer⟩⟩
    cases hother
    rfl
  | case4 element ih =>
    apply ensures_bind
    refine (ih (hplace.inside .slice rfl)).mono (fun _ _ h => ?_) (fun _ _ h => h)
    obtain ⟨entered, h⟩ := h
    refine ensures_pure
      ⟨entered, h.inside trivial rfl fun other => ⟨fun hother => ?_, fun hother => hother ▸ .slice⟩⟩
    cases hother
    rfl
  | case5 element ih =>
    apply ensures_bind
    refine (ih (hplace.inside .array rfl)).mono (fun _ _ h => ?_) (fun _ _ h => h)
    obtain ⟨entered, h⟩ := h
    refine ensures_pure
      ⟨entered, h.inside trivial rfl fun other => ⟨fun hother => ?_, fun hother => hother ▸ .array⟩⟩
    cases hother
    rfl
  | case6 | case7 | case8 | case9 | case10 | case11 =>
    refine ensures_pure ⟨[], toured_of_end trivial fun next hlooks => ?_⟩
    cases hlooks with
    | inside hinside | unwrap hinside => cases hinside

theorem collectField_accounted {package : String} {field : Field} (properties : Dict Property)
    (hplace : Visits find start unwrapping (.line package field))
    (hb : Ready w find ids depth unwrapping b) :
    Ensures (collectField w walk unwrapping package properties field) b
      (fun _ b' => ∃ entered, Toured w find b b' [⟨unwrapping, .line package field⟩] entered)
      (fun e _ => Unresolved find start e) := by
  rcases silent_or_documented_or_embeds field with hfield | hfield | ⟨name, hfield⟩
  · rw [collectField_of_silent w walk unwrapping package hfield]
    refine ensures_pure ⟨[], toured_of_end (fun name hname => absurd hname (hfield.2 name))
      fun next hlooks => ?_⟩
    cases hlooks with
    | inside hinside | unwrap hinside =>
      cases hinside with
      | documented hdocumented => exact hfield.1 hdocumented
      | embeds hembeds => exact hfield.2 _ hembeds
  · rw [collectField_of_documented w walk unwrapping package hfield]
    apply ensures_bind
    refine (describeExpr_accounted hwalk (hplace.inside (.documented hfield) rfl) hb).mono
      (fun _ _ h => ?_) (fun _ _ h => h)
    obtain ⟨entered, h⟩ := h
    refine ensures_pure ⟨entered, h.inside (fun name hname => absurd hname hfield.not_embeds) rfl
      fun other => ⟨fun hother => ?_, fun hother => hother ▸ .documented hfield⟩⟩
    cases hother with
    | documented => rfl
    | embeds hembeds => exact absurd hembeds hfield.not_embeds
  · rw [collectField_of_embeds w walk unwrapping package hfield]
    apply ensures_bind
    refine (ask_findModel_resolves name package hb.find_eq).mono (fun r b₁ h₁ => ?_) (fun e _ h => ?_)
    · obtain ⟨hfind, hcontinues, hmodels⟩ := h₁
      have hr : Visits find start unwrapping (.embedded r) :=
        hplace.inside (.embeds hfield hfind) rfl
      refine (hwalk.flatten unwrapping r properties b₁ hr (hb.continues hcontinues)).mono
        (fun _ b' h => ?_) (fun _ _ h => h)
      obtain ⟨entered, h⟩ := h
      refine ⟨entered, (h.of_models_eq hcontinues hmodels).inside (fun other hother => ?_) rfl
        fun other => ⟨fun hother => ?_, fun hother => hother ▸ .embeds hfield hfind⟩⟩
      · rw [← hfield.unique hother]
        exact ⟨r, hfind⟩
      · cases hother with
        | documented hdocumented => exact absurd hfield hdocumented.not_embeds
        | embeds hembeds hfind' =>
          rw [← hfield.unique hembeds] at hfind'
          rw [Option.some.inj (hfind'.symm.trans hfind)]
    · obtain ⟨hnone, fault, rfl⟩ := h
      exact ⟨_, _, _, fault, hplace.reached, .embeds hfield, hnone, rfl⟩

theorem collectFields_accounted {package : String} {fields : List Field}
    (properties : Dict Property) (hplace : Visits find start unwrapping (.lines package fields))
    (hb : Ready w find ids depth unwrapping b) :
    Ensures (collectFields w walk unwrapping package fields properties) b
      (fun _ b' => ∃ entered, Toured w find b b' [⟨unwrapping, .lines package fields⟩] entered)
      (fun e _ => Unresolved find start e) := by
  have hlines : ∀ field ∈ fields, Visits find start unwrapping (.line package field) :=
    fun field hfield => hplace.inside (.line hfield) rfl
  have hall : Ensures (fields.foldlM (collectField w walk unwrapping package) properties) b
      (fun _ b' => ∃ entered, Toured w find b b'
        (fields.map fun field => ⟨unwrapping, .line package field⟩) entered)
      (fun e _ => Unresolved find start e) := by
    clear hplace
    induction fields generalizing properties b with
    | nil =>
      rw [List.foldlM_nil]
      exact ensures_pure ⟨[], rfl, id, .inl, by simp, List.nodup_nil, by simp, by simp, by simp⟩
    | cons field fields ih =>
      rw [List.foldlM_cons]
      apply ensures_bind
      refine (collectField_accounted hwalk properties (hlines field List.mem_cons_self) hb).mono
        (fun properties₁ b₁ h₁ => ?_) (fun _ _ h => h)
      obtain ⟨first, h₁⟩ := h₁
      refine (ih properties₁ (hb.continues h₁.continues) fun other hother =>
        hlines other (List.mem_cons_of_mem _ hother)).mono (fun _ b₂ h₂ => ?_) (fun _ _ h => h)
      obtain ⟨rest, h₂⟩ := h₂
      exact ⟨first ++ rest, h₁.append h₂⟩
  refine hall.mono (fun _ b' h => ?_) (fun _ _ h => h)
  obtain ⟨entered, h⟩ := h
  refine ⟨entered, h.of_looks trivial fun next => ⟨fun hlooks => ?_, fun hnext => ?_⟩⟩
  · cases hlooks with
    | inside hinside =>
      cases hinside with
      | line hfield => exact List.mem_map.2 ⟨_, hfield, rfl⟩
    | unwrap _ hguard => cases hguard
  · obtain ⟨field, hfield, rfl⟩ := List.mem_map.1 hnext
    exact .inside (.line hfield) rfl

theorem describeDecl_accounted (hfaithful : walk.Faithful w find start ids depth) {r : Resolved}
    (hid : idOf r ∈ ids) (hplace : Visits find start unwrapping (.declaration r))
    (hb : Ready w find ids (depth + 1) unwrapping b) :
    Ensures (describeDecl w walk unwrapping r) b
      (fun _ b' => ∃ entered, Toured w find b b' [⟨unwrapping, .declaration r⟩] entered)
      (fun e _ => Unresolved find start e) := by
  by_cases hr : ∃ fields, r.decl.type = .struct fields
  · obtain ⟨fields, hr⟩ := hr
    by_cases hm : idOf r ∈ b.models
    · refine ensures_of_eq_ok (describeDecl_of_mem w walk unwrapping hr hm)
        ⟨[], toured_of_end (fun _ => hm) fun next hlooks => ?_⟩
      cases hlooks with
      | inside hinside | unwrap hinside =>
        cases hinside with
        | unwrapped hr' => exact hr' fields hr
    · have hready : Ready w find ids depth unwrapping (b.put (modelOf r ∅)) := hb.put hid hm
      have hfields := (collectFields_accounted hwalk ∅ (hplace.lines hr) hready).and
        (collectFields_faithful hfaithful ∅ (hplace.lines hr) hready)
      have hrun := describeDecl_of_not_mem w walk unwrapping hr hm
      cases hf : collectFields w walk unwrapping r.package fields ∅ (b.put (modelOf r ∅)) with
      | error e b' =>
        rw [hf] at hrun
        exact ensures_of_eq_error hrun (hfields.of_error hf).1
      | ok properties b' =>
        rw [hf] at hrun
        obtain ⟨⟨entered, h⟩, -, hproperties⟩ := hfields.of_ok hf
        exact ensures_of_eq_ok hrun ⟨_, h.put_model hr hm hproperties⟩
  · rw [not_exists] at hr
    have hsettled : ∀ models, (Place.declaration r).Settled find models :=
      fun _ hstruct => absurd hstruct (not_exists.2 hr)
    by_cases hu : idOf r ∈ unwrapping
    · rw [describeDecl_of_unwrapping w walk unwrapping hr hu]
      refine ensures_pure ⟨[], toured_of_end (hsettled _) fun next hlooks => ?_⟩
      have hguard := Place.guard?_declaration hr
      cases hlooks with
      | inside _ hguard' =>
        rw [hguard] at hguard'
        cases hguard'
      | unwrap _ hguard' hid' =>
        obtain rfl := Option.some.inj (hguard.symm.trans hguard')
        exact hid' hu
    · rw [describeDecl_of_other w walk unwrapping hr hu]
      have hready : Ready w find ids depth (idOf r :: unwrapping) b := hb.cons hid hu
      have hguard := Place.guard?_declaration hr
      apply ensures_bind
      refine (describeExpr_accounted hwalk (hplace.unwrap (.unwrapped hr) hguard hu) hready).mono
        (fun _ b' h => ?_) (fun _ _ h => h)
      obtain ⟨entered, h⟩ := h
      refine ensures_pure ⟨entered, h.unwrap (hsettled _) hguard hu
        fun other => ⟨fun hother => ?_, fun hother => hother ▸ .unwrapped hr⟩⟩
      cases hother
      rfl

theorem flattenDecl_accounted {r : Resolved} (properties : Dict Property) (hid : idOf r ∈ ids)
    (hplace : Visits find start unwrapping (.embedded r))
    (hb : Ready w find ids (depth + 1) unwrapping b) :
    Ensures (flattenDecl w walk unwrapping r properties) b
      (fun _ b' => ∃ entered, Toured w find b b' [⟨unwrapping, .embedded r⟩] entered)
      (fun e _ => Unresolved find start e) := by
  by_cases hr : ∃ fields, r.decl.type = .struct fields
  · obtain ⟨fields, hr⟩ := hr
    have hguard := Place.guard?_embedded hr
    by_cases hu : idOf r ∈ unwrapping
    · rw [flattenDecl_of_unwrapping w walk unwrapping hu]
      refine ensures_pure ⟨[], toured_of_end trivial fun next hlooks => ?_⟩
      cases hlooks with
      | inside _ hguard' =>
        rw [hguard] at hguard'
        cases hguard'
      | unwrap _ hguard' hid' =>
        obtain rfl := Option.some.inj (hguard.symm.trans hguard')
        exact hid' hu
    · rw [flattenDecl_of_struct w walk unwrapping hr hu]
      have hready : Ready w find ids depth (idOf r :: unwrapping) b := hb.cons hid hu
      refine (collectFields_accounted hwalk properties (hplace.unwrap (.flattened hr) hguard hu)
        hready).mono (fun _ b' h => ?_) (fun _ _ h => h)
      obtain ⟨entered, h⟩ := h
      refine ⟨entered, h.unwrap trivial hguard hu
        fun other => ⟨fun hother => ?_, fun hother => hother ▸ .flattened hr⟩⟩
      cases hother with
      | flattened hr' => rw [TypeExpr.struct.inj (hr.symm.trans hr')]
  · rw [not_exists] at hr
    rw [flattenDecl_of_other w walk unwrapping hr]
    refine ensures_pure ⟨[], toured_of_end trivial fun next hlooks => ?_⟩
    cases hlooks with
    | inside hinside | unwrap hinside =>
      cases hinside with
      | flattened hr' => exact hr _ hr'

end Step

theorem walkWithin_accounted
    (hids : ∀ {unwrapping : List String} {place : Place}, Visits find start unwrapping place →
      place.Of fun r => idOf r ∈ ids)
    (depth : Nat) : (walkWithin w depth).Accounted w find start ids depth := by
  induction depth with
  | zero =>
    exact ⟨fun _ _ _ _ hb => absurd hb.spare_lt (Nat.not_lt_zero _),
      fun _ _ _ _ _ hb => absurd hb.spare_lt (Nat.not_lt_zero _)⟩
  | succ depth ih =>
    exact ⟨fun _ _ _ hplace hb =>
        describeDecl_accounted ih (walkWithin_faithful hids depth) (hids hplace) hplace hb,
      fun _ _ properties _ hplace hb => flattenDecl_accounted ih properties (hids hplace) hplace hb⟩

end Toured

/-! ## Whole types -/

/-- Describing the written type follows the reference in the context: it is the written name
itself, or it is needed at a place that is reached. -/
def Follows (find : Lookup) (package written reference context : String) : Prop :=
  (plainType? (elementName written.toList) = none ∧ reference = elementName written.toList ∧
    context = package) ∨
  ∃ place, Reaches find package written place ∧ Needs place reference context

/-- The error is that a reference is not resolved which describing the written type follows. -/
def Stranded (find : Lookup) (package written : String) (e : Error) : Prop :=
  ∃ reference context fault, Follows find package written reference context ∧
    find reference context = none ∧ e = .modelNotFound reference context fault

theorem describeName_tours (w : Workspace) (package written : String) (s : Session) :
    Ensures (describeName w package (elementName written.toList)) { session := s }
      (fun _ b => plainType? (elementName written.toList) ≠ none ∧ b.models = ∅ ∨
        ∃ start entered, plainType? (elementName written.toList) = none ∧
          s.find w (elementName written.toList) package = some start ∧
          Tour (s.find w) start b.models entered)
      (fun e _ => Stranded (s.find w) package written e) := by
  refine ensures_describeName (fun type hplain => ?_) (fun start t hplain hstart hst => ?_)
    (fun fault _ hplain hnone => ?_)
  · exact .inl ⟨by simp [hplain], rfl⟩
  · have hwalk : (walkWithin w (depthBound s)).Accounted w (s.find w) start
        (idsInReach s package (elementName written.toList)) (depthBound s) :=
      walkWithin_accounted (fun hplace => hplace.reached.idsInReach hstart) _
    refine (hwalk.describe [] start _ .start (ready_of_find_eq package _ [] hst.find_eq)).mono
      (fun _ b h => ?_) (fun e _ h => ?_)
    · obtain ⟨entered, h⟩ := h
      exact .inr ⟨start, entered, hplain, hstart, h.tour rfl⟩
    · obtain ⟨place, reference, context, fault, hplace, hneeds, hnone, rfl⟩ := h
      exact ⟨reference, context, fault,
        .inr ⟨place, ⟨start, hplain, hstart, hplace⟩, hneeds⟩, hnone, rfl⟩
  · exact ⟨_, _, fault, .inl ⟨hplain, rfl, rfl⟩, hnone, rfl⟩

/-- Describing a written type gives the models of a tour from the declaration that its name refers
to, or fails for a reference that it follows. -/
theorem run_tours (w : Workspace) (package written : String) (s : Session) :
    Ensures (run w package written) s
      (fun described _ => plainType? (elementName written.toList) ≠ none ∧ described.2 = ∅ ∨
        ∃ start entered, plainType? (elementName written.toList) = none ∧
          s.find w (elementName written.toList) package = some start ∧
          Tour (s.find w) start described.2 entered)
      (fun e _ => Stranded (s.find w) package written e) := by
  apply ensures_run
  refine describeWritten_rule (P := fun x => Ensures x _ _ _) (fun x hx => ?_) _
    (describeName_tours w package written s)
  apply ensures_bind
  exact hx.mono (fun _ _ h => ensures_pure h) (fun _ _ h => h)

end ApiDocs.Swagger.Builder
