/-
  ApiDocs.Proofs.Swagger.Visits

  A walk gives what declarations mean. `Visits` says where a walk that starts at a declaration
  can be, and which ids are being unwrapped there. Wherever it is, the data types and
  properties that it gives are those of the place (`HasType`, `HasProperties`), and each model
  that it adds is that of a struct which it visits (`Entered`).

  This needs that a walk never runs out of depth: the ids that it can meet are listed
  (`idsInReach`), and each declaration that is entered takes one of them away, either because
  it has a model from then on or because it is being unwrapped.
-/

import ApiDocs.Proofs.Package.Lookup
import ApiDocs.Proofs.Swagger.Meaning
import Mathlib.Data.List.ProdSigma

namespace ApiDocs.Swagger.Builder

open Source (TypeExpr Field)
open Package (Resolved)

/-! ## Where a walk can be -/

/-- Where a walk from a declaration can be, and the ids that are being unwrapped there. -/
inductive Visits (find : Lookup) (start : Resolved) : List String → Place → Prop where
  | start : Visits find start [] (.declaration start)
  /-- What is being unwrapped stays so while the lines of another struct are read. -/
  | lines {unwrapping : List String} {r : Resolved} {fields : List Field}
      (h : Visits find start unwrapping (.declaration r)) (hr : r.decl.type = .struct fields) :
      Visits find start unwrapping (.lines r.package fields)
  | inside {unwrapping : List String} {place part : Place} (h : Visits find start unwrapping place)
      (hpart : Inside find place part) (hguard : place.guard? = none) :
      Visits find start unwrapping part
  | unwrap {unwrapping : List String} {place part : Place} {id : String}
      (h : Visits find start unwrapping place) (hpart : Inside find place part)
      (hguard : place.guard? = some id) (hid : id ∉ unwrapping) :
      Visits find start (id :: unwrapping) part

/-- The model is that of a struct which the walk visits, read while those ids are being
unwrapped that are so at that visit. -/
def Entered (find : Lookup) (start : Resolved) (model : Model) : Prop :=
  ∃ unwrapping r, Visits find start unwrapping (.declaration r) ∧ HasModel find unwrapping r model

/-- A walk can go on from the one place to the other. -/
inductive Goes (find : Lookup) : Place → Place → Prop where
  | inside {place part : Place} (hpart : Inside find place part) : Goes find place part
  | lines {r : Resolved} {fields : List Field} (hr : r.decl.type = .struct fields) :
      Goes find (.declaration r) (.lines r.package fields)

/-- A walk can come from the one place to the other. -/
def Leads (find : Lookup) : Place → Place → Prop :=
  Relation.ReflTransGen (Goes find)

/-- Where a walk is, it has come from its start. -/
theorem Visits.reached {find : Lookup} {start : Resolved} {unwrapping : List String} {place : Place}
    (h : Visits find start unwrapping place) : Leads find (.declaration start) place := by
  induction h with
  | start => exact .refl
  | lines _ hr ih => exact ih.tail (.lines hr)
  | inside _ hpart _ ih | unwrap _ hpart _ _ ih => exact ih.tail (.inside hpart)

/-- What is being unwrapped led to where the walk is. -/
theorem Visits.leads {find : Lookup} {start : Resolved} {unwrapping : List String} {place : Place}
    (h : Visits find start unwrapping place) {id : String} (hid : id ∈ unwrapping) :
    ∃ opened : Place, opened.guard? = some id ∧ Leads find opened place := by
  induction h with
  | start => cases hid
  | lines _ hr ih =>
    obtain ⟨opened, hguard, hleads⟩ := ih hid
    exact ⟨opened, hguard, hleads.tail (.lines hr)⟩
  | inside _ hpart _ ih =>
    obtain ⟨opened, hguard, hleads⟩ := ih hid
    exact ⟨opened, hguard, hleads.tail (.inside hpart)⟩
  | unwrap _ hpart hguard _ ih =>
    rcases List.mem_cons.1 hid with rfl | hid
    · exact ⟨_, hguard, Relation.ReflTransGen.single (.inside hpart)⟩
    · obtain ⟨opened, hopened, hleads⟩ := ih hid
      exact ⟨opened, hopened, hleads.tail (.inside hpart)⟩

/-! ## Declarations that lead to a place -/

theorem embeddedName?_eq_some {type : TypeExpr} {name : String} (h : embeddedName? type = some name) :
    ∃ qualifier typeName, leafName? type = some (qualifier, typeName) ∧
      name = reference qualifier typeName := by
  fun_induction embeddedName? type with
  | case1 target ih => exact ih h
  | case2 qualifier typeName => exact ⟨qualifier, typeName, rfl, (Option.some.inj h).symm⟩
  | case3 => cases h

/-- The expression mentions only what a declaration mentions. -/
def Mentions (r : Resolved) (type : TypeExpr) : Prop :=
  ∀ mention ∈ leafName? type, mention ∈ mentioned r.decl

theorem mentions_of_struct {r : Resolved} {fields : List Field} {field : Field}
    (hr : r.decl.type = .struct fields) (hfield : field ∈ fields) : Mentions r field.type := by
  intro mention hm
  simp only [mentioned, hr]
  exact List.mem_filterMap.2 ⟨field, hfield, hm⟩

theorem mentions_of_other {r : Resolved} (hr : ∀ fields, r.decl.type ≠ .struct fields) :
    Mentions r r.decl.type := by
  intro mention hm
  unfold mentioned
  split
  · rename_i fields h
    exact absurd h (hr fields)
  · exact Option.mem_toList.2 hm

/-- The place is a declaration with the property, or a part of one. -/
def Place.Of (P : Resolved → Prop) : Place → Prop
  | .declaration r | .embedded r => P r
  | .expression package type => ∃ r, P r ∧ r.package = package ∧ Mentions r type
  | .line package field => ∃ r, P r ∧ r.package = package ∧ Mentions r field.type
  | .lines package fields => ∃ r, P r ∧ r.package = package ∧ ∀ field ∈ fields, Mentions r field.type

theorem Place.Of.mono {P Q : Resolved → Prop} {place : Place} (h : place.Of P)
    (hPQ : ∀ r, P r → Q r) : place.Of Q := by
  cases place with
  | declaration r | embedded r => exact hPQ r h
  | expression | line | lines =>
    obtain ⟨r, hr, hmentions⟩ := h
    exact ⟨r, hPQ r hr, hmentions⟩

section Invariant

variable {find : Lookup} {P : Resolved → Prop}
  (hmention : ∀ r qualifier name r', P r → (qualifier, name) ∈ mentioned r.decl →
    find (reference qualifier name) r.package = some r' → P r')
include hmention

theorem Inside.of {place part : Place} (h : Inside find place part) (hplace : place.Of P) :
    part.Of P := by
  cases h with
  | named _ hfind =>
    obtain ⟨r, hP, rfl, hmentions⟩ := hplace
    exact hmention r _ _ _ hP (hmentions _ rfl) hfind
  | pointer | slice | array => exact hplace
  | unwrapped hr => exact ⟨_, hplace, rfl, mentions_of_other hr⟩
  | documented => exact hplace
  | embeds hfield hfind =>
    obtain ⟨r, hP, rfl, hmentions⟩ := hplace
    obtain ⟨qualifier, typeName, hleaf, rfl⟩ := embeddedName?_eq_some hfield.2.2
    exact hmention r _ _ _ hP (hmentions _ hleaf) hfind
  | line hfield =>
    obtain ⟨r, hP, rfl, hmentions⟩ := hplace
    exact ⟨r, hP, rfl, hmentions _ hfield⟩
  | flattened hr => exact ⟨_, hplace, rfl, fun field hfield => mentions_of_struct hr hfield⟩

/-- What holds at a place, and passes on to what a declaration mentions, holds wherever the walk
comes from there. -/
theorem Leads.of {place place' : Place} (h : Leads find place place') (hplace : place.Of P) :
    place'.Of P := by
  induction h with
  | refl => exact hplace
  | tail _ hgoes ih =>
    cases hgoes with
    | inside hpart => exact hpart.of hmention ih
    | lines hr => exact ⟨_, ih, rfl, fun field hfield => mentions_of_struct hr hfield⟩

end Invariant

/-! ## How deep a walk can go -/

/-- The packages that a walk from a reference can meet: that of the reference, imported ones
and those that a reference spells out. -/
def packagesInReach (s : Session) (package written : String) : List String :=
  package :: Session.spelledPackage written :: ((Dict.contents s.imports).flatMap Dict.contents ++
    ((declarations s).flatMap mentioned).map fun mention =>
      Session.spelledPackage (reference mention.1 mention.2))

/-- The model ids that a walk from a reference can meet. -/
def idsInReach (s : Session) (package written : String) : List String :=
  (packagesInReach s package written ×ˢ declarations s).map fun (package, decl) =>
    modelId package decl.name

theorem length_idsInReach (s : Session) (package written : String) :
    2 * (idsInReach s package written).length < depthBound s := by
  rw [idsInReach, List.length_map, List.length_product, packagesInReach]
  simp only [List.length_cons, List.length_append, List.length_map]
  -- the bound is twice this product, and one more
  exact Nat.lt_succ_self _

/-- Locating packages changes neither the declarations nor the imports. -/
theorem depthBound_of_locating {w : Workspace} {s t : Session}
    (h : Session.Changes w [.locating] s t) : depthBound t = depthBound s := by
  rw [depthBound, declarations, h.symbols_eq (by simp), h.imports_eq (by simp)]
  rfl

section Reach

variable {w : Workspace} {s : Session} {package written : String}

theorem mem_declarations_of_declared {name package : String} {r : Resolved}
    (h : s.declared w name package = some r) : r.decl ∈ declarations s := by
  obtain ⟨-, path, table, -, htable, hdecl⟩ := Session.declared_eq_some h
  exact List.mem_flatMap.2 ⟨table, Dict.mem_contents htable, Dict.mem_contents hdecl⟩

/-- A found declaration is in reach if the packages are that its reference was looked up in. -/
theorem inReach_of_find {reference context : String} {r : Resolved}
    (hfind : s.find w reference context = some r)
    (hcontext : context ∈ packagesInReach s package written)
    (hspelled : Session.spelledPackage reference ∈ packagesInReach s package written) :
    r.package ∈ packagesInReach s package written ∧ r.decl ∈ declarations s := by
  obtain ⟨⟨name, hdeclared⟩, hpackage⟩ := Session.find_eq_some hfind
  refine ⟨?_, mem_declarations_of_declared hdeclared⟩
  rcases hpackage with h | h | ⟨path, imports, qualifier, hpath, hqualifier⟩
  · exact h ▸ hcontext
  · exact h ▸ hspelled
  · have himport : r.package ∈ (Dict.contents s.imports).flatMap Dict.contents :=
      List.mem_flatMap.2 ⟨imports, Dict.mem_contents hpath, Dict.mem_contents hqualifier⟩
    exact List.mem_cons_of_mem _ (List.mem_cons_of_mem _ (List.mem_append_left _ himport))

theorem Leads.inReach {start : Resolved} (hstart : s.find w written package = some start)
    {place : Place} (h : Leads (s.find w) (.declaration start) place) :
    place.Of fun r => r.package ∈ packagesInReach s package written ∧ r.decl ∈ declarations s := by
  refine h.of ?_ (inReach_of_find hstart List.mem_cons_self (by simp [packagesInReach]))
  rintro r qualifier name r' ⟨hpackage, hdecl⟩ hmentioned hfind
  refine inReach_of_find hfind hpackage ?_
  have hspelled : (qualifier, name) ∈ (declarations s).flatMap mentioned :=
    List.mem_flatMap.2 ⟨r.decl, hdecl, hmentioned⟩
  refine List.mem_cons_of_mem _ (List.mem_cons_of_mem _ (List.mem_append_right _ ?_))
  exact List.mem_map.2 ⟨_, hspelled, rfl⟩

/-- Wherever a walk comes, the declarations there are what looking them up gives. -/
theorem Leads.declared {start : Resolved} (hstart : s.find w written package = some start)
    {place : Place} (h : Leads (s.find w) (.declaration start) place) :
    place.Of fun r => ∃ name, s.declared w name r.package = some r :=
  h.of (fun _ _ _ _ _ _ hfind => (Session.find_eq_some hfind).1) (Session.find_eq_some hstart).1

/-- A walk that meets no qualified name stays in its package. -/
theorem Leads.package_eq
    (hplain : ∀ decl ∈ declarations s, ∀ mention ∈ mentioned decl,
      (Text.pieces '.' (reference mention.1 mention.2)).dropLast = [])
    (hwritten : (Text.pieces '.' written).dropLast = [])
    {start : Resolved} (hstart : s.find w written package = some start)
    {place : Place} (h : Leads (s.find w) (.declaration start) place) :
    place.Of fun r => r.package = package := by
  have hfound : ∀ {reference r}, (Text.pieces '.' reference).dropLast = [] →
      s.find w reference package = some r → r.package = package ∧ r.decl ∈ declarations s := by
    intro reference r href hfind
    rw [Session.find, if_pos href] at hfind
    exact ⟨(Session.declared_eq_some hfind).1, mem_declarations_of_declared hfind⟩
  refine (h.of (P := fun r => r.package = package ∧ r.decl ∈ declarations s) ?_
    (hfound hwritten hstart)).mono fun _ hr => hr.1
  rintro r qualifier name r' ⟨rfl, hdecl⟩ hmentioned hfind
  exact hfound (hplain r.decl hdecl _ hmentioned) hfind

/-- Wherever a walk comes, the ids of the declarations there are listed. -/
theorem Leads.idsInReach {start : Resolved} (hstart : s.find w written package = some start)
    {place : Place} (h : Leads (s.find w) (.declaration start) place) :
    place.Of fun r => idOf r ∈ idsInReach s package written :=
  (h.inReach hstart).mono fun r hr =>
    List.mem_map.2 ⟨(r.package, r.decl), List.mem_product.2 hr, rfl⟩

end Reach

/-- How many more declarations can be entered: each listed id can become a model, and can be
unwrapped. -/
def spare (ids unwrapping : List String) (b : Builder) : Nat :=
  Dict.unseen ids (fun id => b.models.contains id) + Dict.unseen ids (fun id => unwrapping.contains id)

section Spare

variable {ids unwrapping : List String} {b b' : Builder}

theorem spare_le_length : spare ids unwrapping b ≤ 2 * ids.length := by
  have hmodels := Dict.unseen_le_length ids fun id => b.models.contains id
  have hunwrapping := Dict.unseen_le_length ids fun id => unwrapping.contains id
  simp only [spare]
  omega

theorem spare_mono (h : ∀ {id : String}, id ∈ b.models → id ∈ b'.models) :
    spare ids unwrapping b' ≤ spare ids unwrapping b := by
  refine Nat.add_le_add_right (Dict.unseen_mono fun id hid => ?_) _
  rw [Dict.contains_iff] at hid ⊢
  exact h hid

theorem spare_put_lt {model : Model} (hid : model.id ∈ ids) (hm : model.id ∉ b.models) :
    spare ids unwrapping (b.put model) < spare ids unwrapping b := by
  have hold : b.models.contains model.id = false := by
    rw [← Bool.not_eq_true, Dict.contains_iff]
    exact hm
  have hnew : (b.put model).models.contains model.id = true :=
    Dict.contains_iff.2 (Dict.mem_insert_iff.2 (.inl rfl))
  refine Nat.add_lt_add_right (Dict.unseen_lt (fun id h => ?_) hid hold hnew) _
  rw [Dict.contains_iff] at h ⊢
  exact Dict.mem_insert_iff.2 (.inr h)

theorem spare_cons_lt {id : String} (hid : id ∈ ids) (hu : id ∉ unwrapping) :
    spare ids (id :: unwrapping) b < spare ids unwrapping b := by
  have hold : unwrapping.contains id = false := by simpa using hu
  have hnew : (id :: unwrapping).contains id = true := by simp
  refine Nat.add_lt_add_left (Dict.unseen_lt (fun other h => ?_) hid hold hnew) _
  rw [List.contains_iff_mem] at h ⊢
  exact List.mem_cons_of_mem _ h

end Spare

/-! ## The walk -/

/-- From one builder to the other, names are looked up as before, no model is lost, and new
models are those of structs that the walk from `start` visits. -/
structure Advances (w : Workspace) (find : Lookup) (start : Resolved) (b b' : Builder) : Prop where
  find_eq : b'.session.find w = b.session.find w
  mem : ∀ {id : String}, id ∈ b.models → id ∈ b'.models
  entered : ∀ (id : String) (model : Model), b'.models[id]? = some model →
    b.models[id]? = some model ∨ model.id = id ∧ Entered find start model

/-- The builder looks names up by `find`, and can enter fewer than `depth` declarations. -/
structure Ready (w : Workspace) (find : Lookup) (ids : List String) (depth : Nat)
    (unwrapping : List String) (b : Builder) : Prop where
  find_eq : b.session.find w = find
  spare_lt : spare ids unwrapping b < depth

/-- A walk that gives what places mean, as long as at most `depth` declarations can be
entered. -/
structure Walk.Faithful (w : Workspace) (find : Lookup) (start : Resolved) (ids : List String)
    (depth : Nat) (walk : Walk) : Prop where
  describe : ∀ (unwrapping : List String) (r : Resolved) (b : Builder),
    Visits find start unwrapping (.declaration r) → Ready w find ids depth unwrapping b →
    Ensures (walk.describe unwrapping r) b
      (fun type b' => Advances w find start b b' ∧ HasType find unwrapping (.declaration r) (some type))
      (fun _ _ => True)
  flatten : ∀ (unwrapping : List String) (r : Resolved) (properties : Dict Property) (b : Builder),
    Visits find start unwrapping (.embedded r) → Ready w find ids depth unwrapping b →
    Ensures (walk.flatten unwrapping r properties) b
      (fun properties' b' => Advances w find start b b' ∧
        HasProperties find unwrapping (.embedded r) properties properties')
      (fun _ _ => True)

section Walk

variable {w : Workspace} {find : Lookup} {start : Resolved} {ids : List String} {depth : Nat}
  {unwrapping : List String} {b b' : Builder}

theorem Advances.refl (b : Builder) : Advances w find start b b :=
  ⟨rfl, id, fun _ _ h => .inl h⟩

theorem Advances.trans {b'' : Builder} (h : Advances w find start b b')
    (h' : Advances w find start b' b'') : Advances w find start b b'' := by
  refine ⟨h'.find_eq.trans h.find_eq, h'.mem ∘ h.mem, fun id model hm => ?_⟩
  rcases h'.entered id model hm with hm | hm
  · exact h.entered id model hm
  · exact .inr hm

theorem Ready.advance (h : Ready w find ids depth unwrapping b) (h' : Advances w find start b b') :
    Ready w find ids depth unwrapping b' :=
  ⟨h'.find_eq.trans h.find_eq, Nat.lt_of_le_of_lt (spare_mono h'.mem) h.spare_lt⟩

/-- A struct that gets a model leaves one declaration fewer to enter. -/
theorem Ready.put {r : Resolved} {properties : Dict Property}
    (h : Ready w find ids (depth + 1) unwrapping b) (hid : idOf r ∈ ids) (hm : idOf r ∉ b.models) :
    Ready w find ids depth unwrapping (b.put (modelOf r properties)) := by
  have hspare : spare ids unwrapping (b.put (modelOf r properties)) < spare ids unwrapping b :=
    spare_put_lt hid hm
  have hlt := h.spare_lt
  exact ⟨h.find_eq, by omega⟩

/-- So does a declaration that is being unwrapped. -/
theorem Ready.cons {id : String} (h : Ready w find ids (depth + 1) unwrapping b) (hid : id ∈ ids)
    (hu : id ∉ unwrapping) : Ready w find ids depth (id :: unwrapping) b := by
  have hspare : spare ids (id :: unwrapping) b < spare ids unwrapping b := spare_cons_lt hid hu
  have hlt := h.spare_lt
  exact ⟨h.find_eq, by omega⟩

/-- As long as names are looked up as in the session, the listed ids leave enough depth, whatever
is being unwrapped and whichever models are there. -/
theorem ready_of_find_eq {s : Session} (package written : String) (unwrapping : List String)
    (hb : b.session.find w = s.find w) :
    Ready w (s.find w) (idsInReach s package written) (depthBound s) unwrapping b :=
  ⟨hb, Nat.lt_of_le_of_lt spare_le_length (length_idsInReach s package written)⟩

/-- Looking a reference up gives what `find` does. -/
theorem ask_findModel (start : Resolved) (reference package : String)
    (hb : b.session.find w = find) :
    Ensures (ask (Session.findModel w reference package)) b
      (fun r b' => Advances w find start b b' ∧ find reference package = some r)
      (fun _ _ => True) := by
  apply ensures_ask
  refine (Session.findModel_spec w reference package b.session).mono (fun r t h => ?_)
    (fun _ _ _ => trivial)
  exact ⟨⟨h.1.find_eq, id, fun _ _ hm => .inl hm⟩, hb ▸ h.2.1⟩

section Step

variable {walk : Walk} (hwalk : walk.Faithful w find start ids depth)
include hwalk

theorem describeExpr_faithful {package : String} {type : TypeExpr}
    (hplace : Visits find start unwrapping (.expression package type))
    (hb : Ready w find ids depth unwrapping b) :
    Ensures (describeExpr w walk unwrapping package type) b
      (fun result b' => Advances w find start b b' ∧
        HasType find unwrapping (.expression package type) result)
      (fun _ _ => True) := by
  fun_induction describeExpr w walk unwrapping package type with
  | case1 qualifier name type hbuiltin => exact ensures_pure ⟨.refl b, .builtin hbuiltin⟩
  | case2 qualifier name hbuiltin =>
    apply ensures_bind
    refine (ask_findModel start _ package hb.find_eq).mono (fun r b₁ h₁ => ?_) (fun _ _ h => h)
    obtain ⟨h₁, hfind⟩ := h₁
    have hr : Visits find start unwrapping (.declaration r) :=
      hplace.inside (.named hbuiltin hfind) rfl
    apply ensures_bind
    refine (hwalk.describe unwrapping r b₁ hr (hb.advance h₁)).mono (fun type b₂ h₂ => ?_)
      (fun _ _ h => h)
    exact ensures_pure ⟨h₁.trans h₂.1, .named hbuiltin hfind h₂.2⟩
  | case3 target ih =>
    refine (ih (hplace.inside .pointer rfl)).mono (fun _ _ h => ?_) (fun _ _ h => h)
    exact ⟨h.1, .pointer h.2⟩
  | case4 element ih =>
    apply ensures_bind
    refine (ih (hplace.inside .slice rfl)).mono (fun _ _ h => ?_) (fun _ _ h => h)
    exact ensures_pure ⟨h.1, .slice h.2⟩
  | case5 element ih =>
    apply ensures_bind
    refine (ih (hplace.inside .array rfl)).mono (fun _ _ h => ?_) (fun _ _ h => h)
    exact ensures_pure ⟨h.1, .array h.2⟩
  | case6 => exact ensures_pure ⟨.refl b, .map⟩
  | case7 => exact ensures_pure ⟨.refl b, .struct⟩
  | case8 => exact ensures_pure ⟨.refl b, .interface⟩
  | case9 => exact ensures_pure ⟨.refl b, .channel⟩
  | case10 => exact ensures_pure ⟨.refl b, .function⟩
  | case11 => exact ensures_pure ⟨.refl b, .unknown⟩

theorem collectField_faithful {package : String} {field : Field} (properties : Dict Property)
    (hplace : Visits find start unwrapping (.line package field))
    (hb : Ready w find ids depth unwrapping b) :
    Ensures (collectField w walk unwrapping package properties field) b
      (fun properties' b' => Advances w find start b b' ∧
        HasProperties find unwrapping (.line package field) properties properties')
      (fun _ _ => True) := by
  rcases silent_or_documented_or_embeds field with hfield | hfield | ⟨name, hfield⟩
  · rw [collectField_of_silent w walk unwrapping package hfield]
    exact ensures_pure ⟨.refl b, .silent hfield⟩
  · rw [collectField_of_documented w walk unwrapping package hfield]
    apply ensures_bind
    refine (describeExpr_faithful hwalk (hplace.inside (.documented hfield) rfl) hb).mono
      (fun type b' h => ?_) (fun _ _ h => h)
    exact ensures_pure ⟨h.1, .documented hfield h.2⟩
  · rw [collectField_of_embeds w walk unwrapping package hfield]
    apply ensures_bind
    refine (ask_findModel start name package hb.find_eq).mono (fun r b₁ h₁ => ?_) (fun _ _ h => h)
    obtain ⟨h₁, hfind⟩ := h₁
    have hr : Visits find start unwrapping (.embedded r) :=
      hplace.inside (.embeds hfield hfind) rfl
    refine (hwalk.flatten unwrapping r properties b₁ hr (hb.advance h₁)).mono
      (fun properties' b₂ h₂ => ?_) (fun _ _ h => h)
    exact ⟨h₁.trans h₂.1, .embeds hfield hfind h₂.2⟩

theorem collectFields_faithful {package : String} {fields : List Field} (properties : Dict Property)
    (hplace : Visits find start unwrapping (.lines package fields))
    (hb : Ready w find ids depth unwrapping b) :
    Ensures (collectFields w walk unwrapping package fields properties) b
      (fun properties' b' => Advances w find start b b' ∧
        HasProperties find unwrapping (.lines package fields) properties properties')
      (fun _ _ => True) := by
  have hlines : ∀ field ∈ fields, Visits find start unwrapping (.line package field) :=
    fun field hfield => hplace.inside (.line hfield) rfl
  clear hplace
  unfold collectFields
  induction fields generalizing properties b with
  | nil => exact ensures_pure ⟨.refl b, .nil⟩
  | cons field fields ih =>
    rw [List.foldlM_cons]
    apply ensures_bind
    refine (collectField_faithful hwalk properties (hlines field List.mem_cons_self) hb).mono
      (fun properties₁ b₁ h₁ => ?_) (fun _ _ h => h)
    refine (ih properties₁ (hb.advance h₁.1) fun other hother =>
      hlines other (List.mem_cons_of_mem _ hother)).mono (fun properties₂ b₂ h₂ => ?_) (fun _ _ h => h)
    exact ⟨h₁.1.trans h₂.1, .cons h₁.2 h₂.2⟩

end Step

/-- Storing the model of a struct again, now with its properties. -/
theorem Advances.put_model {r : Resolved} {fields : List Field} {properties : Dict Property}
    (hplace : Visits find start unwrapping (.declaration r)) (hr : r.decl.type = .struct fields)
    (h : Advances w find start (b.put (modelOf r ∅)) b')
    (hproperties : HasProperties find unwrapping (.lines r.package fields) ∅ properties) :
    Advances w find start b (b'.put (modelOf r properties)) := by
  refine ⟨h.find_eq, fun hid => ?_, fun id model hm => ?_⟩
  · exact Dict.mem_insert_iff.2 (.inr (h.mem (Dict.mem_insert_iff.2 (.inr hid))))
  · rw [getElem?_put_modelOf] at hm
    by_cases hid : idOf r = id
    · rw [if_pos hid, Option.some.injEq] at hm
      subst hm
      exact .inr ⟨hid, unwrapping, r, hplace, fields, properties, hr, hproperties, rfl⟩
    · rw [if_neg hid] at hm
      -- a model with another id was there before the struct was entered
      refine (h.entered id model hm).imp_left fun hold => ?_
      rwa [getElem?_put_modelOf, if_neg hid] at hold

section Declarations

variable {walk : Walk} (hwalk : walk.Faithful w find start ids depth)
include hwalk

theorem describeDecl_faithful {r : Resolved} (hid : idOf r ∈ ids)
    (hplace : Visits find start unwrapping (.declaration r))
    (hb : Ready w find ids (depth + 1) unwrapping b) :
    Ensures (describeDecl w walk unwrapping r) b
      (fun type b' => Advances w find start b b' ∧
        HasType find unwrapping (.declaration r) (some type))
      (fun _ _ => True) := by
  by_cases hr : ∃ fields, r.decl.type = .struct fields
  · obtain ⟨fields, hr⟩ := hr
    by_cases hm : idOf r ∈ b.models
    · exact ensures_of_eq_ok (describeDecl_of_mem w walk unwrapping hr hm) ⟨.refl b, .model hr⟩
    · -- the struct has a model before its lines are read, so it is not entered again
      have hready : Ready w find ids depth unwrapping (b.put (modelOf r ∅)) := hb.put hid hm
      have hfields := collectFields_faithful hwalk ∅ (hplace.lines hr) hready
      rw [Ensures, describeDecl_of_not_mem w walk unwrapping hr hm]
      rw [Ensures] at hfields
      cases hf : collectFields w walk unwrapping r.package fields ∅ (b.put (modelOf r ∅)) with
      | error e b' => trivial
      | ok properties b' =>
        rw [hf] at hfields
        exact ⟨hfields.1.put_model hplace hr hfields.2, .model hr⟩
  · rw [not_exists] at hr
    by_cases hu : idOf r ∈ unwrapping
    · rw [describeDecl_of_unwrapping w walk unwrapping hr hu]
      exact ensures_pure ⟨.refl b, .cut hr hu⟩
    · rw [describeDecl_of_other w walk unwrapping hr hu]
      have hready : Ready w find ids depth (idOf r :: unwrapping) b := hb.cons hid hu
      have hexpr := hplace.unwrap (.unwrapped hr) (Place.guard?_declaration hr) hu
      apply ensures_bind
      refine (describeExpr_faithful hwalk hexpr hready).mono (fun type b' h => ?_) (fun _ _ h => h)
      exact ensures_pure ⟨h.1, .unwrapped hr hu h.2⟩

theorem flattenDecl_faithful {r : Resolved} (properties : Dict Property) (hid : idOf r ∈ ids)
    (hplace : Visits find start unwrapping (.embedded r))
    (hb : Ready w find ids (depth + 1) unwrapping b) :
    Ensures (flattenDecl w walk unwrapping r properties) b
      (fun properties' b' => Advances w find start b b' ∧
        HasProperties find unwrapping (.embedded r) properties properties')
      (fun _ _ => True) := by
  by_cases hr : ∃ fields, r.decl.type = .struct fields
  · obtain ⟨fields, hr⟩ := hr
    by_cases hu : idOf r ∈ unwrapping
    · rw [flattenDecl_of_unwrapping w walk unwrapping hu]
      exact ensures_pure ⟨.refl b, .cut hr hu⟩
    · rw [flattenDecl_of_struct w walk unwrapping hr hu]
      have hready : Ready w find ids depth (idOf r :: unwrapping) b := hb.cons hid hu
      have hlines := hplace.unwrap (.flattened hr) (Place.guard?_embedded hr) hu
      refine (collectFields_faithful hwalk properties hlines hready).mono
        (fun properties' b' h => ?_) (fun _ _ h => h)
      exact ⟨h.1, .flattened hr hu h.2⟩
  · rw [not_exists] at hr
    rw [flattenDecl_of_other w walk unwrapping hr]
    exact ensures_pure ⟨.refl b, .other hr⟩

end Declarations

/-- A walk through listed ids never runs out of depth. -/
theorem walkWithin_faithful
    (hids : ∀ {unwrapping : List String} {place : Place}, Visits find start unwrapping place →
      place.Of fun r => idOf r ∈ ids)
    (depth : Nat) : (walkWithin w depth).Faithful w find start ids depth := by
  induction depth with
  | zero =>
    exact ⟨fun _ _ _ _ hb => absurd hb.spare_lt (Nat.not_lt_zero _),
      fun _ _ _ _ _ hb => absurd hb.spare_lt (Nat.not_lt_zero _)⟩
  | succ depth ih =>
    exact ⟨fun _ _ _ hplace hb => describeDecl_faithful ih (hids hplace) hplace hb,
      fun _ _ properties _ hplace hb => flattenDecl_faithful ih properties (hids hplace) hplace hb⟩

end Walk

/-! ## Written types -/

/-- The models that describing a name collects, starting with none. -/
theorem describeName_entered (w : Workspace) (package written : String) (s : Session) :
    Ensures (describeName w package written) { session := s }
      (fun _ b => ∀ (id : String) (model : Model), b.models[id]? = some model →
        ∃ start, s.find w written package = some start ∧
          model.id = id ∧ Entered (s.find w) start model)
      (fun _ _ => True) := by
  have hnone : ∀ (id : String) (model : Model),
      ({ session := s } : Builder).models[id]? ≠ some model := by
    intro id model hm
    simp at hm
  unfold describeName
  dsimp only
  split
  · exact ensures_pure fun id model hm => absurd hm (hnone id model)
  · exact ensures_pure fun id model hm => absurd hm (hnone id model)
  · apply ensures_bind
    apply ensures_ask
    refine (Session.findModel_spec w written package s).mono (fun start t h => ?_)
      (fun _ _ _ => trivial)
    obtain ⟨hst, hstart, -⟩ := h
    apply ensures_bind
    apply ensures_get
    rw [depthBound_of_locating hst]
    have hwalk : (walkWithin w (depthBound s)).Faithful w (s.find w) start
        (idsInReach s package written) (depthBound s) :=
      walkWithin_faithful (fun hplace => hplace.reached.idsInReach hstart) _
    refine (hwalk.describe [] start _ .start (ready_of_find_eq package written [] hst.find_eq)).mono
      (fun type b h id model hm => ?_) (fun _ _ h => h)
    rcases h.1.entered id model hm with hold | hnew
    · simp at hold
    · exact ⟨start, hstart, hnew⟩

/-- Each model that describing a written type gives is that of a struct which is visited from
the declaration that the type names. -/
theorem run_entered (w : Workspace) (package written : String) (s : Session) :
    Ensures (run w package written) s
      (fun described _ => ∀ (id : String) (model : Model), described.2[id]? = some model →
        ∃ start, s.find w (elementName written.toList) package = some start ∧
          model.id = id ∧ Entered (s.find w) start model)
      (fun _ _ => True) := by
  apply ensures_run
  refine describeWritten_rule (P := fun x => Ensures x _ _ _) (fun x hx => ?_) _
    (describeName_entered w package _ s)
  apply ensures_bind
  exact hx.mono (fun _ _ h => ensures_pure h) (fun _ _ h => h)

end ApiDocs.Swagger.Builder
