/-
  ApiDocs.Proofs.Swagger.Depth

  Describing a type comes to an end. A walk enters declarations one inside the other, and its
  definition bounds how deep it goes. The bound is never felt: whatever a walk does when it has
  entered that many declarations, the answer is the same (`iterate_agrees`), because each
  declaration that is entered takes one of finitely many ids away. So the walk without a bound,
  which is given by what it does in one declaration (`Walk.enter`), is what describing a type
  follows.
-/

import ApiDocs.Proofs.Requests
import ApiDocs.Proofs.Swagger.Visits
import Mathlib.Logic.Function.Iterate

namespace ApiDocs.Swagger.Builder

open Source (TypeExpr Field)
open Package (Resolved)

/-! ## One level -/

/-- The walk that enters a declaration and goes on by another walk inside it. -/
def Walk.enter (w : Workspace) (inner : Walk) : Walk where
  describe := describeDecl w inner
  flatten := flattenDecl w inner

/-- A walk is made of levels, down to the one that enters nothing. -/
theorem iterate_walkWithin (w : Workspace) (depth more : Nat) :
    (Walk.enter w)^[depth] (walkWithin w more) = walkWithin w (depth + more) := by
  induction depth with
  | zero => rw [Function.iterate_zero_apply, Nat.zero_add]
  | succ depth ih =>
    rw [Function.iterate_succ_apply', ih, Nat.add_right_comm]
    rfl

/-! ## Written types -/

/-- The data type of a written name that needs no declaration. -/
def plainType? (written : String) : Option DataType :=
  let parts := Text.pieces '.' written
  (predeclared? written).or (wellKnown? (".".intercalate parts.dropLast) (parts.getLastD ""))

/-- The data type of a written type, by a given walk through declarations. -/
def describeBy (w : Workspace) (walk : Walk) (package written : String) : BuilderM DataType :=
  go written.toList
where
  /-- The data type of what is written, with its brackets. -/
  go : List Char → BuilderM DataType
    | '[' :: ']' :: element => do return .array (← go element)
    | name =>
      match plainType? (String.ofList name) with
      | some type => return type
      | none => do walk.describe [] (← ask (Session.findModel w (String.ofList name) package))

/-- Describing the written type can come to the place: to the declaration that its name refers
to, or on from there. -/
def Reaches (find : Lookup) (package written : String) (place : Place) : Prop :=
  ∃ start, plainType? (elementName written.toList) = none ∧
    find (elementName written.toList) package = some start ∧ Leads find (.declaration start) place

/-! ## What a walk leaves alone -/

/-- Names are looked up as before, and no model is lost. -/
structure Continues (w : Workspace) (b b' : Builder) : Prop where
  find_eq : b'.session.find w = b.session.find w
  mem : ∀ {id : String}, id ∈ b.models → id ∈ b'.models

instance (w : Workspace) : IsPreorder Builder (Continues w) where
  refl _ := ⟨rfl, id⟩
  trans _ _ _ h h' := ⟨h'.find_eq.trans h.find_eq, h'.mem ∘ h.mem⟩

theorem rules_continues (w : Workspace) :
    Rules w fun (α : Type) (x : BuilderM α) => Keeps (Continues w) x where
  toSequential := (compositional_keeps (Continues w)).toSequential
  find reference package := fun b =>
    ensures_ask ((Session.keeps_findModel w reference package b.session).mono
      (fun _ _ h => ⟨h.find_eq, id⟩) (fun _ _ h => ⟨h.find_eq, id⟩))
  store _ := fun _ => ensures_modify ⟨rfl, fun h => Dict.mem_insert_iff.2 (.inr h)⟩
  inspect _ hf := keeps_get.bind hf

section Agreement

variable {w : Workspace} {find : Lookup} {start : Resolved} {ids : List String} {depth : Nat}
  {unwrapping : List String} {b b' : Builder}

theorem Ready.continues (h : Ready w find ids depth unwrapping b) (h' : Continues w b b') :
    Ready w find ids depth unwrapping b' :=
  ⟨h'.find_eq.trans h.find_eq, Nat.lt_of_le_of_lt (spare_mono h'.mem) h.spare_lt⟩

/-! ## Two walks that agree -/

/-- The walks give the same wherever a walk from `start` can come, as long as fewer than `depth`
declarations can be entered. -/
structure Walk.Agrees (w : Workspace) (find : Lookup) (start : Resolved) (ids : List String)
    (depth : Nat) (walk walk' : Walk) : Prop where
  describe : ∀ (unwrapping : List String) (r : Resolved) (b : Builder),
    Leads find (.declaration start) (.declaration r) → Ready w find ids depth unwrapping b →
    walk.describe unwrapping r b = walk'.describe unwrapping r b
  flatten : ∀ (unwrapping : List String) (r : Resolved) (properties : Dict Property) (b : Builder),
    Leads find (.declaration start) (.embedded r) → Ready w find ids depth unwrapping b →
    walk.flatten unwrapping r properties b = walk'.flatten unwrapping r properties b

section Step

variable {walk walk' : Walk} (hwalk : walk.Agrees w find start ids depth walk')
include hwalk

theorem describeExpr_agrees {package : String} {type : TypeExpr}
    (hplace : Leads find (.declaration start) (.expression package type))
    (hb : Ready w find ids depth unwrapping b) :
    describeExpr w walk unwrapping package type b =
      describeExpr w walk' unwrapping package type b := by
  fun_induction describeExpr w walk' unwrapping package type with
  | case1 qualifier name type hbuiltin => rw [describeExpr, hbuiltin]
  | case2 qualifier name hbuiltin =>
    rw [describeExpr, hbuiltin]
    apply bind_congr_of_ensures
    refine (ask_findModel start (reference qualifier name) package hb.find_eq).mono
      (fun r b₁ h₁ => ?_) (fun _ _ h => h)
    obtain ⟨h₁, hfind⟩ := h₁
    have hr : Leads find (.declaration start) (.declaration r) :=
      hplace.tail (.inside (.named hbuiltin hfind))
    rw [bind_apply, bind_apply, hwalk.describe unwrapping r b₁ hr (hb.advance h₁)]
  | case3 target ih =>
    rw [describeExpr]
    exact ih (hplace.tail (.inside .pointer))
  | case4 element ih =>
    rw [describeExpr, bind_apply, bind_apply, ih (hplace.tail (.inside .slice))]
  | case5 element ih =>
    rw [describeExpr, bind_apply, bind_apply, ih (hplace.tail (.inside .array))]
  | case6 | case7 | case8 | case9 | case10 | case11 => rw [describeExpr]

theorem collectField_agrees {package : String} {field : Field} (properties : Dict Property)
    (hplace : Leads find (.declaration start) (.line package field))
    (hb : Ready w find ids depth unwrapping b) :
    collectField w walk unwrapping package properties field b =
      collectField w walk' unwrapping package properties field b := by
  rcases silent_or_documented_or_embeds field with hfield | hfield | ⟨name, hfield⟩
  · rw [collectField_of_silent w walk unwrapping package hfield,
      collectField_of_silent w walk' unwrapping package hfield]
  · have hexpr := describeExpr_agrees hwalk (hplace.tail (.inside (.documented hfield))) hb
    rw [collectField_of_documented w walk unwrapping package hfield,
      collectField_of_documented w walk' unwrapping package hfield, bind_apply, bind_apply, hexpr]
  · rw [collectField_of_embeds w walk unwrapping package hfield,
      collectField_of_embeds w walk' unwrapping package hfield]
    apply bind_congr_of_ensures
    refine (ask_findModel start name package hb.find_eq).mono (fun r b₁ h₁ => ?_) (fun _ _ h => h)
    obtain ⟨h₁, hfind⟩ := h₁
    have hr : Leads find (.declaration start) (.embedded r) :=
      hplace.tail (.inside (.embeds hfield hfind))
    exact hwalk.flatten unwrapping r properties b₁ hr (hb.advance h₁)

variable (hkeeps : walk'.Has fun (α : Type) (x : BuilderM α) => Keeps (Continues w) x)
include hkeeps

theorem collectFields_agrees {package : String} {fields : List Field} (properties : Dict Property)
    (hplace : Leads find (.declaration start) (.lines package fields))
    (hb : Ready w find ids depth unwrapping b) :
    collectFields w walk unwrapping package fields properties b =
      collectFields w walk' unwrapping package fields properties b := by
  have hlines : ∀ field ∈ fields, Leads find (.declaration start) (.line package field) :=
    fun field hfield => hplace.tail (.inside (.line hfield))
  clear hplace
  unfold collectFields
  induction fields generalizing properties b with
  | nil => rfl
  | cons field fields ih =>
    have hfield := collectField_agrees hwalk properties (hlines field List.mem_cons_self) hb
    rw [List.foldlM_cons, List.foldlM_cons, bind_apply, hfield]
    -- the second walk leaves a builder from which both go on alike
    apply bind_congr_of_ensures (x := collectField w walk' unwrapping package properties field)
    refine ((rules_continues w).collectField hkeeps unwrapping package properties field b).mono
      (fun properties₁ b₁ h₁ => ?_) (fun _ _ _ => trivial)
    exact ih properties₁ (hb.continues h₁) fun other hother =>
      hlines other (List.mem_cons_of_mem _ hother)

theorem describeDecl_agrees {r : Resolved} (hid : idOf r ∈ ids)
    (hplace : Leads find (.declaration start) (.declaration r))
    (hb : Ready w find ids (depth + 1) unwrapping b) :
    describeDecl w walk unwrapping r b = describeDecl w walk' unwrapping r b := by
  by_cases hr : ∃ fields, r.decl.type = .struct fields
  · obtain ⟨fields, hr⟩ := hr
    by_cases hm : idOf r ∈ b.models
    · rw [describeDecl_of_mem w walk unwrapping hr hm, describeDecl_of_mem w walk' unwrapping hr hm]
    · have hready : Ready w find ids depth unwrapping (b.put (modelOf r ∅)) := hb.put hid hm
      rw [describeDecl_of_not_mem w walk unwrapping hr hm,
        describeDecl_of_not_mem w walk' unwrapping hr hm,
        collectFields_agrees hwalk hkeeps ∅ (hplace.tail (.lines hr)) hready]
  · rw [not_exists] at hr
    by_cases hu : idOf r ∈ unwrapping
    · rw [describeDecl_of_unwrapping w walk unwrapping hr hu,
        describeDecl_of_unwrapping w walk' unwrapping hr hu]
    · have hready : Ready w find ids depth (idOf r :: unwrapping) b := hb.cons hid hu
      have hexpr := describeExpr_agrees hwalk (hplace.tail (.inside (.unwrapped hr))) hready
      rw [describeDecl_of_other w walk unwrapping hr hu,
        describeDecl_of_other w walk' unwrapping hr hu, bind_apply, bind_apply, hexpr]

theorem flattenDecl_agrees {r : Resolved} (properties : Dict Property) (hid : idOf r ∈ ids)
    (hplace : Leads find (.declaration start) (.embedded r))
    (hb : Ready w find ids (depth + 1) unwrapping b) :
    flattenDecl w walk unwrapping r properties b = flattenDecl w walk' unwrapping r properties b := by
  by_cases hr : ∃ fields, r.decl.type = .struct fields
  · obtain ⟨fields, hr⟩ := hr
    by_cases hu : idOf r ∈ unwrapping
    · rw [flattenDecl_of_unwrapping w walk unwrapping hu,
        flattenDecl_of_unwrapping w walk' unwrapping hu]
    · have hready : Ready w find ids depth (idOf r :: unwrapping) b := hb.cons hid hu
      rw [flattenDecl_of_struct w walk unwrapping hr hu,
        flattenDecl_of_struct w walk' unwrapping hr hu]
      exact collectFields_agrees hwalk hkeeps properties (hplace.tail (.inside (.flattened hr))) hready
  · rw [not_exists] at hr
    rw [flattenDecl_of_other w walk unwrapping hr, flattenDecl_of_other w walk' unwrapping hr]

end Step

/-- What a walk does at the bottom does not matter if fewer declarations can be entered than
there are levels above it. -/
theorem iterate_agrees
    (hids : ∀ {place : Place}, Leads find (.declaration start) place →
      place.Of fun r => idOf r ∈ ids)
    (bottom : Walk) (depth : Nat) :
    ((Walk.enter w)^[depth] bottom).Agrees w find start ids depth (walkWithin w depth) := by
  induction depth with
  | zero =>
    exact ⟨fun _ _ _ _ hb => absurd hb.spare_lt (Nat.not_lt_zero _),
      fun _ _ _ _ _ hb => absurd hb.spare_lt (Nat.not_lt_zero _)⟩
  | succ depth ih =>
    have hkeeps := (rules_continues w).walkWithin depth
    rw [Function.iterate_succ_apply']
    exact ⟨fun _ _ _ hplace hb => describeDecl_agrees ih hkeeps (hids hplace) hplace hb,
      fun _ _ properties _ hplace hb => flattenDecl_agrees ih hkeeps properties (hids hplace) hplace hb⟩

end Agreement

/-! ## Whole types -/

theorem describeName_of_plain {w : Workspace} {package written : String} {type : DataType}
    (h : plainType? written = some type) : describeName w package written = pure type := by
  simp only [describeName]
  simp only [plainType?] at h
  cases hp : predeclared? written with
  | some type' =>
    rw [hp, Option.some_or, Option.some.injEq] at h
    rw [h]
  | none =>
    rw [hp, Option.none_or] at h
    rw [h]

theorem describeName_of_not_plain {w : Workspace} {package written : String}
    (h : plainType? written = none) :
    describeName w package written = (do
      let resolved ← ask (Session.findModel w written package)
      (walkWithin w (depthBound (← get).session)).describe [] resolved) := by
  simp only [describeName]
  simp only [plainType?, Option.or_eq_none_iff] at h
  rw [h.1, h.2]

/-- A written name is described at once, or it is looked up: then the declaration is walked through
with the depth that the builder allows at the start, since looking the name up does not change it. -/
theorem ensures_describeName {w : Workspace} {package written : String} {b : Builder}
    {Q : DataType → Builder → Prop} {E : Error → Builder → Prop}
    (hplain : ∀ type, plainType? written = some type → Q type b)
    (hfound : ∀ start t, plainType? written = none → b.session.find w written package = some start →
      Session.Changes w [.locating] b.session t →
      Ensures ((walkWithin w (depthBound b.session)).describe [] start) { b with session := t } Q E)
    (hmissing : ∀ fault t, plainType? written = none → b.session.find w written package = none →
      E (.modelNotFound written package fault) { b with session := t }) :
    Ensures (describeName w package written) b Q E := by
  cases h : plainType? written with
  | some type =>
    rw [describeName_of_plain h]
    exact ensures_pure (hplain type h)
  | none =>
    rw [describeName_of_not_plain h]
    apply ensures_bind
    apply ensures_ask
    refine ((Session.findModel_spec w written package b.session).and
      (Session.findModel_fault w written package b.session)).mono (fun start t ht => ?_)
      (fun e t ht => ?_)
    · obtain ⟨⟨hst, hstart, -⟩, -⟩ := ht
      apply ensures_bind
      apply ensures_get
      rw [depthBound_of_locating hst]
      exact hfound start t h hstart hst
    · obtain ⟨⟨-, hnone⟩, fault, rfl, -⟩ := ht
      exact hmissing fault t h hnone

/-- The bound is that of the builder at the start, since looking the name up does not change it. -/
theorem describe_eq_describeBy (w : Workspace) (package written : String) (b : Builder) :
    describe w package written b =
      describeBy w (walkWithin w (depthBound b.session)) package written b := by
  rw [describe, describeBy]
  fun_induction describeBy.go w (walkWithin w (depthBound b.session)) package written.toList with
  | case1 element ih => rw [describeWritten, bind_apply, bind_apply, ih]
  | case2 name hname type hplain =>
    rw [describeWritten.eq_2 w package name hname, describeName_of_plain hplain]
  | case3 name hname hplain =>
    rw [describeWritten.eq_2 w package name hname, describeName_of_not_plain hplain]
    apply bind_congr_of_ensures
    refine (keeps_ask (Session.keeps_findModel w (String.ofList name) package) b).mono
      (fun start b₁ h₁ => ?_) (fun _ _ h => h)
    show (walkWithin w (depthBound b₁.session)).describe [] start b₁ = _
    rw [depthBound_of_locating h₁]

/-- Describing a written type depends on the walk only at the declaration that its name refers
to. -/
theorem describeBy_congr {w : Workspace} {walk walk' : Walk} {package written : String} {b : Builder}
    (h : plainType? (elementName written.toList) = none → ∀ start b',
      b.session.find w (elementName written.toList) package = some start →
      b'.session.find w = b.session.find w → walk.describe [] start b' = walk'.describe [] start b') :
    describeBy w walk package written b = describeBy w walk' package written b := by
  rw [describeBy, describeBy]
  generalize written.toList = written at h
  fun_induction describeBy.go w walk' package written with
  | case1 element ih => rw [describeBy.go, bind_apply, bind_apply, ih h]
  | case2 name hname type hplain => rw [describeBy.go.eq_2 _ _ _ name hname, hplain]
  | case3 name hname hplain =>
    rw [elementName.eq_2 name hname] at h
    rw [describeBy.go.eq_2 _ _ _ name hname, hplain]
    apply bind_congr_of_ensures (E := fun _ _ => True)
    apply ensures_ask
    refine (Session.findModel_spec w (String.ofList name) package b.session).mono
      (fun start t ht => ?_) (fun _ _ _ => trivial)
    exact h hplain start _ ht.2.1 ht.1.find_eq

/-- **Describing a type comes to an end**, whatever the builder holds and however declarations
refer to each other. No more than `depthBound` declarations are ever entered one inside the other:
with as many levels or more, whatever a walk would do below them does not show. So there is a walk
that describes the type and that does, at every declaration it can come to and whatever is being
unwrapped there, what is to be done by going on with itself, without any bound. -/
theorem describe_terminates (w : Workspace) (b : Builder) (package written : String) :
    (∀ (bottom : Walk) (depth : Nat), depthBound b.session ≤ depth →
      describeBy w ((Walk.enter w)^[depth] bottom) package written b = describe w package written b) ∧
    ∃ walk : Walk, describeBy w walk package written b = describe w package written b ∧
      ∀ (unwrapping : List String) (r : Resolved) (b' : Builder),
        b'.session.find w = b.session.find w →
        (Reaches (b.session.find w) package written (.declaration r) →
          walk.describe unwrapping r b' = describeDecl w walk unwrapping r b' ∧
          ∀ (bottom : Walk) (depth : Nat), depthBound b.session ≤ depth →
            ((Walk.enter w)^[depth] bottom).describe unwrapping r b' =
              walk.describe unwrapping r b') ∧
        (Reaches (b.session.find w) package written (.embedded r) → ∀ properties,
          walk.flatten unwrapping r properties b' = flattenDecl w walk unwrapping r properties b' ∧
          ∀ (bottom : Walk) (depth : Nat), depthBound b.session ≤ depth →
            ((Walk.enter w)^[depth] bottom).flatten unwrapping r properties b' =
              walk.flatten unwrapping r properties b') := by
  have hready : ∀ unwrapping b', b'.session.find w = b.session.find w → Ready w (b.session.find w)
      (idsInReach b.session package (elementName written.toList)) (depthBound b.session) unwrapping b' :=
    fun unwrapping b' hb' => ready_of_find_eq package _ unwrapping hb'
  have hdeep : ∀ start, b.session.find w (elementName written.toList) package = some start →
      ∀ (bottom : Walk) (depth : Nat), depthBound b.session ≤ depth →
        ((Walk.enter w)^[depth] bottom).Agrees w (b.session.find w) start
          (idsInReach b.session package (elementName written.toList)) (depthBound b.session)
          (walkWithin w (depthBound b.session)) := by
    intro start hstart bottom depth hdepth
    -- the levels beyond the bound belong to the bottom
    obtain ⟨more, rfl⟩ := Nat.exists_eq_add_of_le hdepth
    rw [Function.iterate_add_apply]
    exact iterate_agrees (fun hplace => hplace.idsInReach hstart) _ _
  have hlevel : ∀ start, b.session.find w (elementName written.toList) package = some start →
      ((walkWithin w (depthBound b.session)).enter w).Agrees w (b.session.find w) start
        (idsInReach b.session package (elementName written.toList)) (depthBound b.session)
        (walkWithin w (depthBound b.session)) := by
    intro start hstart
    -- one level more makes no difference, so the walk goes on with itself
    have hmore := hdeep start hstart (walkWithin w 1) _ (Nat.le_refl _)
    rwa [iterate_walkWithin] at hmore
  refine ⟨fun bottom depth hdepth => ?_, walkWithin w (depthBound b.session),
    (describe_eq_describeBy w package written b).symm, fun unwrapping r b' hb' => ⟨?_, ?_⟩⟩
  · rw [describe_eq_describeBy]
    refine describeBy_congr fun _ start b' hstart hb' => ?_
    exact (hdeep start hstart bottom depth hdepth).describe [] start b' .refl (hready [] b' hb')
  · rintro ⟨start, -, hstart, hplace⟩
    have hr := hready unwrapping b' hb'
    exact ⟨((hlevel start hstart).describe unwrapping r b' hplace hr).symm,
      fun bottom depth hdepth =>
        (hdeep start hstart bottom depth hdepth).describe unwrapping r b' hplace hr⟩
  · rintro ⟨start, -, hstart, hplace⟩ properties
    have hr := hready unwrapping b' hb'
    exact ⟨((hlevel start hstart).flatten unwrapping r properties b' hplace hr).symm,
      fun bottom depth hdepth =>
        (hdeep start hstart bottom depth hdepth).flatten unwrapping r properties b' hplace hr⟩

/-- A list whose elements embed a struct that embeds them in turn, with fields that lead back to
the list and to the elements. One field, and one more struct, mention a type that is declared
nowhere. -/
def tangle : Workspace :=
  ((Workspace.empty.put ["src"] .directory).put ["src", "p"] .directory).put
    ["src", "p", "a.go"]
    (.file ("package p\ntype A []B\ntype B struct \x7b\n C\n X *B\n d D\n\x7d\n" ++
      "type C struct \x7b\n B\n Y A\n\x7d\ntype E struct \x7b\n Z D\n\x7d\n").toUTF8)

/-- Below the bound, a walk may as well fail: the list is described all the same. -/
theorem describe_terminates_tangle :
    let b : Builder :=
      { session := ({ roots := ⟨["src"], none⟩ } : Session).after [(tangle, .buildTypes "p")] }
    let failing : Walk :=
      { describe := fun _ _ => throw .noSearchPath, flatten := fun _ _ _ => throw .noSearchPath }
    isOk (describe tangle "p" "A" b) = true ∧
      describeBy tangle ((Walk.enter tangle)^[depthBound b.session] failing) "p" "A" b =
        describe tangle "p" "A" b := by
  intro b failing
  exact ⟨by decide +kernel, (describe_terminates tangle b "p" "A").1 failing _ (Nat.le_refl _)⟩

end ApiDocs.Swagger.Builder
