/-
  ApiDocs.Proofs.Swagger.References

  The models that are mentioned are the models that are there. `Closed models` says that each
  model is stored under its own id and that its properties refer only to stored models. It
  holds at every moment of a walk through declarations: a struct gets its model, without
  properties, before its fields are read, and properties refer to what has been described.
  So it also holds where the walk is cut off or fails.
-/

import ApiDocs.Proofs.Swagger.Walk

namespace ApiDocs.Swagger

open Source (TypeExpr Field)
open Package (Resolved)

/-! ## Mentioned models -/

/-- The models that a property refers to, itself or as the elements of an array. -/
def Property.mentions (property : Property) : List String :=
  property.reference.toList ++ (property.items.bind (·.reference)).toList

/-- The properties refer only to the given models. -/
def Covers (models : Dict Model) (properties : Dict Property) : Prop :=
  ∀ (name : String) (property : Property), properties[name]? = some property →
    ∀ id ∈ property.mentions, id ∈ models

/-- Models that are stored under their own ids and refer only to each other. -/
structure Closed (models : Dict Model) : Prop where
  stored_by_id : ∀ (key : String) (model : Model), models[key]? = some model → model.id = key
  covered : ∀ (key : String) (model : Model), models[key]? = some model →
    Covers models model.properties

/-- From `models` to `models'` no model is lost, and closed models stay closed. -/
structure Grows (models models' : Dict Model) : Prop where
  mem : ∀ {id : String}, id ∈ models → id ∈ models'
  closed : Closed models → Closed models'

instance : IsPreorder (Dict Model) Grows where
  refl _ := ⟨id, id⟩
  trans _ _ _ h h' := ⟨h'.mem ∘ h.mem, h'.closed ∘ h.closed⟩

theorem Covers.mono {models models' : Dict Model} {properties : Dict Property}
    (h : Covers models properties) (hmem : ∀ {id : String}, id ∈ models → id ∈ models') :
    Covers models' properties :=
  fun name property hp id hid => hmem (h name property hp id hid)

theorem covers_empty (models : Dict Model) : Covers models ∅ := by
  intro name property hp
  simp at hp

theorem closed_empty : Closed ∅ := by
  constructor <;> intro key model hm <;> simp at hm

theorem Covers.insert {models : Dict Model} {properties : Dict Property} {property : Property}
    (h : Covers models properties) (hp : ∀ id ∈ property.mentions, id ∈ models) (name : String) :
    Covers models (properties.insert name property) := by
  intro other property' hother
  rw [Dict.getElem?_insert] at hother
  by_cases hn : name = other
  · rw [if_pos hn, Option.some.injEq] at hother
    exact hother ▸ hp
  · rw [if_neg hn] at hother
    exact h other property' hother

/-- A model whose properties refer to stored models, or to itself, may be stored. -/
theorem grows_insert {models : Dict Model} {model : Model}
    (h : Covers (models.insert model.id model) model.properties) :
    Grows models (models.insert model.id model) := by
  have hmem : ∀ {id : String}, id ∈ models → id ∈ models.insert model.id model :=
    fun hid => Dict.mem_insert_iff.2 (.inr hid)
  have hentry : ∀ (key : String) (other : Model),
      (models.insert model.id model)[key]? = some other →
        (model.id = key ∧ model = other) ∨ models[key]? = some other := by
    intro key other ho
    rw [Dict.getElem?_insert] at ho
    by_cases hk : model.id = key
    · rw [if_pos hk, Option.some.injEq] at ho
      exact .inl ⟨hk, ho⟩
    · rw [if_neg hk] at ho
      exact .inr ho
  refine ⟨hmem, fun hc => ⟨fun key other ho => ?_, fun key other ho => ?_⟩⟩
  · rcases hentry key other ho with ⟨hk, rfl⟩ | ho
    · exact hk
    · exact hc.stored_by_id key other ho
  · rcases hentry key other ho with ⟨hk, rfl⟩ | ho
    · exact h
    · exact (hc.covered key other ho).mono hmem

/-- Closed models put over closed models are closed. -/
theorem closed_extend {base other : Dict Model} (hb : Closed base) (ho : Closed other) :
    Closed (base.extend other) := by
  have hentry : ∀ (key : String) (model : Model), (base.extend other)[key]? = some model →
      other[key]? = some model ∨ base[key]? = some model := by
    intro key model hm
    rw [Dict.getElem?_extend, Option.or_eq_some_iff] at hm
    exact hm.imp_right And.right
  refine ⟨fun key model hm => ?_, fun key model hm => ?_⟩
  · rcases hentry key model hm with h | h
    · exact ho.stored_by_id key model h
    · exact hb.stored_by_id key model h
  · rcases hentry key model hm with h | h
    · exact (ho.covered key model h).mono fun hid => Dict.mem_extend.2 (.inl hid)
    · exact (hb.covered key model h).mono fun hid => Dict.mem_extend.2 (.inr hid)

/-! ## Data types -/

namespace DataType

/-- The data types of the names that need no declaration. -/
def builtins : List DataType :=
  [.primitive "boolean" none, .primitive "integer" (some "int32"),
    .primitive "integer" (some "int64"), .primitive "number" (some "float"),
    .primitive "number" (some "double"), .primitive "string" none,
    .primitive "string" (some "date-time"), .object]

theorem mem_builtins_of_predeclared {name : String} {type : DataType}
    (h : predeclared? name = some type) : type ∈ builtins := by
  unfold predeclared? at h
  split at h <;> cases h <;> decide

theorem mem_builtins_of_wellKnown {qualifier name : String} {type : DataType}
    (h : wellKnown? qualifier name = some type) : type ∈ builtins := by
  unfold wellKnown? at h
  split at h <;> cases h
  decide

theorem mem_builtins_of_builtin {qualifier : Option String} {name : String} {type : DataType}
    (h : Builder.builtin? qualifier name = some type) : type ∈ builtins := by
  cases qualifier with
  | some qualifier => exact mem_builtins_of_wellKnown h
  | none =>
    rw [Builder.builtin?] at h
    split at h
    · cases h
      decide
    · exact mem_builtins_of_predeclared h

/-- The data type mentions only the given models; the name of a primitive type, which has no
point in it, is not taken for a model's. -/
def KnownIn (models : Dict Model) : DataType → Prop
  | primitive typeName _ => '.' ∉ typeName.toList
  | model id => id ∈ models
  | array element => KnownIn models element
  | object => True

variable {models models' : Dict Model} {type : DataType}

theorem KnownIn.mono (h : type.KnownIn models) (hmem : ∀ {id : String}, id ∈ models → id ∈ models') :
    type.KnownIn models' := by
  induction type with
  | primitive => exact h
  | model => exact hmem h
  | array element ih => exact ih h
  | object => trivial

theorem KnownIn.toItems (h : type.KnownIn models) : ∀ id ∈ type.toItems.reference, id ∈ models := by
  cases type with
  | model id => rintro _ ⟨⟩; exact h
  | primitive | array | object => intro id hid; cases hid

theorem KnownIn.toProperty (h : type.KnownIn models) :
    ∀ id ∈ type.toProperty.mentions, id ∈ models := by
  intro id hid
  cases type with
  | primitive | object => cases hid
  | model other =>
    obtain rfl : id = other := by simpa [DataType.toProperty, Property.mentions] using hid
    exact h
  | array element =>
    have hid : element.toItems.reference = some id := by
      simpa [DataType.toProperty, Property.mentions] using hid
    have helement : element.KnownIn models := h
    exact helement.toItems id hid

theorem KnownIn.items (h : type.KnownIn models) :
    ∀ items ∈ type.items?, ∀ id ∈ items.reference, id ∈ models := by
  cases type with
  | array element =>
    have helement : element.KnownIn models := h
    rintro _ ⟨⟩
    exact helement.toItems
  | primitive | model | object => intro items hi; cases hi

theorem KnownIn.modelId (h : type.KnownIn models) : ∀ id ∈ type.modelId?, id ∈ models := by
  intro id hid
  match type, h, hid with
  | .model _, h, rfl => exact h
  | .array (.model _), h, rfl => exact h

/-- A type's name with a point in it is the id of a model. -/
theorem KnownIn.typeName (h : type.KnownIn models) (hpoint : '.' ∈ type.typeName.toList) :
    type.typeName ∈ models := by
  cases type with
  | primitive => exact absurd hpoint h
  | model => exact h
  | array element => exact absurd hpoint (by decide : '.' ∉ "array".toList)
  | object => exact absurd hpoint (by decide)

/-- The name of a type that needs no declaration is not taken for a model's. -/
theorem knownIn_of_mem_builtins (h : type ∈ builtins) : type.KnownIn models := by
  have hall : ∀ type ∈ builtins, type.KnownIn models := by simp [builtins, KnownIn]
  exact hall type h

end DataType

/-! ## The walk through declarations -/

namespace Builder

/-- From one builder to the other no model is lost, and closed models stay closed. -/
def Enlarges (b b' : Builder) : Prop := Grows b.models b'.models

instance : IsPreorder Builder Enlarges where
  refl b := refl_of Grows b.models
  trans _ _ _ := trans_of Grows

/-- The computation gives a data type whose models are stored. -/
def Describes (x : BuilderM DataType) : Prop :=
  ∀ b, Ensures x b (fun type b' => b.Enlarges b' ∧ type.KnownIn b'.models) (fun _ b' => b.Enlarges b')

/-- The computation adds properties whose models are stored to such properties. -/
def Collects (properties : Dict Property) (x : BuilderM (Dict Property)) : Prop :=
  ∀ b, Covers b.models properties →
    Ensures x b (fun properties' b' => b.Enlarges b' ∧ Covers b'.models properties')
      (fun _ b' => b.Enlarges b')

/-- A walk that describes by models which it has stored, whether or not it succeeds. -/
structure Walk.Sound (walk : Walk) : Prop where
  describe : ∀ (unwrapping : List String) (r : Resolved), Describes (walk.describe unwrapping r)
  flatten : ∀ (unwrapping : List String) (r : Resolved) (properties : Dict Property),
    Collects properties (walk.flatten unwrapping r properties)

/-- Looking something up leaves the models alone. -/
theorem ask_models {α : Type} (x : SessionM α) (b : Builder) :
    Ensures (ask x) b (fun _ b' => b'.models = b.models) (fun _ b' => b'.models = b.models) := by
  apply ensures_ask
  rw [Ensures]
  cases x b.session <;> rfl

theorem covers_addProperties {models : Dict Model} {properties : Dict Property} {type : DataType}
    (hp : Covers models properties) (ht : type.KnownIn models) (field : Field)
    (exported : List String) : Covers models (addProperties field exported type properties) := by
  -- a description mentions nothing
  have hproperty : ∀ id ∈ { type.toProperty with description := docText field.doc }.mentions,
      id ∈ models := ht.toProperty
  unfold addProperties
  induction exported generalizing properties with
  | nil => exact hp
  | cons name exported ih => exact ih (hp.insert hproperty _)

section Walk

variable (w : Workspace) {walk : Walk} (hwalk : walk.Sound)
include hwalk

theorem describeExpr_sound (unwrapping : List String) (package : String) (expr : TypeExpr)
    (b : Builder) :
    Ensures (describeExpr w walk unwrapping package expr) b
      (fun type b' => b.Enlarges b' ∧ ∀ t ∈ type, t.KnownIn b'.models)
      (fun _ b' => b.Enlarges b') := by
  have hskip : b.Enlarges b := refl_of Enlarges b
  fun_induction describeExpr w walk unwrapping package expr with
  | case1 qualifier name type hb =>
    refine ensures_pure ⟨hskip, ?_⟩
    rintro _ ⟨⟩
    exact DataType.knownIn_of_mem_builtins (DataType.mem_builtins_of_builtin hb)
  | case2 qualifier name hb =>
    apply ensures_bind
    refine (ask_models _ b).mono (fun r b₁ h₁ => ?_) (fun _ b₁ h₁ => ?_)
    · apply ensures_bind
      refine (hwalk.describe unwrapping r b₁).mono (fun type b₂ h₂ => ?_) (fun _ b₂ h₂ => ?_)
      · rw [Enlarges, h₁] at h₂
        refine ensures_pure ⟨h₂.1, ?_⟩
        rintro _ ⟨⟩
        exact h₂.2
      · rwa [Enlarges, h₁] at h₂
    · rw [Enlarges, h₁]
      exact refl_of Grows _
  | case3 target ih => exact ih
  | case4 element ih | case5 element ih =>
    apply ensures_bind
    refine ih.mono (fun type b' h => ensures_pure ⟨h.1, ?_⟩) (fun _ _ h => h)
    intro t ht
    obtain ⟨elementType, he, rfl⟩ := Option.map_eq_some_iff.1 ht
    exact h.2 elementType he
  | case6 | case7 | case8 => exact ensures_pure ⟨hskip, by rintro _ ⟨⟩; trivial⟩
  | case9 | case10 | case11 => exact ensures_pure ⟨hskip, by rintro _ ⟨⟩⟩

theorem collectField_sound (unwrapping : List String) (package : String)
    (properties : Dict Property) (field : Field) :
    Collects properties (collectField w walk unwrapping package properties field) := by
  intro b hp
  rcases silent_or_documented_or_embeds field with hfield | hfield | ⟨name, hfield⟩
  · rw [collectField_of_silent w walk unwrapping package hfield]
    exact ensures_pure ⟨refl_of Enlarges b, hp⟩
  · rw [collectField_of_documented w walk unwrapping package hfield]
    apply ensures_bind
    refine (describeExpr_sound w hwalk unwrapping package field.type b).mono
      (fun type b' h => ?_) (fun _ _ h => h)
    cases type with
    | none => exact ensures_pure ⟨h.1, hp.mono h.1.mem⟩
    | some type =>
      exact ensures_pure ⟨h.1, covers_addProperties (hp.mono h.1.mem) (h.2 type rfl) field _⟩
  · rw [collectField_of_embeds w walk unwrapping package hfield]
    apply ensures_bind
    refine (ask_models _ b).mono (fun r b₁ h₁ => ?_) (fun _ b₁ h₁ => ?_)
    · have := hwalk.flatten unwrapping r properties b₁ (h₁ ▸ hp)
      simpa only [Enlarges, h₁] using this
    · rw [Enlarges, h₁]
      exact refl_of Grows _

theorem collectFields_sound (unwrapping : List String) (package : String) (fields : List Field)
    (properties : Dict Property) :
    Collects properties (collectFields w walk unwrapping package fields properties) := by
  intro b hp
  apply ensures_foldlM (I := fun properties' b' => b.Enlarges b' ∧ Covers b'.models properties')
  · exact ⟨refl_of Enlarges b, hp⟩
  · rintro field - properties' b' ⟨hb, hp'⟩
    refine (collectField_sound w hwalk unwrapping package properties' field b' hp').mono
      (fun _ _ h => ?_) (fun _ _ h => ?_)
    · exact ⟨trans_of Enlarges hb h.1, h.2⟩
    · exact trans_of Enlarges hb h

/-- A struct has its model before its fields are read, so fields may refer back to it. -/
theorem describeDecl_sound (unwrapping : List String) (r : Resolved) :
    Describes (describeDecl w walk unwrapping r) := by
  intro b
  have hskip : b.Enlarges b := refl_of Enlarges b
  by_cases hr : ∃ fields, r.decl.type = .struct fields
  · obtain ⟨fields, hr⟩ := hr
    by_cases hm : idOf r ∈ b.models
    · exact ensures_of_eq_ok (describeDecl_of_mem w walk unwrapping hr hm) ⟨hskip, hm⟩
    · have hempty : b.Enlarges (b.put (modelOf r ∅)) := grows_insert (covers_empty _)
      have hfields := collectFields_sound w hwalk unwrapping r.package fields ∅
        (b.put (modelOf r ∅)) (covers_empty _)
      rw [Ensures, describeDecl_of_not_mem w walk unwrapping hr hm]
      rw [Ensures] at hfields
      cases hf : collectFields w walk unwrapping r.package fields ∅ (b.put (modelOf r ∅)) with
      | error e b' =>
        rw [hf] at hfields
        exact trans_of Enlarges hempty hfields
      | ok properties b' =>
        rw [hf] at hfields
        have hfull : b'.Enlarges (b'.put (modelOf r properties)) :=
          grows_insert (hfields.2.mono fun hid => Dict.mem_insert_iff.2 (.inr hid))
        exact ⟨trans_of Enlarges hempty (trans_of Enlarges hfields.1 hfull),
          Dict.mem_insert_iff.2 (.inl rfl)⟩
  · rw [not_exists] at hr
    by_cases hu : idOf r ∈ unwrapping
    · rw [describeDecl_of_unwrapping w walk unwrapping hr hu]
      exact ensures_pure ⟨hskip, trivial⟩
    · rw [describeDecl_of_other w walk unwrapping hr hu]
      apply ensures_bind
      refine (describeExpr_sound w hwalk _ _ _ b).mono (fun type b' h => ?_) (fun _ _ h => h)
      refine ensures_pure ⟨h.1, ?_⟩
      cases type with
      | none => trivial
      | some type => exact h.2 type rfl

theorem flattenDecl_sound (unwrapping : List String) (r : Resolved) (properties : Dict Property) :
    Collects properties (flattenDecl w walk unwrapping r properties) := by
  intro b hp
  have hskip : b.Enlarges b := refl_of Enlarges b
  by_cases hu : idOf r ∈ unwrapping
  · rw [flattenDecl_of_unwrapping w walk unwrapping hu]
    exact ensures_pure ⟨hskip, hp⟩
  · by_cases hr : ∃ fields, r.decl.type = .struct fields
    · obtain ⟨fields, hr⟩ := hr
      rw [flattenDecl_of_struct w walk unwrapping hr hu]
      exact collectFields_sound w hwalk _ _ _ properties b hp
    · rw [not_exists] at hr
      rw [flattenDecl_of_other w walk unwrapping hr]
      exact ensures_pure ⟨hskip, hp⟩

end Walk

/-- However deep the walk may go. -/
theorem walkWithin_sound (w : Workspace) (depth : Nat) : (walkWithin w depth).Sound := by
  induction depth with
  | zero =>
    exact ⟨fun _ _ b => ensures_pure ⟨refl_of Enlarges b, trivial⟩,
      fun _ _ _ b hp => ensures_pure ⟨refl_of Enlarges b, hp⟩⟩
  | succ depth ih => exact ⟨describeDecl_sound w ih, flattenDecl_sound w ih⟩

theorem describeName_sound (w : Workspace) (package written : String) :
    Describes (describeName w package written) := by
  intro b
  have hskip : b.Enlarges b := refl_of Enlarges b
  unfold describeName
  dsimp only
  split
  · rename_i h
    have hmem := DataType.mem_builtins_of_predeclared h
    exact ensures_pure ⟨hskip, DataType.knownIn_of_mem_builtins hmem⟩
  · rename_i h
    have hmem := DataType.mem_builtins_of_wellKnown h
    exact ensures_pure ⟨hskip, DataType.knownIn_of_mem_builtins hmem⟩
  · apply ensures_bind
    refine (ask_models _ b).mono (fun r b₁ h₁ => ?_) (fun _ b₁ h₁ => ?_)
    · apply ensures_bind
      apply ensures_get
      have := (walkWithin_sound w (depthBound b₁.session)).describe [] r b₁
      simpa only [Enlarges, h₁] using this
    · rw [Enlarges, h₁]
      exact refl_of Grows _

theorem describeWritten_sound (w : Workspace) (package : String) (written : List Char) :
    Describes (describeWritten w package written) := by
  refine describeWritten_rule (fun x hx b => ?_) written (describeName_sound w package _)
  apply ensures_bind
  exact (hx b).mono (fun _ _ h => ensures_pure h) (fun _ _ h => h)

/-- A written type is described by a closed set of models that holds those it mentions. -/
theorem run_sound (w : Workspace) (package written : String) (s : Session) :
    Ensures (run w package written) s
      (fun described _ => Closed described.2 ∧ described.1.KnownIn described.2)
      (fun _ _ => True) := by
  apply ensures_run
  exact (describeWritten_sound w package written.toList { session := s }).mono
    (fun _ _ h => ⟨h.1.closed closed_empty, h.2⟩) (fun _ _ _ => trivial)

end Builder
end ApiDocs.Swagger
