/-
  ApiDocs.Proofs.Swagger.Walk

  One step of a walk through declarations, as equations: what looking up, storing, describing
  and flattening do to a builder. A struct is described by a model that is stored twice,
  without its properties and with them; any other declaration is described by its expression.
-/

import ApiDocs.Proofs.Package.Knowledge
import ApiDocs.Swagger.Builder

namespace ApiDocs.Swagger.Builder

open Source (TypeExpr Field)
open Package (Resolved)

/-- The model of a struct declaration with these properties. -/
def modelOf (r : Resolved) (properties : Dict Property) : Model :=
  { id := idOf r, description := docText r.decl.doc, properties }

/-- The builder with one more model. -/
def put (b : Builder) (model : Model) : Builder :=
  { b with models := b.models.insert model.id model }

theorem getElem?_put_modelOf (b : Builder) (r : Resolved) (properties : Dict Property) (id : String) :
    (b.put (modelOf r properties)).models[id]? =
      if idOf r = id then some (modelOf r properties) else b.models[id]? :=
  Dict.getElem?_insert ..

theorem store_apply (model : Model) (b : Builder) : store model b = .ok () (b.put model) := rfl

theorem ensures_ask {α : Type} {x : SessionM α} {b : Builder} {Q : α → Builder → Prop}
    {E : Error → Builder → Prop}
    (h : Ensures x b.session (fun a s => Q a { b with session := s })
      (fun e s => E e { b with session := s })) : Ensures (ask x) b Q E :=
  Session.ensures_within h

section Declarations

variable (w : Workspace) (walk : Walk) (unwrapping : List String) {r : Resolved}

/-- A struct that has a model is not entered. -/
theorem describeDecl_of_mem {fields : List Field} (hr : r.decl.type = .struct fields) {b : Builder}
    (hm : idOf r ∈ b.models) :
    describeDecl w walk unwrapping r b = .ok (.model (idOf r)) b := by
  have hc : b.models.contains (idOf r) = true := Dict.contains_iff.2 hm
  simp only [describeDecl, hr, bind_apply, get_apply, hc, if_true, pure_apply]

/-- A struct without a model is entered, and has a model from then on. -/
theorem describeDecl_of_not_mem {fields : List Field} (hr : r.decl.type = .struct fields)
    {b : Builder} (hm : idOf r ∉ b.models) :
    describeDecl w walk unwrapping r b =
      match collectFields w walk unwrapping r.package fields ∅ (b.put (modelOf r ∅)) with
      | .ok properties b' => .ok (.model (idOf r)) (b'.put (modelOf r properties))
      | .error e b' => .error e b' := by
  have hc : ¬ b.models.contains (idOf r) = true := fun hc => hm (Dict.contains_iff.1 hc)
  simp only [describeDecl, hr, bind_apply, get_apply]
  rw [if_neg hc]
  simp only [bind_apply, store_apply, pure_apply, modelOf]
  cases collectFields w walk unwrapping r.package fields ∅ _ <;> rfl

/-- A declaration that is no struct, while it is being unwrapped. -/
theorem describeDecl_of_unwrapping (hr : ∀ fields, r.decl.type ≠ .struct fields)
    (hu : idOf r ∈ unwrapping) : describeDecl w walk unwrapping r = pure .object := by
  have hc : unwrapping.contains (idOf r) = true := by simpa using hu
  unfold describeDecl
  dsimp only
  split
  · rename_i fields h
    exact absurd h (hr fields)
  · rw [if_pos hc]

/-- A declaration that is no struct is what its type expression is. -/
theorem describeDecl_of_other (hr : ∀ fields, r.decl.type ≠ .struct fields)
    (hu : idOf r ∉ unwrapping) :
    describeDecl w walk unwrapping r =
      (do return (← describeExpr w walk (idOf r :: unwrapping) r.package r.decl.type).getD .object) := by
  have hc : ¬ unwrapping.contains (idOf r) = true := by simpa using hu
  unfold describeDecl
  dsimp only
  split
  · rename_i fields h
    exact absurd h (hr fields)
  · rw [if_neg hc]

theorem flattenDecl_of_struct {fields : List Field} (hr : r.decl.type = .struct fields)
    (hu : idOf r ∉ unwrapping) (properties : Dict Property) :
    flattenDecl w walk unwrapping r properties =
      collectFields w walk (idOf r :: unwrapping) r.package fields properties := by
  have hc : ¬ unwrapping.contains (idOf r) = true := by simpa using hu
  simp only [flattenDecl, hr]
  rw [if_neg hc]

theorem flattenDecl_of_unwrapping (hu : idOf r ∈ unwrapping) (properties : Dict Property) :
    flattenDecl w walk unwrapping r properties = pure properties := by
  have hc : unwrapping.contains (idOf r) = true := by simpa using hu
  unfold flattenDecl
  dsimp only
  split
  · rw [if_pos hc]
  · rfl

theorem flattenDecl_of_other (hr : ∀ fields, r.decl.type ≠ .struct fields)
    (properties : Dict Property) :
    flattenDecl w walk unwrapping r properties = pure properties := by
  unfold flattenDecl
  dsimp only
  split
  · rename_i fields h
    exact absurd h (hr fields)
  · rfl

end Declarations

section Lines

variable (w : Workspace) (walk : Walk) (unwrapping : List String) (package : String) {field : Field}

/-- The line has names of its own that are documented. -/
def Documented (field : Field) : Prop :=
  field.tagValue? "json" ≠ some "-" ∧ field.isEmbedded = false ∧
    (field.names.filter isExported).isEmpty = false

/-- The line embeds the type with this name. -/
def Embeds (field : Field) (name : String) : Prop :=
  field.tagValue? "json" ≠ some "-" ∧ field.isEmbedded = true ∧ embeddedName? field.type = some name

/-- The line adds no properties, whatever its type is. -/
def Silent (field : Field) : Prop :=
  ¬ Documented field ∧ ∀ name, ¬ Embeds field name

theorem Documented.not_embeds {name : String} (h : Documented field) : ¬ Embeds field name := by
  rintro ⟨-, hembedded, -⟩
  rw [h.2.1] at hembedded
  cases hembedded

theorem Embeds.unique {name name' : String} (h : Embeds field name) (h' : Embeds field name') :
    name = name' :=
  Option.some.inj (h.2.2.symm.trans h'.2.2)

theorem silent_or_documented_or_embeds (field : Field) :
    Silent field ∨ Documented field ∨ ∃ name, Embeds field name := by
  by_cases hd : Documented field
  · exact .inr (.inl hd)
  · by_cases he : ∃ name, Embeds field name
    · exact .inr (.inr he)
    · exact .inl ⟨hd, fun name h => he ⟨name, h⟩⟩

theorem collectField_of_silent (h : Silent field) (properties : Dict Property) :
    collectField w walk unwrapping package properties field = pure properties := by
  obtain ⟨hdocumented, hembeds⟩ := h
  unfold collectField
  split
  · rfl
  · rename_i hdash
    split
    · rename_i hembedded
      cases hname : embeddedName? field.type with
      | none => rfl
      | some name => exact absurd ⟨hdash, hembedded, hname⟩ (hembeds name)
    · rename_i hembedded
      dsimp only
      split
      · rfl
      · rename_i hempty
        exact absurd ⟨hdash, by simpa using hembedded, by simpa using hempty⟩ hdocumented

theorem collectField_of_documented (h : Documented field) (properties : Dict Property) :
    collectField w walk unwrapping package properties field = (do
      return (← describeExpr w walk unwrapping package field.type).elim properties
        fun type => addProperties field (field.names.filter isExported) type properties) := by
  obtain ⟨hdash, hembedded, hempty⟩ := h
  unfold collectField
  rw [if_neg hdash, if_neg (by simp [hembedded])]
  dsimp only
  rw [if_neg (by simp [hempty])]
  refine bind_congr fun type => ?_
  cases type <;> rfl

theorem collectField_of_embeds {name : String} (h : Embeds field name)
    (properties : Dict Property) :
    collectField w walk unwrapping package properties field = (do
      walk.flatten unwrapping (← ask (Session.findModel w name package)) properties) := by
  obtain ⟨hdash, hembedded, hname⟩ := h
  unfold collectField
  rw [if_neg hdash, if_pos hembedded, hname]

end Lines

/-- The name behind the brackets of a written type. -/
def elementName : List Char → String
  | '[' :: ']' :: element => elementName element
  | written => String.ofList written

/-- A written type is a name with any number of brackets before it: what holds for the name,
and carries over to arrays, holds for the written type. -/
theorem describeWritten_rule {w : Workspace} {package : String} {P : BuilderM DataType → Prop}
    (harray : ∀ x, P x → P (do return .array (← x))) (written : List Char)
    (hname : P (describeName w package (elementName written))) :
    P (describeWritten w package written) := by
  fun_induction describeWritten w package written with
  | case1 element ih => exact harray _ (ih hname)
  | case2 written hw => rwa [elementName.eq_2 _ hw] at hname

/-- What describing a written type ensures when it starts without models. -/
theorem ensures_run {w : Workspace} {package written : String} {s : Session}
    {Q : DataType × Dict Model → Session → Prop} {E : Error → Session → Prop}
    (h : Ensures (describe w package written) { session := s }
      (fun type b => Q (type, b.models) b.session) (fun e b => E e b.session)) :
    Ensures (run w package written) s Q E := by
  rw [Ensures] at h ⊢
  unfold run
  cases hd : describe w package written { session := s } with
  | ok type b => rw [hd] at h; exact h
  | error e b => rw [hd] at h; exact h

end ApiDocs.Swagger.Builder
