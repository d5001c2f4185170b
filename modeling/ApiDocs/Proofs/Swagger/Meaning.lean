/-
  ApiDocs.Proofs.Swagger.Meaning

  What declarations mean as documentation, given how names are looked up: the data type of an
  expression, and the properties that field lines add, while some ids are being unwrapped.
  These are relations. They know nothing of sessions, of the models collected so far, or of
  how deep a walk may go.

  A place has at most one meaning (`HasType.unique`, `HasProperties.unique`). What is being
  unwrapped matters only as far as it concerns ids that the place opens (`HasType.congr`,
  `HasProperties.congr`). So does the model of a struct (`HasModel`).
-/

import ApiDocs.Proofs.Swagger.Walk

namespace ApiDocs.Swagger.Builder

open Source (TypeExpr Field)
open Package (Resolved)

/-! ## Places of a walk -/

/-- How references in packages are looked up. -/
abbrev Lookup := (reference package : String) → Option Resolved

/-- Where a walk can be. -/
inductive Place where
  /-- A declaration whose data type is asked for. -/
  | declaration (r : Resolved)
  /-- A type expression in a package. -/
  | expression (package : String) (type : TypeExpr)
  /-- A field line in a package. -/
  | line (package : String) (field : Field)
  /-- Field lines in a package, one after the other. -/
  | lines (package : String) (fields : List Field)
  /-- An embedded declaration, whose properties are asked for. -/
  | embedded (r : Resolved)

/-- The id that counts as being unwrapped inside the place. A struct is unwrapped where it is
embedded, any other declaration where its data type is asked for. -/
def Place.guard? : Place → Option String
  | .declaration r =>
    match r.decl.type with
    | .struct _ => none
    | _ => some (idOf r)
  | .embedded r =>
    match r.decl.type with
    | .struct _ => some (idOf r)
    | _ => none
  | _ => none

theorem Place.guard?_declaration {r : Resolved} (hr : ∀ fields, r.decl.type ≠ .struct fields) :
    (Place.declaration r).guard? = some (idOf r) := by
  simp only [guard?]

theorem Place.guard?_embedded {r : Resolved} {fields : List Field}
    (hr : r.decl.type = .struct fields) : (Place.embedded r).guard? = some (idOf r) := by
  simp only [guard?, hr]

/-- The second place is a part of the first that its meaning depends on. The lines of a struct
whose data type is asked for are no such part: the data type is the struct's model. -/
inductive Inside (find : Lookup) : Place → Place → Prop where
  | named {package : String} {qualifier : Option String} {name : String} {r : Resolved}
      (hbuiltin : builtin? qualifier name = none)
      (hfind : find (reference qualifier name) package = some r) :
      Inside find (.expression package (.named qualifier name)) (.declaration r)
  | pointer {package : String} {target : TypeExpr} :
      Inside find (.expression package (.pointer target)) (.expression package target)
  | slice {package : String} {element : TypeExpr} :
      Inside find (.expression package (.slice element)) (.expression package element)
  | array {package : String} {element : TypeExpr} :
      Inside find (.expression package (.array element)) (.expression package element)
  | unwrapped {r : Resolved} (hr : ∀ fields, r.decl.type ≠ .struct fields) :
      Inside find (.declaration r) (.expression r.package r.decl.type)
  | documented {package : String} {field : Field} (hfield : Documented field) :
      Inside find (.line package field) (.expression package field.type)
  | embeds {package name : String} {field : Field} {r : Resolved} (hfield : Embeds field name)
      (hfind : find name package = some r) : Inside find (.line package field) (.embedded r)
  | line {package : String} {field : Field} {fields : List Field} (hfield : field ∈ fields) :
      Inside find (.lines package fields) (.line package field)
  | flattened {r : Resolved} {fields : List Field} (hr : r.decl.type = .struct fields) :
      Inside find (.embedded r) (.lines r.package fields)

/-- The meaning of the place depends on whether the id is being unwrapped. -/
inductive Opens (find : Lookup) : Place → String → Prop where
  | here {place : Place} {id : String} (hid : place.guard? = some id) : Opens find place id
  | inside {place part : Place} {id : String} (hpart : Inside find place part)
      (hid : Opens find part id) : Opens find place id

/-! ## Data types -/

/-- The data type of a declaration or an expression; none if its values are not represented
at all. -/
inductive HasType (find : Lookup) : List String → Place → Option DataType → Prop where
  | builtin {unwrapping : List String} {package : String} {qualifier : Option String} {name : String}
      {type : DataType} (hbuiltin : builtin? qualifier name = some type) :
      HasType find unwrapping (.expression package (.named qualifier name)) (some type)
  | named {unwrapping : List String} {package : String} {qualifier : Option String} {name : String}
      {r : Resolved} {type : Option DataType} (hbuiltin : builtin? qualifier name = none)
      (hfind : find (reference qualifier name) package = some r)
      (htype : HasType find unwrapping (.declaration r) type) :
      HasType find unwrapping (.expression package (.named qualifier name)) type
  | pointer {unwrapping : List String} {package : String} {target : TypeExpr}
      {type : Option DataType} (htype : HasType find unwrapping (.expression package target) type) :
      HasType find unwrapping (.expression package (.pointer target)) type
  | slice {unwrapping : List String} {package : String} {element : TypeExpr}
      {type : Option DataType} (htype : HasType find unwrapping (.expression package element) type) :
      HasType find unwrapping (.expression package (.slice element)) (type.map .array)
  | array {unwrapping : List String} {package : String} {element : TypeExpr}
      {type : Option DataType} (htype : HasType find unwrapping (.expression package element) type) :
      HasType find unwrapping (.expression package (.array element)) (type.map .array)
  | map {unwrapping : List String} {package : String} {key value : TypeExpr} :
      HasType find unwrapping (.expression package (.map key value)) (some .object)
  | struct {unwrapping : List String} {package : String} {fields : List Field} :
      HasType find unwrapping (.expression package (.struct fields)) (some .object)
  | interface {unwrapping : List String} {package : String} :
      HasType find unwrapping (.expression package .interface) (some .object)
  | channel {unwrapping : List String} {package : String} {element : TypeExpr} :
      HasType find unwrapping (.expression package (.channel element)) none
  | function {unwrapping : List String} {package : String} :
      HasType find unwrapping (.expression package .function) none
  | unknown {unwrapping : List String} {package text : String} :
      HasType find unwrapping (.expression package (.unknown text)) none
  | model {unwrapping : List String} {r : Resolved} {fields : List Field}
      (hr : r.decl.type = .struct fields) :
      HasType find unwrapping (.declaration r) (some (.model (idOf r)))
  | cut {unwrapping : List String} {r : Resolved} (hr : ∀ fields, r.decl.type ≠ .struct fields)
      (hid : idOf r ∈ unwrapping) : HasType find unwrapping (.declaration r) (some .object)
  | unwrapped {unwrapping : List String} {r : Resolved} {type : Option DataType}
      (hr : ∀ fields, r.decl.type ≠ .struct fields) (hid : idOf r ∉ unwrapping)
      (htype : HasType find (idOf r :: unwrapping) (.expression r.package r.decl.type) type) :
      HasType find unwrapping (.declaration r) (some (type.getD .object))

namespace HasType

variable {find : Lookup} {unwrapping : List String} {place : Place} {type type' : Option DataType}

theorem unique (h : HasType find unwrapping place type) (h' : HasType find unwrapping place type') :
    type = type' := by
  induction h generalizing type' with
  | builtin hbuiltin =>
    cases h' with
    | builtin hbuiltin' => rw [← hbuiltin, hbuiltin']
    | named hbuiltin' => cases hbuiltin.symm.trans hbuiltin'
  | named hbuiltin hfind _ ih =>
    cases h' with
    | builtin hbuiltin' => cases hbuiltin.symm.trans hbuiltin'
    | named _ hfind' htype' =>
      obtain rfl := Option.some.inj (hfind.symm.trans hfind')
      exact ih htype'
  | pointer _ ih =>
    cases h' with
    | pointer htype' => exact ih htype'
  | slice _ ih =>
    cases h' with
    | slice htype' => rw [ih htype']
  | array _ ih =>
    cases h' with
    | array htype' => rw [ih htype']
  | map | struct | interface | channel | function | unknown => cases h'; rfl
  | model hr =>
    cases h' with
    | model => rfl
    | cut hr' | unwrapped hr' => exact absurd hr (hr' _)
  | cut hr hid =>
    cases h' with
    | model hr' => exact absurd hr' (hr _)
    | cut => rfl
    | unwrapped _ hid' => exact absurd hid hid'
  | unwrapped hr hid _ ih =>
    cases h' with
    | model hr' => exact absurd hr' (hr _)
    | cut _ hid' => exact absurd hid' hid
    | unwrapped _ _ htype' => rw [ih htype']

/-- Only the ids that the place opens matter. -/
theorem congr (h : HasType find unwrapping place type) {unwrapping' : List String}
    (hopens : ∀ id, Opens find place id → (id ∈ unwrapping ↔ id ∈ unwrapping')) :
    HasType find unwrapping' place type := by
  induction h generalizing unwrapping' with
  | builtin hbuiltin => exact builtin hbuiltin
  | named hbuiltin hfind _ ih =>
    exact named hbuiltin hfind (ih fun id hid => hopens id (.inside (.named hbuiltin hfind) hid))
  | pointer _ ih => exact pointer (ih fun id hid => hopens id (.inside .pointer hid))
  | slice _ ih => exact slice (ih fun id hid => hopens id (.inside .slice hid))
  | array _ ih => exact array (ih fun id hid => hopens id (.inside .array hid))
  | map => exact map
  | struct => exact struct
  | interface => exact interface
  | channel => exact channel
  | function => exact function
  | unknown => exact unknown
  | model hr => exact model hr
  | cut hr hid => exact cut hr ((hopens _ (.here (Place.guard?_declaration hr))).1 hid)
  | unwrapped hr hid _ ih =>
    have hid' := mt (hopens _ (.here (Place.guard?_declaration hr))).2 hid
    refine unwrapped hr hid' (ih fun id hopen => ?_)
    -- both lists have grown by the same id
    rw [List.mem_cons, List.mem_cons, hopens id (.inside (.unwrapped hr) hopen)]

end HasType

/-! ## Properties -/

/-- The properties that field lines or an embedded declaration make of given ones. -/
inductive HasProperties (find : Lookup) :
    List String → Place → Dict Property → Dict Property → Prop where
  | silent {unwrapping : List String} {package : String} {field : Field}
      {properties : Dict Property} (hfield : Silent field) :
      HasProperties find unwrapping (.line package field) properties properties
  | documented {unwrapping : List String} {package : String} {field : Field}
      {type : Option DataType} {properties : Dict Property} (hfield : Documented field)
      (htype : HasType find unwrapping (.expression package field.type) type) :
      HasProperties find unwrapping (.line package field) properties
        (type.elim properties fun type =>
          addProperties field (field.names.filter isExported) type properties)
  | embeds {unwrapping : List String} {package name : String} {field : Field} {r : Resolved}
      {properties properties' : Dict Property} (hfield : Embeds field name)
      (hfind : find name package = some r)
      (hembedded : HasProperties find unwrapping (.embedded r) properties properties') :
      HasProperties find unwrapping (.line package field) properties properties'
  | nil {unwrapping : List String} {package : String} {properties : Dict Property} :
      HasProperties find unwrapping (.lines package []) properties properties
  | cons {unwrapping : List String} {package : String} {field : Field} {fields : List Field}
      {properties properties' properties'' : Dict Property}
      (hfield : HasProperties find unwrapping (.line package field) properties properties')
      (hfields : HasProperties find unwrapping (.lines package fields) properties' properties'') :
      HasProperties find unwrapping (.lines package (field :: fields)) properties properties''
  | other {unwrapping : List String} {r : Resolved} {properties : Dict Property}
      (hr : ∀ fields, r.decl.type ≠ .struct fields) :
      HasProperties find unwrapping (.embedded r) properties properties
  | cut {unwrapping : List String} {r : Resolved} {fields : List Field}
      {properties : Dict Property} (hr : r.decl.type = .struct fields) (hid : idOf r ∈ unwrapping) :
      HasProperties find unwrapping (.embedded r) properties properties
  | flattened {unwrapping : List String} {r : Resolved} {fields : List Field}
      {properties properties' : Dict Property} (hr : r.decl.type = .struct fields)
      (hid : idOf r ∉ unwrapping)
      (hfields : HasProperties find (idOf r :: unwrapping) (.lines r.package fields)
        properties properties') :
      HasProperties find unwrapping (.embedded r) properties properties'

namespace HasProperties

variable {find : Lookup} {unwrapping : List String} {place : Place}
  {properties result result' : Dict Property}

theorem unique (h : HasProperties find unwrapping place properties result)
    (h' : HasProperties find unwrapping place properties result') : result = result' := by
  induction h generalizing result' with
  | silent hfield =>
    cases h' with
    | silent => rfl
    | documented hfield' => exact absurd hfield' hfield.1
    | embeds hfield' => exact absurd hfield' (hfield.2 _)
  | documented hfield htype =>
    cases h' with
    | silent hfield' => exact absurd hfield hfield'.1
    | documented _ htype' => rw [htype.unique htype']
    | embeds hfield' => exact absurd hfield' hfield.not_embeds
  | embeds hfield hfind _ ih =>
    cases h' with
    | silent hfield' => exact absurd hfield (hfield'.2 _)
    | documented hfield' => exact absurd hfield hfield'.not_embeds
    | embeds hfield' hfind' hembedded' =>
      obtain rfl := hfield.unique hfield'
      obtain rfl := Option.some.inj (hfind.symm.trans hfind')
      exact ih hembedded'
  | nil => cases h'; rfl
  | cons _ _ ihfield ihfields =>
    cases h' with
    | cons hfield' hfields' =>
      obtain rfl := ihfield hfield'
      exact ihfields hfields'
  | other hr =>
    cases h' with
    | other | cut => rfl
    | flattened hr' => exact absurd hr' (hr _)
  | cut hr hid =>
    cases h' with
    | other | cut => rfl
    | flattened _ hid' => exact absurd hid hid'
  | flattened hr hid _ ih =>
    cases h' with
    | other hr' => exact absurd hr (hr' _)
    | cut _ hid' => exact absurd hid' hid
    | flattened hr' _ hfields' =>
      obtain rfl := TypeExpr.struct.inj (hr.symm.trans hr')
      exact ih hfields'

/-- Only the ids that the place opens matter. -/
theorem congr (h : HasProperties find unwrapping place properties result)
    {unwrapping' : List String}
    (hopens : ∀ id, Opens find place id → (id ∈ unwrapping ↔ id ∈ unwrapping')) :
    HasProperties find unwrapping' place properties result := by
  induction h generalizing unwrapping' with
  | silent hfield => exact silent hfield
  | documented hfield htype =>
    exact documented hfield
      (htype.congr fun id hid => hopens id (.inside (.documented hfield) hid))
  | embeds hfield hfind _ ih =>
    exact embeds hfield hfind (ih fun id hid => hopens id (.inside (.embeds hfield hfind) hid))
  | nil => exact nil
  | cons _ _ ihfield ihfields =>
    refine cons (ihfield fun id hid => ?_) (ihfields fun id hid => ?_)
    · exact hopens id (.inside (.line List.mem_cons_self) hid)
    · -- what the other lines open, one of them opens
      cases hid with
      | here hid => cases hid
      | inside hpart hid =>
        cases hpart with
        | line hfield => exact hopens id (.inside (.line (List.mem_cons_of_mem _ hfield)) hid)
  | other hr => exact other hr
  | cut hr hid => exact cut hr ((hopens _ (.here (Place.guard?_embedded hr))).1 hid)
  | flattened hr hid _ ih =>
    have hid' := mt (hopens _ (.here (Place.guard?_embedded hr))).2 hid
    refine flattened hr hid' (ih fun id hopen => ?_)
    rw [List.mem_cons, List.mem_cons, hopens id (.inside (.flattened hr) hopen)]

end HasProperties

/-! ## Models -/

/-- The model of a struct, read while some ids are being unwrapped. -/
def HasModel (find : Lookup) (unwrapping : List String) (r : Resolved) (model : Model) : Prop :=
  ∃ fields properties, r.decl.type = .struct fields ∧
    HasProperties find unwrapping (.lines r.package fields) ∅ properties ∧
    model = modelOf r properties

/-- The model of a struct depends on whether the id is being unwrapped. -/
def ModelOpens (find : Lookup) (r : Resolved) (id : String) : Prop :=
  ∃ fields, r.decl.type = .struct fields ∧ Opens find (.lines r.package fields) id

namespace HasModel

variable {find : Lookup} {unwrapping unwrapping' : List String} {r : Resolved} {model model' : Model}

theorem id_eq (h : HasModel find unwrapping r model) : model.id = idOf r := by
  obtain ⟨fields, properties, -, -, rfl⟩ := h
  rfl

/-- The description does not depend on what is being unwrapped. -/
theorem description_eq (h : HasModel find unwrapping r model) :
    model.description = docText r.decl.doc := by
  obtain ⟨fields, properties, -, -, rfl⟩ := h
  rfl

theorem unique (h : HasModel find unwrapping r model) (h' : HasModel find unwrapping r model') :
    model = model' := by
  obtain ⟨fields, properties, hr, hproperties, rfl⟩ := h
  obtain ⟨fields', properties', hr', hproperties', rfl⟩ := h'
  obtain rfl := TypeExpr.struct.inj (hr.symm.trans hr')
  rw [hproperties.unique hproperties']

theorem congr (h : HasModel find unwrapping r model)
    (hopens : ∀ id, ModelOpens find r id → (id ∈ unwrapping ↔ id ∈ unwrapping')) :
    HasModel find unwrapping' r model := by
  obtain ⟨fields, properties, hr, hproperties, rfl⟩ := h
  exact ⟨fields, properties, hr, hproperties.congr fun id hid => hopens id ⟨fields, hr, hid⟩, rfl⟩

end HasModel
end ApiDocs.Swagger.Builder
