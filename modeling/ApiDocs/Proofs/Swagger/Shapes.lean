/-
  ApiDocs.Proofs.Swagger.Shapes

  Descriptions of types are well-formed. A data type is written in three ways: as a property, as
  the element type of an array, and as the type of a parameter or an operation. Each way gives
  either a type name or a model, names elements exactly for arrays, and gives a format only to
  types that have one, as long as the data type is proper (`DataType.Proper`): no name of a
  primitive type, and no id of a model, may be taken for that of an array. Whatever a declaration
  means is proper (`HasType.proper`, `HasProperties.wellFormed`), so that lines of documentation
  keep an operation well-formed (`Takes.wellFormed`), however many there are.
-/

import ApiDocs.Proofs.Swagger.Forms
import ApiDocs.Proofs.Swagger.Promotion
import ApiDocs.Proofs.Swagger.References

namespace ApiDocs.Swagger

/-! ## Well-formed descriptions -/

/-- The types whose values can have a format. -/
def formattedTypes : List String := ["integer", "number", "string"]

/-- An element type gives either a type name or a model. -/
def Items.WellFormed (items : Items) : Prop :=
  items.typeName.isSome ≠ items.reference.isSome

/-- A property gives either a type name or a model, names the elements exactly of arrays, and has
a format only if its type can have one. -/
structure Property.WellFormed (property : Property) : Prop where
  type_or_reference : property.typeName.isSome ≠ property.reference.isSome
  items_iff : property.items.isSome ↔ property.typeName = some "array"
  items : ∀ items ∈ property.items, items.WellFormed
  format : property.format.isSome → ∃ typeName ∈ formattedTypes, property.typeName = some typeName

/-- A parameter is taken from one of five places, gives its type twice, and names the elements
exactly of arrays. -/
structure Parameter.WellFormed (parameter : Parameter) : Prop where
  location : parameter.location ∈ ["path", "query", "form", "header", "body"]
  dataType : parameter.dataType = parameter.typeName
  items_iff : parameter.items.isSome ↔ parameter.typeName = "array"
  items : ∀ items ∈ parameter.items, items.WellFormed
  format : parameter.format.isSome → parameter.typeName ∈ formattedTypes

/-- Well-formed properties, under whatever names. -/
def Properties.WellFormed (properties : Dict Property) : Prop :=
  ∀ (name : String) (property : Property), properties[name]? = some property → property.WellFormed

/-- Models whose properties are well-formed. -/
def Models.WellFormed (models : Dict Model) : Prop :=
  ∀ (id : String) (model : Model), models[id]? = some model → Properties.WellFormed model.properties

/-- An operation whose types, parameters and models are well-formed, and whose responses have
codes of three digits. -/
structure Operation.WellFormed (operation : Operation) : Prop where
  items_iff : operation.items.isSome ↔ operation.typeName = "array"
  items : ∀ items ∈ operation.items, items.WellFormed
  parameters : ∀ parameter ∈ operation.parameters, parameter.WellFormed
  responses : ∀ response ∈ operation.responseMessages, response.code.toNat ≤ 999
  models : Models.WellFormed operation.models

/-! ## Data types -/

namespace DataType

/-- The data type is not taken for another one by its name: a primitive type is no array and has a
format only if it can have one, and the id of a model has a point in it. -/
def Proper : DataType → Prop
  | primitive typeName format =>
    typeName ≠ "array" ∧ (format.isSome → typeName ∈ formattedTypes)
  | model id => '.' ∈ id.toList
  | array element => Proper element
  | object => True

variable {type : DataType}

theorem toItems_wellFormed (type : DataType) : type.toItems.WellFormed := by
  cases type <;> simp [toItems, Items.WellFormed]

theorem items?_wellFormed (type : DataType) : ∀ items ∈ type.items?, items.WellFormed := by
  cases type with
  | array element =>
    rintro _ ⟨⟩
    exact element.toItems_wellFormed
  | primitive | model | object => rintro _ ⟨⟩

theorem Proper.items_iff (h : type.Proper) : type.items?.isSome ↔ type.typeName = "array" := by
  cases type with
  | primitive name format => simp [items?, DataType.typeName, h.1]
  | model id =>
    have hid : id ≠ "array" := by
      rintro rfl
      exact absurd h (by decide : '.' ∉ "array".toList)
    simp [items?, typeName, hid]
  | array | object => simp [items?, typeName]

theorem Proper.format (h : type.Proper) (hformat : type.format?.isSome) :
    type.typeName ∈ formattedTypes := by
  cases type with
  | primitive => exact h.2 hformat
  | model | array | object => cases hformat

/-- A proper data type is a well-formed property, whatever is said about it. -/
theorem Proper.toProperty (h : type.Proper) (description : Option String) :
    { type.toProperty with description }.WellFormed := by
  cases type with
  | primitive typeName format =>
    refine ⟨by simp [DataType.toProperty], by simp [DataType.toProperty, h.1], ?_, fun hformat => ?_⟩
    · rintro _ ⟨⟩
    · exact ⟨typeName, h.2 hformat, rfl⟩
  | array element =>
    refine ⟨by simp [DataType.toProperty], by simp [DataType.toProperty], ?_, fun hformat => ?_⟩
    · rintro _ ⟨⟩
      exact element.toItems_wellFormed
    · cases hformat
  | model | object =>
    refine ⟨by simp [DataType.toProperty], by simp [DataType.toProperty], ?_, fun hformat => ?_⟩
    · rintro _ ⟨⟩
    · cases hformat

theorem proper_of_mem_builtins (h : type ∈ builtins) : type.Proper := by
  have hall : ∀ type ∈ builtins, type.Proper := by simp [builtins, Proper, formattedTypes]
  exact hall type h

end DataType

/-! ## What declarations mean -/

namespace Builder

open Package (Resolved)

theorem proper_plainType {written : String} {type : DataType} (h : plainType? written = some type) :
    type.Proper := by
  apply DataType.proper_of_mem_builtins
  rcases Option.or_eq_some_iff.1 h with h | ⟨-, h⟩
  · exact DataType.mem_builtins_of_predeclared h
  · exact DataType.mem_builtins_of_wellKnown h

theorem point_mem_idOf (r : Resolved) : '.' ∈ (idOf r).toList := by
  simp [idOf, modelId]

variable {find : Lookup} {unwrapping : List String} {place : Place}

theorem HasType.proper {type : Option DataType} (h : HasType find unwrapping place type) :
    ∀ known ∈ type, known.Proper := by
  induction h with
  | builtin hbuiltin =>
    rintro _ ⟨⟩
    exact DataType.proper_of_mem_builtins (DataType.mem_builtins_of_builtin hbuiltin)
  | named _ _ _ ih | pointer _ ih => exact ih
  | slice _ ih | array _ ih =>
    intro known hknown
    obtain ⟨element, helement, rfl⟩ := Option.map_eq_some_iff.1 hknown
    exact ih element helement
  | map | struct | interface | cut =>
    rintro _ ⟨⟩
    trivial
  | channel | function | unknown => rintro _ ⟨⟩
  | @model _ r =>
    rintro _ ⟨⟩
    exact point_mem_idOf r
  | @unwrapped _ _ type _ _ _ ih =>
    rintro _ ⟨⟩
    cases type with
    | none => trivial
    | some type => exact ih type rfl

/-- Lines add well-formed properties, their own ones and those of embedded structs. -/
theorem HasProperties.wellFormed {base result : Dict Property}
    (h : HasProperties find unwrapping place base result) (hbase : Properties.WellFormed base) :
    Properties.WellFormed result := by
  induction h with
  | silent | nil | other | cut => exact hbase
  | @documented _ _ field type properties _ htype =>
    cases type with
    | none => exact hbase
    | some type =>
      intro name property hproperty
      rw [Option.elim_some, getElem?_addProperties] at hproperty
      split at hproperty
      · rw [← Option.some.inj hproperty]
        exact (htype.proper type rfl).toProperty (docText field.doc)
      · exact hbase name property hproperty
  | embeds _ _ _ ih | flattened _ _ _ ih => exact ih hbase
  | cons _ _ ihfield ihfields => exact ihfields (ihfield hbase)

theorem properties_wellFormed_empty : Properties.WellFormed ∅ := by
  intro name property h
  simp at h

/-- The data type of a written type. -/
theorem run_proper (w : Workspace) (package written : String) (s : Session) :
    Ensures (run w package written) s (fun described _ => described.1.Proper) (fun _ _ => True) := by
  apply ensures_run
  refine describeWritten_rule (P := fun x => Ensures x _ (fun type _ => type.Proper) _)
    (fun x hx => ?_) _ (ensures_describeName (fun type hplain => ?_) (fun start t _ hstart hst => ?_)
      (fun _ _ _ _ => trivial))
  · -- an array is as proper as its elements
    apply ensures_bind
    exact hx.mono (fun _ _ h => ensures_pure h) (fun _ _ h => h)
  · exact proper_plainType hplain
  · have hwalk : (walkWithin w (depthBound s)).Faithful w (s.find w) start
        (idsInReach s package (elementName written.toList)) (depthBound s) :=
      walkWithin_faithful (fun hplace => hplace.reached.idsInReach hstart) _
    refine (hwalk.describe [] start _ .start (ready_of_find_eq package _ [] hst.find_eq)).mono
      (fun type _ h => ?_) (fun _ _ h => h)
    exact h.2.proper type rfl

/-- Describing a type gives a proper data type and well-formed models. -/
theorem run_wellFormed {w : Workspace} {package written : String} {s t : Session} {type : DataType}
    {models : Dict Model} (hrun : run w package written s = .ok (type, models) t) :
    type.Proper ∧ Models.WellFormed models := by
  refine ⟨(run_proper w package written s).of_ok hrun, fun id model hmodel => ?_⟩
  obtain ⟨start, -, -, unwrapping, r, -, fields, properties, -, hproperties, rfl⟩ :=
    (run_entered w package written s).of_ok hrun id model hmodel
  exact hproperties.wellFormed properties_wellFormed_empty

end Builder

/-! ## Lines of documentation -/

theorem Models.WellFormed.extend {models models' : Dict Model} (h : Models.WellFormed models)
    (h' : Models.WellFormed models') : Models.WellFormed (models.extend models') := by
  intro id model hmodel
  rw [Dict.getElem?_extend, Option.or_eq_some_iff] at hmodel
  rcases hmodel with hmodel | ⟨-, hmodel⟩
  · exact h' id model hmodel
  · exact h id model hmodel

theorem Denotes.le {digits : List Char} {code : UInt16} (h : Denotes digits code) :
    code.toNat ≤ 999 := by
  obtain ⟨a, b, c, -, hcode⟩ := h
  omega

namespace Operation

theorem wellFormed_ofPackage (package : String) : (ofPackage package).WellFormed := by
  refine ⟨by simp [ofPackage], ?_, ?_, ?_, ?_⟩
  · rintro _ ⟨⟩
  · rintro _ ⟨⟩
  · rintro _ ⟨⟩
  · intro id model hmodel
    simp [ofPackage] at hmodel

theorem parameterOf_wellFormed {parts : ParameterLine} (required : Bool) {type : DataType}
    (hlocation : String.ofList parts.location ∈ locations) (htype : type.Proper) :
    (parameterOf parts required type).WellFormed :=
  ⟨hlocation, rfl, htype.items_iff, type.items?_wellFormed, htype.format⟩

/-- Whatever a line adds is well-formed. -/
theorem Takes.wellFormed {w : Workspace} {s : Session} {operation operation' : Operation}
    (h : operation.Takes w s operation') (hop : operation.WellFormed) : operation'.WellFormed := by
  have hresponses : ∀ {digits message code model}, Denotes digits code →
      ∀ response ∈ operation.responseMessages ++ [responseOf code message model],
        response.code.toNat ≤ 999 := by
    intro digits message code model hcode response hresponse
    rcases List.mem_append.1 hresponse with hold | hnew
    · exact hop.responses response hold
    · rw [List.mem_singleton.1 hnew]
      exact hcode.le
  cases h with
  | fields => exact ⟨hop.items_iff, hop.items, hop.parameters, hop.responses, hop.models⟩
  | @parameter parts required type models t hlocation hrun =>
    obtain ⟨htype, hmodels⟩ := Builder.run_wellFormed hrun
    refine ⟨hop.items_iff, hop.items, fun parameter hparameter => ?_, hop.responses,
      hop.models.extend hmodels⟩
    rcases List.mem_append.1 hparameter with hold | hnew
    · exact hop.parameters parameter hold
    · rw [List.mem_singleton.1 hnew]
      exact parameterOf_wellFormed required hlocation htype
  | message hcode => exact ⟨hop.items_iff, hop.items, hop.parameters, hresponses hcode, hop.models⟩
  | @response success digits message written code type models t hcode hrun =>
    obtain ⟨htype, hmodels⟩ := Builder.run_wellFormed hrun
    have hall := hop.models.extend hmodels
    cases success with
    | true =>
      -- the type and the elements are set together
      exact ⟨htype.items_iff, type.items?_wellFormed, hop.parameters, hresponses hcode, hall⟩
    | false => exact ⟨hop.items_iff, hop.items, hop.parameters, hresponses hcode, hall⟩

/-- A line of documentation, with the workspace and the session in which its types are looked
up. -/
structure Remark where
  workspace : Workspace
  session : Session
  line : String

/-- The operation after a line. A line that fails changes nothing. -/
def afterLine (operation : Operation) (remark : Remark) : Operation :=
  (result? (operation.applyLine remark.workspace remark.line remark.session)).getD operation

/-- The operation after lines, one after the other. -/
def afterLines (operation : Operation) (remarks : List Remark) : Operation :=
  remarks.foldl afterLine operation

theorem WellFormed.afterLine {operation : Operation} (h : operation.WellFormed) (remark : Remark) :
    (operation.afterLine remark).WellFormed := by
  rw [Operation.afterLine]
  cases hresult : result? (operation.applyLine remark.workspace remark.line remark.session) with
  | none => exact h
  | some operation' =>
    have htakes := (applyLine_takes remark.workspace operation remark.line remark.session).of_ok
      (eq_ok_of_result? hresult)
    exact htakes.wellFormed h

theorem WellFormed.afterLines {operation : Operation} (h : operation.WellFormed)
    (remarks : List Remark) : (operation.afterLines remarks).WellFormed := by
  induction remarks generalizing operation with
  | nil => exact h
  | cons remark remarks ih =>
    rw [Operation.afterLines, List.foldl_cons, ← Operation.afterLines]
    exact ih (h.afterLine remark)

/-- **Descriptions of types are well-formed, whatever lines have been applied.** Start with an
operation about which nothing has been said, and apply any lines, each in a workspace and a session
of its own; those that fail are passed over. Then every property of every model, promoted ones
included, gives either a type name or a model, names elements exactly if it is an array, and has a
format only as an integer, a number or a string; every element type gives either a type name or a
model; every parameter is taken from one of the five places, gives its type twice, and names
elements exactly if it is an array, as the operation does; and no response has a code above 999. -/
theorem afterLines_wellFormed (package : String) (remarks : List Remark) :
    ((ofPackage package).afterLines remarks).WellFormed :=
  (wellFormed_ofPackage package).afterLines remarks

end Operation
end ApiDocs.Swagger
