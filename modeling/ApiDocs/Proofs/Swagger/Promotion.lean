/-
  ApiDocs.Proofs.Swagger.Promotion

  Own and promoted properties of a struct. A line can give a name a property of its own
  (`Owns`), and a line that embeds a struct can promote one to it (`Promotes`), from however deep
  below. All lines write into one dictionary, one after the other, so the last line that gives
  the name anything counts, whichever way it does (`HasProperties.lines_iff`). An own property
  is therefore kept exactly if no promoted one that differs comes last behind it
  (`own_property_kept_iff`); where a struct is embedded does matter.
-/

import ApiDocs.Proofs.Requests
import ApiDocs.Proofs.Swagger.Depth
import ApiDocs.Proofs.Swagger.Visits

namespace ApiDocs.Swagger.Builder

open Source (TypeExpr Field)
open Package (Resolved)

/-! ## What a line gives -/

/-- The property of a documented line whose values have this data type. -/
def propertyOf (field : Field) (type : DataType) : Property :=
  { type.toProperty with description := docText field.doc }

/-- The line gives the name a property of its own: it has an exported name that is documented
under this name, and its values are represented. -/
def Owns (find : Lookup) (unwrapping : List String) (package name : String) (field : Field)
    (property : Property) : Prop :=
  Documented field ∧
    (∃ exported ∈ field.names.filter isExported, (jsonName? field).getD exported = name) ∧
    ∃ type, HasType find unwrapping (.expression package field.type) (some type) ∧
      propertyOf field type = property

/-- The line embeds a declaration which gives the name this property. -/
def Promotes (find : Lookup) (unwrapping : List String) (package name : String) (field : Field)
    (property : Property) : Prop :=
  ∃ embedded r added, Embeds field embedded ∧ find embedded package = some r ∧
    HasProperties find unwrapping (.embedded r) ∅ added ∧ added[name]? = some property

/-- The line gives the name this property, in one way or the other. -/
def Gives (find : Lookup) (unwrapping : List String) (package name : String) (field : Field)
    (property : Property) : Prop :=
  Owns find unwrapping package name field property ∨
    Promotes find unwrapping package name field property

/-- No line gives anything. -/
def NoneOf (gives : Field → Property → Prop) (fields : List Field) : Prop :=
  ∀ field ∈ fields, ∀ property, ¬ gives field property

/-- The last of the lines that give anything gives this property. -/
def LastOf (gives : Field → Property → Prop) (fields : List Field) (property : Property) : Prop :=
  ∃ before field after, fields = before ++ field :: after ∧ gives field property ∧ NoneOf gives after

section LastOf

variable {gives gives' : Field → Property → Prop} {field : Field} {fields : List Field}
  {property : Property}

@[simp] theorem noneOf_nil : NoneOf gives [] := fun _ h => absurd h List.not_mem_nil

@[simp] theorem noneOf_cons :
    NoneOf gives (field :: fields) ↔ (∀ property, ¬ gives field property) ∧ NoneOf gives fields :=
  List.forall_mem_cons

theorem not_lastOf_nil : ¬ LastOf gives [] property := by
  rintro ⟨before, field, after, h, -⟩
  simp at h

theorem lastOf_cons : LastOf gives (field :: fields) property ↔
    LastOf gives fields property ∨ gives field property ∧ NoneOf gives fields := by
  constructor
  · rintro ⟨before, line, after, h, hline, hafter⟩
    cases before with
    | nil =>
      obtain ⟨rfl, rfl⟩ := List.cons.inj h
      exact .inr ⟨hline, hafter⟩
    | cons first before =>
      obtain ⟨-, rfl⟩ := List.cons.inj h
      exact .inl ⟨before, line, after, rfl, hline, hafter⟩
  · rintro (⟨before, line, after, rfl, hline, hafter⟩ | ⟨hfield, hafter⟩)
    · exact ⟨field :: before, line, after, rfl, hline, hafter⟩
    · exact ⟨[], field, fields, rfl, hfield, hafter⟩

/-- Behind a line that gives something, only the lines after it count. -/
theorem lastOf_append_cons (before : List Field) {own : Property} (hown : gives field own) :
    LastOf gives (before ++ field :: fields) property ↔
      LastOf gives fields property ∨ gives field property ∧ NoneOf gives fields := by
  induction before with
  | nil => exact lastOf_cons
  | cons first before ih =>
    have hsome : ¬ NoneOf gives (before ++ field :: fields) :=
      fun h => h field (by simp) own hown
    rw [List.cons_append, lastOf_cons, ih]
    exact or_iff_left fun h => hsome h.2

theorem exists_lastOf_or_noneOf (gives : Field → Property → Prop) (fields : List Field) :
    (∃ property, LastOf gives fields property) ∨ NoneOf gives fields := by
  induction fields with
  | nil => exact .inr noneOf_nil
  | cons field fields ih =>
    rcases ih with ⟨property, h⟩ | hnone
    · exact .inl ⟨property, lastOf_cons.2 (.inl h)⟩
    · by_cases hfield : ∃ property, gives field property
      · obtain ⟨property, h⟩ := hfield
        exact .inl ⟨property, lastOf_cons.2 (.inr ⟨h, hnone⟩)⟩
      · exact .inr (noneOf_cons.2 ⟨not_exists.1 hfield, hnone⟩)

theorem NoneOf.congr
    (h : ∀ field ∈ fields, ∀ property, gives field property ↔ gives' field property) :
    NoneOf gives fields ↔ NoneOf gives' fields :=
  forall₂_congr fun field hfield => forall_congr' fun property => not_congr (h field hfield property)

theorem LastOf.congr
    (h : ∀ field ∈ fields, ∀ property, gives field property ↔ gives' field property) :
    LastOf gives fields property ↔ LastOf gives' fields property := by
  induction fields with
  | nil => exact iff_of_false not_lastOf_nil not_lastOf_nil
  | cons field fields ih =>
    have hfields := fun line hline => h line (List.mem_cons_of_mem field hline)
    rw [lastOf_cons, lastOf_cons, ih hfields, NoneOf.congr hfields, h field List.mem_cons_self]

end LastOf

/-! ## Lines, one after the other -/

/-- What a documented line does to a name. -/
theorem getElem?_addProperties (field : Field) (exported : List String) (type : DataType)
    (properties : Dict Property) (name : String) :
    (addProperties field exported type properties)[name]? =
      if ∃ own ∈ exported, (jsonName? field).getD own = name then some (propertyOf field type)
      else properties[name]? := by
  unfold addProperties
  induction exported generalizing properties with
  | nil => simp
  | cons own exported ih =>
    rw [List.foldl_cons, ih, Dict.getElem?_insert]
    simp only [List.exists_mem_cons_iff]
    by_cases hown : (jsonName? field).getD own = name <;> simp [hown, propertyOf]

namespace HasProperties

variable {find : Lookup} {unwrapping : List String} {place : Place} {package name : String}
  {field : Field} {fields : List Field} {base result added : Dict Property} {property : Property}

/-- What a place adds does not depend on what is there: it is put over that. -/
theorem exists_added (h : HasProperties find unwrapping place base result) :
    ∃ added, ∀ other, HasProperties find unwrapping place other (other.extend added) := by
  have hempty : ∀ other : Dict Property, other.extend ∅ = other := fun other =>
    Std.ExtTreeMap.ext_getElem? fun n => by rw [Dict.getElem?_extend]; simp
  induction h with
  | silent hfield => exact ⟨∅, fun other => (hempty other).symm ▸ .silent hfield⟩
  | @documented unwrapping package field type _ hfield htype =>
    cases type with
    | none => exact ⟨∅, fun other => (hempty other).symm ▸ .documented hfield htype⟩
    | some type =>
      refine ⟨addProperties field (field.names.filter isExported) type ∅, fun other => ?_⟩
      have hover : other.extend (addProperties field (field.names.filter isExported) type ∅) =
          addProperties field (field.names.filter isExported) type other := by
        refine Std.ExtTreeMap.ext_getElem? fun n => ?_
        rw [Dict.getElem?_extend, getElem?_addProperties, getElem?_addProperties]
        split <;> simp
      exact hover ▸ .documented hfield htype
  | embeds hfield hfind _ ih =>
    obtain ⟨added, hadded⟩ := ih
    exact ⟨added, fun other => .embeds hfield hfind (hadded other)⟩
  | nil => exact ⟨∅, fun other => (hempty other).symm ▸ .nil⟩
  | cons _ _ ihfield ihfields =>
    -- the other lines are put over the first one, whatever both are put over
    obtain ⟨first, hfirst⟩ := ihfield
    obtain ⟨rest, hrest⟩ := ihfields
    refine ⟨first.extend rest, fun other => ?_⟩
    have hassoc : other.extend (first.extend rest) = (other.extend first).extend rest :=
      Std.ExtTreeMap.ext_getElem? fun n => by simp only [Dict.getElem?_extend, Option.or_assoc]
    exact hassoc ▸ .cons (hfirst other) (hrest _)
  | other hr => exact ⟨∅, fun other => (hempty other).symm ▸ .other hr⟩
  | cut hr hid => exact ⟨∅, fun other => (hempty other).symm ▸ .cut hr hid⟩
  | flattened hr hid _ ih =>
    obtain ⟨added, hadded⟩ := ih
    exact ⟨added, fun other => .flattened hr hid (hadded other)⟩

/-- What a place makes of given properties, from what it makes of none. -/
theorem exists_over (h : HasProperties find unwrapping place base result) :
    ∃ added, HasProperties find unwrapping place ∅ added ∧
      ∀ name : String, result[name]? = added[name]?.or base[name]? := by
  obtain ⟨added, hadded⟩ := h.exists_added
  refine ⟨_, hadded ∅, fun name => ?_⟩
  rw [h.unique (hadded base), Dict.getElem?_extend, Dict.getElem?_extend]
  simp

/-- A line gives its own properties or promotes others; what it does not give stays. -/
theorem line_iff (h : HasProperties find unwrapping (.line package field) base result) :
    result[name]? = some property ↔ Gives find unwrapping package name field property ∨
      (∀ other, ¬ Gives find unwrapping package name field other) ∧ base[name]? = some property := by
  cases h with
  | silent hfield =>
    have hnot : ∀ other, ¬ Gives find unwrapping package name field other := by
      rintro other (⟨hdocumented, -⟩ | ⟨embedded, r, added, hembeds, -⟩)
      · exact hfield.1 hdocumented
      · exact hfield.2 embedded hembeds
    simp only [hnot, false_or, not_false_eq_true, implies_true, true_and]
  | @documented _ _ _ type _ hfield htype =>
    have hgives : ∀ other, Gives find unwrapping package name field other ↔
        (∃ own ∈ field.names.filter isExported, (jsonName? field).getD own = name) ∧
          ∃ known, type = some known ∧ propertyOf field known = other := by
      refine fun other => ⟨?_, ?_⟩
      · rintro (⟨-, hnames, known, hknown, hproperty⟩ | ⟨embedded, r, added, hembeds, -⟩)
        · exact ⟨hnames, known, htype.unique hknown, hproperty⟩
        · exact absurd hembeds hfield.not_embeds
      · rintro ⟨hnames, known, rfl, hproperty⟩
        exact .inl ⟨hfield, hnames, known, htype, hproperty⟩
    simp only [hgives]
    cases type with
    | none => simp
    | some type =>
      rw [Option.elim_some, getElem?_addProperties]
      by_cases hnames : ∃ own ∈ field.names.filter isExported, (jsonName? field).getD own = name
      · simp only [hnames, if_true, true_and, Option.some.injEq, exists_eq_left']
        exact (or_iff_left fun h => h.1 _ rfl).symm
      · simp only [hnames, if_false, false_and, not_false_eq_true, implies_true, true_and, false_or]
  | embeds hfield hfind hembedded =>
    obtain ⟨added, hadded, hover⟩ := hembedded.exists_over
    have hgives : ∀ other, Gives find unwrapping package name field other ↔
        added[name]? = some other := by
      refine fun other => ⟨?_, fun hother => .inr ⟨_, _, added, hfield, hfind, hadded, hother⟩⟩
      rintro (⟨hdocumented, -⟩ | ⟨embedded', r', added', hembeds, hfind', hadded', hother⟩)
      · exact absurd hfield hdocumented.not_embeds
      · obtain rfl := hfield.unique hembeds
        obtain rfl := Option.some.inj (hfind.symm.trans hfind')
        rw [hadded.unique hadded', hother]
    simp only [hgives, hover]
    cases added[name]? <;> simp

/-- **The last line that gives a name anything counts.** -/
theorem lines_iff (h : HasProperties find unwrapping (.lines package fields) base result) :
    result[name]? = some property ↔ LastOf (Gives find unwrapping package name) fields property ∨
      NoneOf (Gives find unwrapping package name) fields ∧ base[name]? = some property := by
  induction fields generalizing base with
  | nil =>
    cases h
    simp [not_lastOf_nil]
  | cons field fields ih =>
    cases h with
    | cons hfield hfields =>
      -- what the first line leaves is what the other lines start with
      rw [ih hfields, hfield.line_iff, lastOf_cons, noneOf_cons]
      tauto

end HasProperties

/-! ## The model of a struct that is described -/

/-- Describing the name of a struct, without models so far, gives its model. -/
theorem describeName_hasModel {w : Workspace} {package written : String} {s : Session}
    {r : Resolved} {fields : List Field} (hplain : plainType? written = none)
    (hfind : s.find w written package = some r) (hr : r.decl.type = .struct fields) :
    Ensures (describeName w package written) { session := s }
      (fun _ b => ∃ model, b.models[idOf r]? = some model ∧ HasModel (s.find w) [] r model)
      (fun _ _ => True) := by
  refine ensures_describeName (fun type htype => ?_) (fun start t _ hstart hst => ?_)
    (fun _ _ _ _ => trivial)
  · rw [hplain] at htype
    cases htype
  obtain rfl := Option.some.inj (hfind.symm.trans hstart)
  obtain ⟨depth, hdepth⟩ : ∃ depth, depthBound s = depth + 1 := ⟨_, rfl⟩
  have hready := ready_of_find_eq (b := { session := t }) package written [] hst.find_eq
  rw [hdepth] at hready ⊢
  show Ensures (describeDecl w (walkWithin w depth) [] r) { session := t } _ _
  have hids : ∀ {unwrapping : List String} {place : Place}, Visits (s.find w) r unwrapping place →
      place.Of fun r => idOf r ∈ idsInReach s package written :=
    fun hplace => hplace.reached.idsInReach hfind
  have hnew : idOf r ∉ ({ session := t } : Builder).models := by simp
  have hput : Ready w (s.find w) (idsInReach s package written) depth []
      (Builder.put { session := t } (modelOf r ∅)) := hready.put (hids .start) hnew
  have hfields := collectFields_faithful (walkWithin_faithful hids depth) ∅ (Visits.start.lines hr) hput
  rw [Ensures, describeDecl_of_not_mem w (walkWithin w depth) [] hr hnew]
  rw [Ensures] at hfields
  cases hf : collectFields w (walkWithin w depth) [] r.package fields ∅ _ with
  | error e b => trivial
  | ok properties b =>
    rw [hf] at hfields
    -- the model with its properties is stored last, whatever was stored under its id before
    refine ⟨modelOf r properties, ?_, fields, properties, hr, hfields.2, rfl⟩
    rw [getElem?_put_modelOf, if_pos rfl]

/-- Describing a written type whose name is that of a struct gives the struct's model. -/
theorem run_gives_hasModel {w : Workspace} {package written : String} {s : Session}
    {r : Resolved} {fields : List Field} (hplain : plainType? (elementName written.toList) = none)
    (hfind : s.find w (elementName written.toList) package = some r)
    (hr : r.decl.type = .struct fields) :
    Ensures (run w package written) s
      (fun described _ => ∃ model, described.2[idOf r]? = some model ∧ HasModel (s.find w) [] r model)
      (fun _ _ => True) := by
  apply ensures_run
  refine describeWritten_rule (P := fun x => Ensures x _ _ _) (fun x hx => ?_) _
    (describeName_hasModel hplain hfind hr)
  apply ensures_bind
  exact hx.mono (fun _ _ h => ensures_pure h) (fun _ _ h => h)

/-- **An own property is kept exactly if no other one is promoted behind it.** Let a written type
name a struct, and let one of its lines be the last to give a name a property of its own. Then the
model has that property under the name, unless lines behind it promote one to it: the last of
these counts, and the own property is kept only if it is the same. Lines in front do not
matter. -/
theorem own_property_kept_iff {w : Workspace} {package written : String} {s t : Session}
    {type : DataType} {models : Dict Model} {r : Resolved} {before after : List Field} {field : Field}
    {name : String} {own : Property} (hrun : run w package written s = .ok (type, models) t)
    (hplain : plainType? (elementName written.toList) = none)
    (hfind : s.find w (elementName written.toList) package = some r)
    (hr : r.decl.type = .struct (before ++ field :: after))
    (hown : Owns (s.find w) [] r.package name field own)
    (hlast : NoneOf (Owns (s.find w) [] r.package name) after) :
    ∃ model, models[idOf r]? = some model ∧
      (∀ property, model.properties[name]? = some property ↔
        LastOf (Promotes (s.find w) [] r.package name) after property ∨
          property = own ∧ NoneOf (Promotes (s.find w) [] r.package name) after) ∧
      (model.properties[name]? = some own ↔
        ∀ promoted, LastOf (Promotes (s.find w) [] r.package name) after promoted →
          promoted = own) := by
  obtain ⟨model, hmodel, fields, properties, hr', hproperties, rfl⟩ :=
    (run_gives_hasModel hplain hfind hr).of_ok hrun
  obtain rfl := TypeExpr.struct.inj (hr.symm.trans hr')
  -- behind the line, whatever gives the name anything promotes it
  have hafter : ∀ line ∈ after, ∀ property,
      Gives (s.find w) [] r.package name line property ↔
        Promotes (s.find w) [] r.package name line property :=
    fun line hline property => or_iff_right (hlast line hline property)
  have hfield : ∀ property, Gives (s.find w) [] r.package name field property ↔ property = own := by
    refine fun property => ⟨?_, fun h => h ▸ .inl hown⟩
    obtain ⟨hdocumented, -, known, hknown, rfl⟩ := hown
    rintro (⟨-, -, other, hother, rfl⟩ | ⟨embedded, _, _, hembeds, -⟩)
    · rw [Option.some.inj (hother.unique hknown)]
    · exact absurd hembeds hdocumented.not_embeds
  have hexact : ∀ property, (modelOf r properties).properties[name]? = some property ↔
      LastOf (Promotes (s.find w) [] r.package name) after property ∨
        property = own ∧ NoneOf (Promotes (s.find w) [] r.package name) after := by
    intro property
    have hnone : ¬ NoneOf (Gives (s.find w) [] r.package name) (before ++ field :: after) :=
      fun h => h field (by simp) own (.inl hown)
    rw [← LastOf.congr hafter, ← NoneOf.congr hafter, ← hfield,
      ← lastOf_append_cons before (.inl hown)]
    exact hproperties.lines_iff.trans (or_iff_left fun h => hnone h.1)
  refine ⟨_, hmodel, hexact, fun hkept promoted hpromoted => ?_, fun hsame => ?_⟩
  · exact Option.some.inj (((hexact promoted).2 (.inl hpromoted)).symm.trans hkept)
  · rcases exists_lastOf_or_noneOf (Promotes (s.find w) [] r.package name) after with
      ⟨promoted, hpromoted⟩ | hnone
    · exact (hexact own).2 (.inl (hsame promoted hpromoted ▸ hpromoted))
    · exact (hexact own).2 (.inr ⟨rfl, hnone⟩)

/-! ## A struct that is embedded last -/

/-- The lines of a struct. -/
def structLines? : TypeExpr → Option (List Field)
  | .struct fields => some fields
  | _ => none

theorem structLines?_eq_some {type : TypeExpr} {fields : List Field}
    (h : structLines? type = some fields) : type = .struct fields := by
  unfold structLines? at h
  split at h
  · rw [Option.some.inj h]
  · cases h

/-- A name that needs no declaration, perhaps behind pointers. -/
theorem hasType_of_builtin {find : Lookup} {unwrapping : List String} {package : String}
    {type : TypeExpr} {qualifier : Option String} {name reference : String} {known : DataType}
    (hpointers : embeddedName? type = some reference) (hleaf : leafName? type = some (qualifier, name))
    (hbuiltin : builtin? qualifier name = some known) :
    HasType find unwrapping (.expression package type) (some known) := by
  fun_induction embeddedName? type with
  | case1 target ih => exact .pointer (ih hpointers hleaf)
  | case2 qualifier' name' =>
    obtain ⟨rfl, rfl⟩ := Prod.mk.inj (Option.some.inj hleaf)
    exact .builtin hbuiltin
  | case3 => cases hpointers

/-- An item with an id of its own, before the base that it embeds. -/
def embeddedLast : Workspace :=
  ((Workspace.empty.put ["src"] .directory).put ["src", "p"] .directory).put
    ["src", "p", "a.go"]
    (.file ("package p\ntype Base struct \x7b\n ID string `json:\"id\"`\n\x7d\n" ++
      "type Item struct \x7b\n ID int64 `json:\"id\"`\n Base\n\x7d\n").toUTF8)

/-- The item's own id is a number, but its model has the id of the base, which is a text. -/
theorem own_property_kept_iff_embeddedLast :
    let s := ({ roots := ⟨["src"], none⟩ } : Session).after [(embeddedLast, .buildTypes "p")]
    let own : Property := { typeName := some "integer", format := some "int64" }
    let kept : Property := { typeName := some "string" }
    ∃ type models t r field line model, run embeddedLast "p" "Item" s = .ok (type, models) t ∧
      r.decl.type = .struct [field, line] ∧
      Owns (s.find embeddedLast) [] r.package "id" field own ∧
      models[idOf r]? = some model ∧ model.properties["id"]? = some kept ∧ kept ≠ own ∧
      LastOf (Promotes (s.find embeddedLast) [] r.package "id") [line] kept := by
  intro s own kept
  have hitem : ∃ r ∈ s.find embeddedLast "Item" "p", idOf r = "p.Item" ∧
      ∃ fields ∈ structLines? r.decl.type, fields.map (·.names) = [["ID"], []] ∧
        fields.map (·.tagValue? "json") = [some "id", none] ∧
        fields.map (docText ·.doc) = [none, none] ∧
        fields.map (embeddedName? ·.type) = [some "int64", some "Base"] ∧
        fields.map (leafName? ·.type) = [some (none, "int64"), some (none, "Base")] := by
    decide +kernel
  obtain ⟨r, hfind, hid, fields, hfields, hnames, hview⟩ := hitem
  obtain ⟨field, rest, rfl, hname, hrest⟩ := List.map_eq_cons_iff.1 hnames
  obtain ⟨line, rest, rfl, hembedded, hrest⟩ := List.map_eq_cons_iff.1 hrest
  obtain rfl := List.map_eq_nil_iff.1 hrest
  simp only [List.map_cons, List.map_nil, List.cons.injEq, and_true] at hview
  obtain ⟨⟨htag, -⟩, ⟨hdoc, -⟩, ⟨hpointers, -⟩, ⟨hleaf, -⟩⟩ := hview
  have hr : r.decl.type = .struct ([] ++ field :: [line]) := structLines?_eq_some hfields
  have hresult : ((result? (run embeddedLast "p" "Item" s)).bind fun described =>
      described.2["p.Item"]?.bind fun model => model.properties["id"]?) = some kept := by
    decide +kernel
  obtain ⟨⟨type, models⟩, hok, hkept⟩ := Option.bind_eq_some_iff.1 hresult
  obtain ⟨model, hmodel, hkept⟩ := Option.bind_eq_some_iff.1 hkept
  have hrun := eq_ok_of_result? hok
  have hown : Owns (s.find embeddedLast) [] r.package "id" field own := by
    refine ⟨⟨?_, ?_, ?_⟩, ⟨"ID", ?_, ?_⟩, .primitive "integer" (some "int64"),
      hasType_of_builtin hpointers hleaf (by decide), ?_⟩
    · rw [htag]; decide
    · rw [Source.FieldOf.isEmbedded, hname]; rfl
    · rw [hname]; decide
    · rw [hname]; decide
    · rw [jsonName?, htag]; decide
    · rw [propertyOf, hdoc]; rfl
  have hlast : NoneOf (Owns (s.find embeddedLast) [] r.package "id") [line] := by
    rintro other hother property ⟨⟨-, hnamed, -⟩, -⟩
    obtain rfl := List.mem_singleton.1 hother
    rw [Source.FieldOf.isEmbedded, hembedded] at hnamed
    cases hnamed
  obtain ⟨model', hmodel', hexact, -⟩ := own_property_kept_iff hrun
    (by decide +kernel) hfind hr hown hlast
  rw [hid] at hmodel'
  obtain rfl := Option.some.inj (hmodel.symm.trans hmodel')
  have hne : kept ≠ own := by decide
  refine ⟨type, models, _, r, field, line, model, hrun, hr, hown, hid ▸ hmodel, hkept, hne, ?_⟩
  exact ((hexact kept).1 hkept).resolve_right fun h => hne h.1

end ApiDocs.Swagger.Builder
