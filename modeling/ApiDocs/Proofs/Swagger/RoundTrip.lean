/-
  ApiDocs.Proofs.Swagger.RoundTrip

  Documents are read back from their JSON form. A document is written as a record: its fields in
  order, each with a value or left out (`record`). Reading looks the fields up by their keys, so
  a field comes back if its value is read back and its default is what is left out.
-/

import ApiDocs.Document
import ApiDocs.Proofs.Dict
import ApiDocs.Proofs.Json.RoundTrip
import ApiDocs.Swagger.Decode

namespace ApiDocs.Swagger

/-! ## Records -/

/-- The members of a record: the fields that have a value. -/
def record (fields : List (String × Option Json)) : List (String × Json) :=
  fields.flatMap fun field => Json.member? field.1 field.2

theorem record_cons (field : String × Option Json) (fields : List (String × Option Json)) :
    record (field :: fields) = Json.member? field.1 field.2 ++ record fields := rfl

theorem lookup_member? (key key' : String) (value : Option Json) :
    (Json.member? key value).lookup key' = if key' = key then value else none := by
  cases value with
  | none => simp [Json.member?]
  | some value =>
    by_cases h : key' = key
    · simp [Json.member?, h]
    · have hbeq : (key' == key) = false := by simpa using h
      simp [Json.member?, List.lookup_cons, h, hbeq]

theorem mem_record {fields : List (String × Option Json)} {key : String} {value : Json} :
    (key, value) ∈ record fields ↔ (key, some value) ∈ fields := by
  simp only [record, Json.member?, List.mem_flatMap, List.mem_map, Option.mem_toList]
  constructor
  · rintro ⟨⟨k, v⟩, hfield, v', rfl, heq⟩
    cases heq
    exact hfield
  · intro h
    exact ⟨_, h, value, rfl, rfl⟩

section Record

variable {fields : List (String × Option Json)} {key : String}

/-- The keys of a record are some of those of its fields, in order. -/
theorem sublist_keys (fields : List (String × Option Json)) :
    List.Sublist ((record fields).map (·.1)) (fields.map (·.1)) := by
  induction fields with
  | nil => exact .slnil
  | cons field fields ih =>
    obtain ⟨key, value⟩ := field
    cases value with
    | none => exact ih.cons key
    | some value => exact ih.cons_cons key

theorem lookup_record_of_notMem (h : key ∉ fields.map (·.1)) :
    (record fields).lookup key = none := by
  induction fields with
  | nil => rfl
  | cons field fields ih =>
    rw [List.map_cons, List.mem_cons, not_or] at h
    rw [record_cons, List.lookup_append, lookup_member?, if_neg h.1, ih h.2]
    rfl

variable (hkeys : (fields.map (·.1)).Nodup)
include hkeys

/-- A field is found under its key. -/
theorem lookup_record {value : Option Json} (h : (key, value) ∈ fields) :
    (record fields).lookup key = value := by
  induction fields with
  | nil => simp at h
  | cons field fields ih =>
    obtain ⟨hkey, hkeys⟩ := List.nodup_cons.1 hkeys
    rw [record_cons, List.lookup_append, lookup_member?]
    rcases List.mem_cons.1 h with rfl | h
    · rw [if_pos rfl, lookup_record_of_notMem hkey, Option.or_none]
    · have hne : key ≠ field.1 := fun heq => hkey (List.mem_map.2 ⟨_, h, heq⟩)
      rw [if_neg hne, ih hkeys h, Option.none_or]

/-- A record is read as its members. -/
theorem fields?_record {specs : List FieldSpec} (hspecs : specs.map (·.key) = fields.map (·.1)) :
    fields? specs (.object (record fields)) = some (record fields) := by
  rw [fields?, fieldsOfMembers?, List.filter_eq_self.2, if_pos ((sublist_keys fields).nodup hkeys)]
  -- every key of the record is known
  intro member hmember
  have hkey := (sublist_keys fields).subset (List.mem_map_of_mem hmember)
  rw [← hspecs] at hkey
  simpa using hkey

/-- A field that is always written. -/
theorem Fields.required?_record {α : Type} {decode : Json → Option α} {json : Json} {value : α}
    (hdecode : decode json = some value) (h : (key, some json) ∈ fields) :
    Fields.required? (record fields) key decode = some value := by
  rw [required?, lookup_record hkeys h, Option.bind_some, hdecode]

/-- A field that is left out if it has no value. -/
theorem Fields.optional?_record {α : Type} {encode : α → Json} {decode : Json → Option α}
    {value : Option α} (hdecode : ∀ v, decode (encode v) = some v) (hnull : ∀ v, encode v ≠ .null)
    (h : (key, value.map encode) ∈ fields) :
    Fields.optional? (record fields) key decode = some value := by
  rw [optional?, lookup_record hkeys h]
  cases value with
  | none => rfl
  | some value =>
    rw [Option.map_some]
    split
    · rename_i heq
      cases heq
    · rename_i heq
      exact absurd (Option.some.inj heq) (hnull value)
    · rename_i heq
      rw [← Option.some.inj heq, hdecode, Option.map_some]

/-- A field that is always written though it has a default. -/
theorem Fields.given_record {α : Type} {decode : Json → Option α} {value default : α} {json : Json}
    (hdecode : decode json = some value) (h : (key, some json) ∈ fields) :
    Fields.withDefault? (record fields) key default decode = some value := by
  rw [withDefault?, lookup_record hkeys h]
  exact hdecode

/-- A field that is left out if it has its default. -/
theorem Fields.withDefault?_record {α : Type} {decode : Json → Option α} {value default : α}
    {json : Json} {omitted : Bool} (homitted : omitted = true → value = default)
    (hdecode : decode json = some value) (h : (key, if omitted then none else some json) ∈ fields) :
    Fields.withDefault? (record fields) key default decode = some value := by
  rw [withDefault?, lookup_record hkeys h]
  cases omitted with
  | true => rw [if_pos rfl, homitted rfl]
  | false => exact hdecode

end Record

/-! ## Lists and dictionaries -/

theorem listOf?_map {α β : Type} {encode : α → Json} {decode : Json → Option β} {f : α → β}
    (h : ∀ v, decode (encode v) = some (f v)) (items : List α) :
    listOf? decode (.array (items.map encode)) = some (items.map f) := by
  rw [listOf?]
  induction items with
  | nil => rfl
  | cons item items ih => simp [h, ih]

theorem listOf?_map_of_eq {α : Type} {encode : α → Json} {decode : Json → Option α}
    (h : ∀ v, decode (encode v) = some v) (items : List α) :
    listOf? decode (.array (items.map encode)) = some items := by
  rw [listOf?_map h, List.map_id']

theorem dictOf?_dictJson {α : Type} {encode : α → Json} {decode : Json → Option α}
    (h : ∀ v, decode (encode v) = some v) (d : Dict α) :
    dictOf? decode (dictJson encode d) = some d := by
  have hobject : dictJson encode d =
      .object (d.toList.map fun entry => (entry.1, encode entry.2)) := rfl
  have hentries : ((d.toList.map fun entry => (entry.1, encode entry.2)).mapM
      fun member => (decode member.2).map (member.1, ·)) = some d.toList := by
    induction d.toList with
    | nil => rfl
    | cons entry entries ih => simp [h, ih]
  rw [hobject, dictOf?, hentries, Option.map_some, Dict.ofEntries_toList]

/-! ## Documents -/

/-- The value of a text field that is left out if it is empty. -/
def shownText (value : String) : Option Json :=
  if value.isEmpty then none else some (.string value)

/-- The value of a list field that is left out if it is empty. -/
def shownItems {α : Type} (encode : α → Json) (items : List α) : Option Json :=
  if items.isEmpty then none else some (.array (items.map encode))

theorem text?_eq (key value : String) :
    Json.text? key value = Json.member? key (shownText value) := by
  rw [Json.text?, Json.member?, shownText]
  split <;> rfl

theorem items?_eq {α : Type} (key : String) (encode : α → Json) (items : List α) :
    Json.items? key (items.map encode) = Json.member? key (shownItems encode items) := by
  rw [Json.items?, Json.member?, shownItems, List.isEmpty_map]
  split <;> rfl

/-- The fields of an element type. -/
def Items.fields (i : Items) : List (String × Option Json) :=
  [("type", i.typeName.map .string), ("$ref", i.reference.map .string)]

/-- The fields of a property. -/
def Property.fields (p : Property) : List (String × Option Json) :=
  [("type", p.typeName.map .string), ("format", p.format.map .string),
    ("$ref", p.reference.map .string), ("items", p.items.map Items.toJson),
    ("description", p.description.map .string)]

/-- The fields of a model. -/
def Model.fields (m : Model) : List (String × Option Json) :=
  [("id", some (.string m.id)), ("description", m.description.map .string),
    ("properties", some (dictJson Property.toJson m.properties))]

/-- The fields of a parameter. -/
def Parameter.fields (p : Parameter) : List (String × Option Json) :=
  [("paramType", some (.string p.location)), ("name", some (.string p.name)),
    ("description", shownText p.description), ("dataType", some (.string p.dataType)),
    ("type", some (.string p.typeName)), ("format", p.format.map .string),
    ("items", p.items.map Items.toJson), ("allowMultiple", some (.bool p.allowMultiple)),
    ("required", some (.bool p.required))]

/-- The fields of a response. -/
def ResponseMessage.fields (r : ResponseMessage) : List (String × Option Json) :=
  [("code", some (.natural r.code.toNat)), ("message", some (.string r.message)),
    ("responseModel", r.responseModel.map .string)]

/-- The fields of an operation that are part of its document. -/
def Operation.fields (o : Operation) : List (String × Option Json) :=
  [("method", some (.string o.method)), ("nickname", some (.string o.nickname)),
    ("type", some (.string o.typeName)), ("items", o.items.map Items.toJson),
    ("summary", shownText o.summary), ("notes", shownText o.notes),
    ("parameters", some (.array (o.parameters.map Parameter.toJson))),
    ("responseMessages", shownItems ResponseMessage.toJson o.responseMessages),
    ("consumes", shownItems .string o.consumes), ("produces", shownItems .string o.produces)]

/-- The fields of the general information. -/
def Information.fields (i : Information) : List (String × Option Json) :=
  [("title", shownText i.title), ("description", shownText i.description),
    ("termsOfServiceUrl", shownText i.termsOfServiceUrl), ("contact", shownText i.contact),
    ("license", shownText i.license), ("licenseUrl", shownText i.licenseUrl)]

/-- The fields of a reference to a resource. -/
def ResourceRef.fields (r : ResourceRef) : List (String × Option Json) :=
  [("path", some (.string r.path)), ("description", some (.string r.description))]

/-- The fields of a listing. -/
def ResourceListing.fields (l : ResourceListing) : List (String × Option Json) :=
  [("apiVersion", some (.string l.apiVersion)), ("swaggerVersion", some (.string l.swaggerVersion)),
    ("apis", some (.array (l.apis.map ResourceRef.toJson))), ("info", some l.info.toJson)]

/-- The fields of the operations of a path. -/
def Api.fields (a : Api) : List (String × Option Json) :=
  [("path", some (.string a.path)), ("description", shownText a.description),
    ("operations", some (.array (a.operations.map Operation.toJson)))]

/-- The fields of the declaration of a resource. -/
def ApiDeclaration.fields (d : ApiDeclaration) : List (String × Option Json) :=
  [("apiVersion", some (.string d.apiVersion)), ("swaggerVersion", some (.string d.swaggerVersion)),
    ("basePath", some (.string d.basePath)), ("resourcePath", some (.string d.resourcePath)),
    ("apis", some (.array (d.apis.map Api.toJson))),
    ("models", some (dictJson Model.toJson d.models))]

theorem Items.toJson_eq (i : Items) : i.toJson = .object (record i.fields) := by
  simp [toJson, record, fields, optionalText]

theorem Property.toJson_eq (p : Property) : p.toJson = .object (record p.fields) := by
  simp [toJson, record, fields, optionalText, optionalItems]

theorem Model.toJson_eq (m : Model) : m.toJson = .object (record m.fields) := by
  simp [toJson, record, fields, optionalText, Json.member?]

theorem Parameter.toJson_eq (p : Parameter) : p.toJson = .object (record p.fields) := by
  simp [toJson, record, fields, optionalText, optionalItems, text?_eq, Json.member?]

theorem ResponseMessage.toJson_eq (r : ResponseMessage) : r.toJson = .object (record r.fields) := by
  simp [toJson, record, fields, optionalText, Json.member?]

theorem Operation.toJson_eq (o : Operation) : o.toJson = .object (record o.fields) := by
  simp [toJson, record, fields, optionalItems, text?_eq, items?_eq, Json.member?]

theorem Information.toJson_eq (i : Information) : i.toJson = .object (record i.fields) := by
  simp [toJson, record, fields, text?_eq]

theorem ResourceRef.toJson_eq (r : ResourceRef) : r.toJson = .object (record r.fields) := by
  simp [toJson, record, fields, Json.member?]

theorem ResourceListing.toJson_eq (l : ResourceListing) : l.toJson = .object (record l.fields) := by
  simp [toJson, record, fields, Json.member?]

theorem Api.toJson_eq (a : Api) : a.toJson = .object (record a.fields) := by
  simp [toJson, record, fields, text?_eq, Json.member?]

theorem ApiDeclaration.toJson_eq (d : ApiDeclaration) : d.toJson = .object (record d.fields) := by
  simp [toJson, record, fields, Json.member?]

/-! ## Reading documents back -/

/-- One field is read after the other. -/
theorem then_reads {α β : Type} {x : Option α} {a : α} {f : α → Option β} {b : β} (hx : x = some a)
    (h : f a = some b) : (x >>= f) = some b :=
  Option.bind_eq_some_iff.2 ⟨a, hx, h⟩

theorem textOf?_string (s : String) : textOf? (.string s) = some s := rfl

section Fields

variable {fields : List (String × Option Json)} (hkeys : (fields.map (·.1)).Nodup) {key : String}
include hkeys

namespace Fields

theorem requiredText_record {v : String} (h : (key, some (.string v)) ∈ fields) :
    required? (record fields) key textOf? = some v :=
  required?_record hkeys (textOf?_string v) h

theorem requiredBool_record {v : Bool} (h : (key, some (.bool v)) ∈ fields) :
    required? (record fields) key boolOf? = some v :=
  required?_record hkeys rfl h

theorem optionalText_record {v : Option String} (h : (key, v.map .string) ∈ fields) :
    optional? (record fields) key textOf? = some v :=
  optional?_record hkeys textOf?_string (by simp) h

theorem text?_record {v : String} (h : (key, some (.string v)) ∈ fields) :
    text? (record fields) key = some v :=
  given_record hkeys (textOf?_string v) h

theorem shownText_record {v : String} (h : (key, shownText v) ∈ fields) :
    text? (record fields) key = some v :=
  withDefault?_record hkeys (fun hempty => by simpa using hempty) (textOf?_string v) h

theorem shownItems_record {α : Type} {encode : α → Json} {decode : Json → Option α}
    (hdecode : ∀ item, decode (encode item) = some item) {v : List α}
    (h : (key, shownItems encode v) ∈ fields) :
    withDefault? (record fields) key [] (listOf? decode) = some v :=
  withDefault?_record hkeys (fun hempty => by simpa using hempty)
    (listOf?_map_of_eq hdecode v) h

end Fields
end Fields

/-- The operation as its document tells it: without the fields that the document leaves out. -/
def Operation.documented (o : Operation) : Operation :=
  { o with path := "", resourceName := none, package := "", models := ∅ }

/-- The operations of a path as their document tells them. -/
def Api.documented (a : Api) : Api :=
  { a with operations := a.operations.map Operation.documented }

/-- The declaration as its document tells it. -/
def ApiDeclaration.documented (d : ApiDeclaration) : ApiDeclaration :=
  { d with apis := d.apis.map Api.documented }

open Fields

theorem Items.ofJson?_toJson (i : Items) : ofJson? i.toJson = some i := by
  have hkeys : (i.fields.map (·.1)).Nodup := by simp [fields]
  rw [toJson_eq, ofJson?]
  refine then_reads (fields?_record hkeys rfl) ?_
  refine then_reads (optionalText_record (v := i.typeName) hkeys (by simp [fields])) ?_
  refine then_reads (optionalText_record (v := i.reference) hkeys (by simp [fields])) ?_
  rfl

theorem Fields.optionalItems_record {fields : List (String × Option Json)}
    (hkeys : (fields.map (·.1)).Nodup) {key : String} {v : Option Items}
    (h : (key, v.map Items.toJson) ∈ fields) :
    optional? (record fields) key Items.ofJson? = some v :=
  optional?_record hkeys Items.ofJson?_toJson (by simp [Items.toJson]) h

theorem Property.ofJson?_toJson (p : Property) : ofJson? p.toJson = some p := by
  have hkeys : (p.fields.map (·.1)).Nodup := by simp [fields]
  rw [toJson_eq, ofJson?]
  refine then_reads (fields?_record hkeys rfl) ?_
  refine then_reads (optionalText_record (v := p.typeName) hkeys (by simp [fields])) ?_
  refine then_reads (optionalText_record (v := p.format) hkeys (by simp [fields])) ?_
  refine then_reads (optionalText_record (v := p.reference) hkeys (by simp [fields])) ?_
  refine then_reads (optionalItems_record (v := p.items) hkeys (by simp [fields])) ?_
  refine then_reads (optionalText_record (v := p.description) hkeys (by simp [fields])) ?_
  rfl

theorem Model.ofJson?_toJson (m : Model) : ofJson? m.toJson = some m := by
  have hkeys : (m.fields.map (·.1)).Nodup := by simp [fields]
  have hproperties := dictOf?_dictJson Property.ofJson?_toJson m.properties
  rw [toJson_eq, ofJson?]
  refine then_reads (fields?_record hkeys rfl) ?_
  refine then_reads (requiredText_record (v := m.id) hkeys (by simp [fields])) ?_
  refine then_reads (optionalText_record (v := m.description) hkeys (by simp [fields])) ?_
  refine then_reads (required?_record hkeys hproperties (by simp [fields])) ?_
  rfl

theorem Parameter.ofJson?_toJson (p : Parameter) : ofJson? p.toJson = some p := by
  have hkeys : (p.fields.map (·.1)).Nodup := by simp [fields]
  rw [toJson_eq, ofJson?]
  refine then_reads (fields?_record hkeys rfl) ?_
  refine then_reads (requiredText_record (v := p.location) hkeys (by simp [fields])) ?_
  refine then_reads (requiredText_record (v := p.name) hkeys (by simp [fields])) ?_
  refine then_reads (shownText_record (v := p.description) hkeys (by simp [fields])) ?_
  refine then_reads (requiredText_record (v := p.dataType) hkeys (by simp [fields])) ?_
  refine then_reads (requiredText_record (v := p.typeName) hkeys (by simp [fields])) ?_
  refine then_reads (optionalText_record (v := p.format) hkeys (by simp [fields])) ?_
  refine then_reads (optionalItems_record (v := p.items) hkeys (by simp [fields])) ?_
  refine then_reads (requiredBool_record (v := p.allowMultiple) hkeys (by simp [fields])) ?_
  refine then_reads (requiredBool_record (v := p.required) hkeys (by simp [fields])) ?_
  rfl

theorem codeOf?_toNat (code : UInt16) : codeOf? (.natural code.toNat) = some code := by
  rw [codeOf?, if_pos code.toNat_lt, UInt16.ofNat_toNat]

theorem ResponseMessage.ofJson?_toJson (r : ResponseMessage) : ofJson? r.toJson = some r := by
  have hkeys : (r.fields.map (·.1)).Nodup := by simp [fields]
  rw [toJson_eq, ofJson?]
  refine then_reads (fields?_record hkeys rfl) ?_
  refine then_reads (required?_record hkeys (codeOf?_toNat r.code) (by simp [fields])) ?_
  refine then_reads (requiredText_record (v := r.message) hkeys (by simp [fields])) ?_
  refine then_reads (optionalText_record (v := r.responseModel) hkeys (by simp [fields])) ?_
  rfl

theorem Operation.ofJson?_toJson (o : Operation) : ofJson? o.toJson = some o.documented := by
  have hkeys : (o.fields.map (·.1)).Nodup := by simp [fields]
  have hparameters := listOf?_map_of_eq Parameter.ofJson?_toJson o.parameters
  rw [toJson_eq, ofJson?]
  refine then_reads (fields?_record hkeys rfl) ?_
  refine then_reads (text?_record (v := o.method) hkeys (by simp [fields])) ?_
  refine then_reads (text?_record (v := o.nickname) hkeys (by simp [fields])) ?_
  refine then_reads (text?_record (v := o.typeName) hkeys (by simp [fields])) ?_
  refine then_reads (optionalItems_record (v := o.items) hkeys (by simp [fields])) ?_
  refine then_reads (shownText_record (v := o.summary) hkeys (by simp [fields])) ?_
  refine then_reads (shownText_record (v := o.notes) hkeys (by simp [fields])) ?_
  refine then_reads (given_record hkeys hparameters (by simp [fields])) ?_
  refine then_reads (shownItems_record (v := o.responseMessages) hkeys
    ResponseMessage.ofJson?_toJson (by simp [fields])) ?_
  refine then_reads (shownItems_record (v := o.consumes) hkeys textOf?_string (by simp [fields])) ?_
  refine then_reads (shownItems_record (v := o.produces) hkeys textOf?_string (by simp [fields])) ?_
  rfl

theorem Information.ofJson?_toJson (i : Information) : ofJson? i.toJson = some i := by
  have hkeys : (i.fields.map (·.1)).Nodup := by simp [fields]
  rw [toJson_eq, ofJson?]
  refine then_reads (fields?_record hkeys rfl) ?_
  refine then_reads (shownText_record (v := i.title) hkeys (by simp [fields])) ?_
  refine then_reads (shownText_record (v := i.description) hkeys (by simp [fields])) ?_
  refine then_reads (shownText_record (v := i.termsOfServiceUrl) hkeys (by simp [fields])) ?_
  refine then_reads (shownText_record (v := i.contact) hkeys (by simp [fields])) ?_
  refine then_reads (shownText_record (v := i.license) hkeys (by simp [fields])) ?_
  refine then_reads (shownText_record (v := i.licenseUrl) hkeys (by simp [fields])) ?_
  rfl

theorem ResourceRef.ofJson?_toJson (r : ResourceRef) : ofJson? r.toJson = some r := by
  have hkeys : (r.fields.map (·.1)).Nodup := by simp [fields]
  rw [toJson_eq, ofJson?]
  refine then_reads (fields?_record hkeys rfl) ?_
  refine then_reads (requiredText_record (v := r.path) hkeys (by simp [fields])) ?_
  refine then_reads (requiredText_record (v := r.description) hkeys (by simp [fields])) ?_
  rfl

theorem ResourceListing.ofJson?_toJson (l : ResourceListing) : ofJson? l.toJson = some l := by
  have hkeys : (l.fields.map (·.1)).Nodup := by simp [fields]
  have hapis := listOf?_map_of_eq ResourceRef.ofJson?_toJson l.apis
  have hinfo := Information.ofJson?_toJson l.info
  rw [toJson_eq, ofJson?]
  refine then_reads (fields?_record hkeys rfl) ?_
  refine then_reads (requiredText_record (v := l.apiVersion) hkeys (by simp [fields])) ?_
  refine then_reads (requiredText_record (v := l.swaggerVersion) hkeys (by simp [fields])) ?_
  refine then_reads (required?_record hkeys hapis (by simp [fields])) ?_
  refine then_reads (required?_record hkeys hinfo (by simp [fields])) ?_
  rfl

theorem Api.ofJson?_toJson (a : Api) : ofJson? a.toJson = some a.documented := by
  have hkeys : (a.fields.map (·.1)).Nodup := by simp [fields]
  have hoperations := listOf?_map Operation.ofJson?_toJson a.operations
  rw [toJson_eq, ofJson?]
  refine then_reads (fields?_record hkeys rfl) ?_
  refine then_reads (requiredText_record (v := a.path) hkeys (by simp [fields])) ?_
  refine then_reads (shownText_record (v := a.description) hkeys (by simp [fields])) ?_
  refine then_reads (required?_record hkeys hoperations (by simp [fields])) ?_
  rfl

theorem ApiDeclaration.ofJson?_toJson (d : ApiDeclaration) :
    ofJson? d.toJson = some d.documented := by
  have hkeys : (d.fields.map (·.1)).Nodup := by simp [fields]
  have hapis := listOf?_map Api.ofJson?_toJson d.apis
  have hmodels := dictOf?_dictJson Model.ofJson?_toJson d.models
  rw [toJson_eq, ofJson?]
  refine then_reads (fields?_record hkeys rfl) ?_
  refine then_reads (requiredText_record (v := d.apiVersion) hkeys (by simp [fields])) ?_
  refine then_reads (requiredText_record (v := d.swaggerVersion) hkeys (by simp [fields])) ?_
  refine then_reads (requiredText_record (v := d.basePath) hkeys (by simp [fields])) ?_
  refine then_reads (requiredText_record (v := d.resourcePath) hkeys (by simp [fields])) ?_
  refine then_reads (required?_record hkeys hapis (by simp [fields])) ?_
  refine then_reads (required?_record hkeys hmodels (by simp [fields])) ?_
  rfl

/-! ## What documents are made of -/

/-- The value of a field, if it has one, is plain. -/
def PlainField (value : Option Json) : Prop :=
  ∀ json ∈ value, json.Plain

section Plain

variable {α : Type} {encode : α → Json}

@[simp] theorem plainField_some {json : Json} : PlainField (some json) ↔ json.Plain := by
  simp [PlainField]

@[simp] theorem plainField_map (h : ∀ v, (encode v).Plain) (value : Option α) :
    PlainField (value.map encode) := by
  simpa [PlainField] using fun v _ => h v

@[simp] theorem plainField_shownText (text : String) : PlainField (shownText text) := by
  rw [shownText]
  split
  · simp [PlainField]
  · exact plainField_some.2 (.string text)

@[simp] theorem plain_array (h : ∀ v, (encode v).Plain) (items : List α) :
    (Json.array (items.map encode)).Plain := by
  refine .array fun item hitem => ?_
  obtain ⟨v, -, rfl⟩ := List.mem_map.1 hitem
  exact h v

@[simp] theorem plainField_shownItems (h : ∀ v, (encode v).Plain) (items : List α) :
    PlainField (shownItems encode items) := by
  rw [shownItems]
  split
  · simp [PlainField]
  · exact plainField_some.2 (plain_array h items)

@[simp] theorem plain_dictJson (h : ∀ v, (encode v).Plain) (d : Dict α) :
    (dictJson encode d).Plain := by
  refine .object fun member hmember => ?_
  obtain ⟨entry, -, rfl⟩ := List.mem_map.1 hmember
  exact h entry.2

theorem plain_record {fields : List (String × Option Json)}
    (h : ∀ field ∈ fields, PlainField field.2) : (Json.object (record fields)).Plain :=
  .object fun member hmember => h (member.1, some member.2) (mem_record.1 hmember) member.2 rfl

end Plain

@[simp] theorem Items.plain_toJson (i : Items) : i.toJson.Plain := by
  rw [toJson_eq]
  refine plain_record ?_
  simp [fields]

@[simp] theorem Property.plain_toJson (p : Property) : p.toJson.Plain := by
  rw [toJson_eq]
  refine plain_record ?_
  simp [fields]

@[simp] theorem Model.plain_toJson (m : Model) : m.toJson.Plain := by
  rw [toJson_eq]
  refine plain_record ?_
  simp [fields]

@[simp] theorem Parameter.plain_toJson (p : Parameter) : p.toJson.Plain := by
  rw [toJson_eq]
  refine plain_record ?_
  simp [fields]

@[simp] theorem ResponseMessage.plain_toJson (r : ResponseMessage) : r.toJson.Plain := by
  rw [toJson_eq]
  refine plain_record ?_
  simp [fields]

@[simp] theorem Operation.plain_toJson (o : Operation) : o.toJson.Plain := by
  rw [toJson_eq]
  refine plain_record ?_
  simp [fields]

@[simp] theorem Information.plain_toJson (i : Information) : i.toJson.Plain := by
  rw [toJson_eq]
  refine plain_record ?_
  simp [fields]

@[simp] theorem ResourceRef.plain_toJson (r : ResourceRef) : r.toJson.Plain := by
  rw [toJson_eq]
  refine plain_record ?_
  simp [fields]

@[simp] theorem ResourceListing.plain_toJson (l : ResourceListing) : l.toJson.Plain := by
  rw [toJson_eq]
  refine plain_record ?_
  simp [fields]

@[simp] theorem Api.plain_toJson (a : Api) : a.toJson.Plain := by
  rw [toJson_eq]
  refine plain_record ?_
  simp [fields]

@[simp] theorem ApiDeclaration.plain_toJson (d : ApiDeclaration) : d.toJson.Plain := by
  rw [toJson_eq]
  refine plain_record ?_
  simp [fields]

/-! ## Texts -/

/-- What the document leaves out does not change it. -/
theorem Operation.toJson_documented (o : Operation) : o.documented.toJson = o.toJson := rfl

theorem Api.toJson_documented (a : Api) : a.documented.toJson = a.toJson := by
  simp [toJson, documented, Operation.toJson_documented, Function.comp_def]

theorem ApiDeclaration.toJson_documented (d : ApiDeclaration) : d.documented.toJson = d.toJson := by
  simp [toJson, documented, Api.toJson_documented, Function.comp_def]

section Text

variable {α : Type} (encode : α → Json) (decode : Json → Option α)

/-- The text of a document. -/
def writeText (document : α) : String :=
  OutputFormat.json.render (encode document)

/-- The document that a text holds. -/
def readText? (text : String) : Option α :=
  (Json.parse? text).bind decode

/-- Documents are read back from their texts, as `told` says, and reading and writing a text that
was written from a document which was read changes nothing more. -/
structure RoundTrips (told : α → α) : Prop where
  readText_writeText : ∀ document,
    readText? decode (writeText encode document) = some (told document)
  settled : ∀ text document, readText? decode text = some document →
    (readText? decode (writeText encode document)).map (writeText encode) =
      some (writeText encode document)

variable {encode decode}

theorem roundTrips_of_decode {told : α → α} (hplain : ∀ document, (encode document).Plain)
    (hdecode : ∀ document, decode (encode document) = some (told document))
    (htold : ∀ document, encode (told document) = encode document) :
    RoundTrips encode decode told := by
  have hread : ∀ document, readText? decode (writeText encode document) = some (told document) := by
    intro document
    have hparse : Json.parse? (writeText encode document) = some (encode document) :=
      Json.parse?_render (hplain document)
    rw [readText?, hparse, Option.bind_some, hdecode]
  refine ⟨hread, fun text document _ => ?_⟩
  rw [hread, Option.map_some, writeText, htold]
  rfl

end Text

/-- **Documents of every kind are read back from their JSON texts.** Only the fields of operations
that are not part of a document become what they are by default. -/
theorem documents_read_back :
    RoundTrips ResourceListing.toJson ResourceListing.ofJson? id ∧
      RoundTrips ApiDeclaration.toJson ApiDeclaration.ofJson? ApiDeclaration.documented ∧
      RoundTrips Operation.toJson Operation.ofJson? Operation.documented ∧
      RoundTrips Model.toJson Model.ofJson? id := by
  refine ⟨?listing, ?declaration, ?operation, ?model⟩
  case listing =>
    exact roundTrips_of_decode ResourceListing.plain_toJson ResourceListing.ofJson?_toJson
      fun _ => rfl
  case declaration =>
    exact roundTrips_of_decode ApiDeclaration.plain_toJson ApiDeclaration.ofJson?_toJson
      ApiDeclaration.toJson_documented
  case operation =>
    exact roundTrips_of_decode Operation.plain_toJson Operation.ofJson?_toJson
      Operation.toJson_documented
  case model =>
    exact roundTrips_of_decode Model.plain_toJson Model.ofJson?_toJson fun _ => rfl

end ApiDocs.Swagger
