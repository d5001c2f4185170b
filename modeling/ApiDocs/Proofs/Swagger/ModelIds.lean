/-
  ApiDocs.Proofs.Swagger.ModelIds

  Which types share a model id. Ids have points for the slashes of package identifiers, and so two
  types have one id exactly if they have one name and their packages differ in slashes and points
  only (`modelId_eq_iff`). Each id that describing a type gives has the model of the one struct that
  was entered with this id; a reference to another struct with the same id gives that model too
  (`model_of_reference`).
-/

import ApiDocs.Proofs.Swagger.Promotion
import ApiDocs.Proofs.Swagger.References
import ApiDocs.Proofs.Swagger.Search
import ApiDocs.Proofs.Text

namespace ApiDocs.Swagger.Builder

open Source (Field)
open Package (Resolved)

/-! ## Ids -/

/-- The identifier of a package with points for slashes. -/
def folded (package : String) : List Char :=
  package.toList.map fun c => if c = '/' then '.' else c

theorem toList_modelId (package name : String) :
    (modelId package name).toList = folded package ++ '.' :: name.toList := by
  simp [modelId, folded]

/-- Without points there were no slashes. -/
theorem folded_eq_toList {package : String} (hpoint : '.' ∉ folded package) :
    folded package = package.toList := by
  have hkept : ∀ c ∈ package.toList, (if c = '/' then '.' else c) = c := by
    intro c hc
    refine if_neg fun hslash => hpoint ?_
    exact List.mem_map.2 ⟨c, hc, if_pos hslash⟩
  rw [folded, List.map_congr_left hkept, List.map_id']

/-- What stands behind the last point is the name. -/
theorem modelId_eq_iff {package package' name name' : String} (hname : '.' ∉ name.toList)
    (hname' : '.' ∉ name'.toList) :
    modelId package name = modelId package' name' ↔
      name = name' ∧ folded package = folded package' := by
  rw [← String.toList_inj, toList_modelId, toList_modelId]
  constructor
  · intro h
    have hpieces := congrArg (Text.splitOn '.') h
    rw [Text.splitOn_append_sep hname, Text.splitOn_append_sep hname'] at hpieces
    have hlast : name.toList = name'.toList :=
      List.singleton_inj.1 (List.append_inj_right' hpieces rfl)
    rw [hlast] at h
    exact ⟨String.toList_inj.1 hlast, List.append_cancel_right h⟩
  · rintro ⟨rfl, h⟩
    rw [h]

/-- The name of a declaration that was found has no points: it is the last piece of a
reference. -/
theorem point_not_mem_of_find {w : Workspace} {s : Session} (hnamed : s.NamedTables)
    {reference package : String} {r : Resolved} (h : s.find w reference package = some r) :
    '.' ∉ r.decl.name.toList := by
  obtain ⟨-, path, table, -, htable, hdecl⟩ :=
    Session.declared_eq_some (Session.declared_of_find h)
  rw [hnamed path table _ r.decl htable hdecl, Session.lastSegment]
  have hmem : (Text.pieces '.' reference).getLastD "" ∈ "" :: Text.pieces '.' reference :=
    List.getLastD_mem_cons
  rcases List.mem_cons.1 hmem with hlast | hlast
  · rw [hlast]
    decide
  · obtain ⟨piece, hpiece, hlast⟩ := List.mem_map.1 hlast
    rw [← hlast, String.toList_ofList]
    exact Text.not_mem_of_mem_splitOn hpiece

/-- Wherever a walk comes, the declarations there were found. -/
theorem Leads.found {w : Workspace} {s : Session} {package written : String} {start : Resolved}
    (hstart : s.find w written package = some start) {place : Place}
    (h : Leads (s.find w) (.declaration start) place) :
    place.Of fun r => ∃ reference context, s.find w reference context = some r :=
  h.of (fun _ _ _ _ _ _ hfind => ⟨_, _, hfind⟩) ⟨_, _, hstart⟩

/-! ## The struct behind a data type -/

/-- What is at the stop is made of the struct: names and pointers lead to it. A struct is made of
itself. -/
def StandsFor (find : Lookup) (stop : Stop) (struct : Resolved) : Prop :=
  (∃ unwrapping, Relation.ReflTransGen (Looks find) stop ⟨unwrapping, .declaration struct⟩) ∧
    ∃ fields, struct.decl.type = .struct fields

section StandsFor

variable {find : Lookup} {unwrapping : List String} {r struct : Resolved}

theorem StandsFor.head {stop next : Stop} (h : StandsFor find next struct)
    (hlooks : Looks find stop next) : StandsFor find stop struct :=
  h.imp_left fun hpath => hpath.imp fun _ htail => htail.head hlooks

/-- Nothing is looked for inside a struct that is referred to. -/
theorem StandsFor.eq_of_struct {fields : List Field}
    (h : StandsFor find ⟨unwrapping, .declaration r⟩ struct) (hr : r.decl.type = .struct fields) :
    struct = r := by
  obtain ⟨⟨_, hpath⟩, -⟩ := h
  rcases hpath.cases_head with heq | ⟨_, hlooks, -⟩
  · cases heq
    rfl
  · cases hlooks with
    | inside hpart => cases hpart with | unwrapped hne => exact absurd hr (hne fields)
    | unwrap hpart => cases hpart with | unwrapped hne => exact absurd hr (hne fields)

theorem StandsFor.comes {entered : List Entry} {start stop : Stop}
    (h : StandsFor find stop struct) (hcomes : Comes find entered start stop) :
    ∃ unwrapping, Comes find entered start ⟨unwrapping, .declaration struct⟩ := by
  obtain ⟨⟨unwrapping, hpath⟩, -⟩ := h
  exact ⟨unwrapping, hcomes.trans (Relation.ReflTransGen.mono (fun _ _ => .looks) _ _ hpath)⟩

/-- A model is the data type only of what is made of a struct, and it has the struct's id. -/
theorem HasType.standsFor {place : Place} {id : String}
    (h : HasType find unwrapping place (some (.model id))) :
    ∃ struct, StandsFor find ⟨unwrapping, place⟩ struct ∧ idOf struct = id := by
  generalize htype : some (DataType.model id) = type at h
  induction h with
  | builtin hbuiltin =>
    cases htype
    exact absurd (DataType.mem_builtins_of_builtin hbuiltin) (by simp [DataType.builtins])
  | named hbuiltin hfind _ ih =>
    obtain ⟨struct, hstruct, hid⟩ := ih htype
    exact ⟨struct, hstruct.head (.inside (.named hbuiltin hfind) rfl), hid⟩
  | pointer _ ih =>
    obtain ⟨struct, hstruct, hid⟩ := ih htype
    exact ⟨struct, hstruct.head (.inside .pointer rfl), hid⟩
  | @slice _ _ _ type | @array _ _ _ type => cases type <;> cases htype
  | map | struct | interface | channel | function | unknown | cut => cases htype
  | @model _ r fields hr =>
    cases htype
    exact ⟨r, ⟨⟨_, .refl⟩, fields, hr⟩, rfl⟩
  | @unwrapped _ _ type hr hid _ ih =>
    cases type with
    | none => cases htype
    | some type =>
      obtain ⟨struct, hstruct, hid'⟩ := ih htype
      exact ⟨struct, hstruct.head (.unwrap (.unwrapped hr) (Place.guard?_declaration hr) hid), hid'⟩

end StandsFor

/-! ## Two packages with one id -/

/-- Two packages whose identifiers differ in a slash and a point only, each with a type of the same
name, and a struct that refers to both types. -/
def twinPackages : Workspace :=
  let directories := [["src"], ["src", "a"], ["src", "a", "b"], ["src", "a.b"], ["src", "p"]]
  let files := [
    (["src", "a", "b", "t.go"],
      "package b\n// T of a/b.\ntype T struct \x7b\n X int\n\x7d\n"),
    (["src", "a.b", "t.go"],
      "package c\n// T of a.b.\ntype T struct \x7b\n Y string\n\x7d\n"),
    (["src", "p", "p.go"],
      "package p\nimport \"a/b\"\nimport c \"a.b\"\n" ++
        "type R struct \x7b\n F b.T\n G c.T\n\x7d\n")]
  files.foldl (fun w file => w.put file.1 (.file file.2.toUTF8))
    (directories.foldl (fun w path => w.put path .directory) .empty)

/-- What is found in the packages, and what describing the struct gives. -/
theorem twinPackages_view :
    let s := ({ roots := ⟨["src"], none⟩ } : Session).after [(twinPackages, .buildTypes "p")]
    (∃ start ∈ lookup twinPackages s "R" "p", start.package = "p" ∧
      ∃ fields ∈ structLines? start.decl.type, fields.map (·.names) = [["F"], ["G"]] ∧
        fields.map (·.tagValue? "json") = [none, none] ∧
        fields.map (leafName? ·.type) = [some (some "b", "T"), some (some "c", "T")]) ∧
    (∃ r ∈ lookup twinPackages s "b.T" "p", r.package = "a/b" ∧ idOf r = "a.b.T" ∧
      (structLines? r.decl.type).isSome) ∧
    (∃ r ∈ lookup twinPackages s "c.T" "p", r.package = "a.b" ∧ idOf r = "a.b.T" ∧
      docText r.decl.doc = some "T of a.b." ∧ (structLines? r.decl.type).isSome) ∧
    ∃ described ∈ result? (run twinPackages "p" "R" s),
      (∃ model ∈ described.2["p.R"]?, ∃ field ∈ model.properties["G"]?,
        field.reference = some "a.b.T") ∧
      ∃ model ∈ described.2["a.b.T"]?, model.description = some "T of a/b." := by
  intro s
  decide +kernel

/-- The field `G` has the type `T` of `a.b` and refers to the model with its id, but this is not the
model of that struct: `T` of `a/b` has the same id. -/
theorem twinPackages_share_model :
    let s := ({ roots := ⟨["src"], none⟩ } : Session).after [(twinPackages, .buildTypes "p")]
    ∃ type models t r r' model field shared,
      run twinPackages "p" "R" s = .ok (type, models) t ∧
      lookup twinPackages s "b.T" "p" = some r ∧ lookup twinPackages s "c.T" "p" = some r' ∧
      r.package ≠ r'.package ∧ idOf r = idOf r' ∧
      models["p.R"]? = some model ∧ model.properties["G"]? = some field ∧
      field.reference = some (idOf r') ∧ models[idOf r']? = some shared ∧
      ∀ unwrapping, ¬ HasModel (lookup twinPackages s) unwrapping r' shared := by
  intro s
  obtain ⟨-, ⟨r, hr, hpackage, hid, -⟩, ⟨r', hr', hpackage', hid', hdoc', -⟩,
    ⟨type, models⟩, hresult, ⟨model, hmodel, field, hfield, hreference⟩,
    shared, hshared, hdescription⟩ := twinPackages_view
  refine ⟨type, models, _, r, r', model, field, shared, eq_ok_of_result? hresult, hr, hr', ?_,
    hid.trans hid'.symm, hmodel, hfield, hreference.trans (congrArg some hid'.symm), ?_, ?_⟩
  · rw [hpackage, hpackage']
    decide
  · rw [hid']
    exact hshared
  · rintro unwrapping ⟨fields, properties, -, -, rfl⟩
    exact absurd (hdescription.symm.trans hdoc') (by decide)

/-! ## Models -/

/-- **A model id stands for one name, and for one package up to slashes and points.** Two types have
the same id exactly if they have the same name and their packages differ in slashes and points
only. Let a type be described, after any requests. Each model is that of a struct which was
entered, and whose id no other entered struct has. Wherever describing comes to a declaration whose
data type is the model with an id, this is the id of the struct that the declaration is made of,
which is the declaration itself if it is a struct. There is a model under the id, made of the
documentation and the lines of the struct that was entered with this id. That struct has the same
name, and it is the same one unless its package is another, which differs in slashes and points
only. -/
theorem model_of_reference (roots : Package.SearchRoots) (home : String)
    (requests : List (Workspace × Request)) (w : Workspace) (package written : String)
    (type : DataType) (models : Dict Model) (t : Session)
    (hrun : run w package written (({ roots, home } : Session).after requests) =
      .ok (type, models) t) :
    let s := ({ roots, home } : Session).after requests
    (∀ p p' name name' : String, '.' ∉ name.toList → '.' ∉ name'.toList →
      (modelId p name = modelId p' name' ↔ name = name' ∧ folded p = folded p')) ∧
    (plainType? (elementName written.toList) ≠ none → models = ∅) ∧
    (plainType? (elementName written.toList) = none → ∃ start entered,
      lookup w s (elementName written.toList) package = some start ∧
      Tour (lookup w s) start models entered ∧
      ∀ unwrapping r id,
        Comes (lookup w s) entered ⟨[], .declaration start⟩ ⟨unwrapping, .declaration r⟩ →
        HasType (lookup w s) unwrapping (.declaration r) (some (.model id)) →
        ∃ struct, StandsFor (lookup w s) ⟨unwrapping, .declaration r⟩ struct ∧
          ((∃ fields, r.decl.type = .struct fields) → struct = r) ∧
          idOf struct = id ∧ '.' ∉ struct.decl.name.toList ∧
          ∃ entry ∈ entered, ∃ model, models[id]? = some model ∧
            HasModel (lookup w s) entry.unwrapping entry.struct model ∧
            entry.struct.decl.name = struct.decl.name ∧
            folded entry.struct.package = folded struct.package ∧
            (entry.struct = struct ∨ entry.struct.package ≠ struct.package)) := by
  intro s
  have hnamed : s.NamedTables := Session.namedTables_after roots home requests
  rw [lookup_eq_find]
  refine ⟨fun _ _ _ _ => modelId_eq_iff, fun hplain => ?_, fun hplain => ?_⟩
  · rcases (run_tours w package written s).of_ok hrun with ⟨-, hempty⟩ | ⟨_, _, hnone, -⟩
    · exact hempty
    · exact absurd hnone hplain
  · rcases (run_tours w package written s).of_ok hrun with
      ⟨hsome, -⟩ | ⟨start, entered, -, hstart, htour⟩
    · exact absurd hplain hsome
    refine ⟨start, entered, hstart, htour, fun unwrapping r id hcomes htype => ?_⟩
    obtain ⟨struct, hstands, rfl⟩ := htype.standsFor
    obtain ⟨_, hcomes⟩ := hstands.comes hcomes
    have hleads := hcomes.visits.reached
    obtain ⟨_, _, hfound⟩ := hleads.found hstart
    have hpoint := point_not_mem_of_find hnamed hfound
    refine ⟨struct, hstands, fun hr => hr.elim fun _ => hstands.eq_of_struct, rfl, hpoint, ?_⟩
    -- the struct has a model, and so one with its id was entered
    obtain ⟨entry, hentry, hid⟩ := (htour.mem_iff _).1 (htour.settled _ hcomes hstands.2)
    obtain ⟨model, hmodel, hhas⟩ := htour.hasModel entry hentry
    have hentered := (htour.reached entry hentry).visits.reached
    obtain ⟨_, _, hfound'⟩ := hentered.found hstart
    obtain ⟨hname, hfolded⟩ :=
      (modelId_eq_iff (point_not_mem_of_find hnamed hfound') hpoint).1 hid
    refine ⟨entry, hentry, model, hid ▸ hmodel, hhas, hname, hfolded, ?_⟩
    rw [or_iff_not_imp_right, not_not]
    exact fun hpackage =>
      hnamed.eq_of_found (hentered.declared hstart) (hleads.declared hstart) hpackage hname

/-- Describing the struct comes to `T` of `a.b`. The model under its id is that of a struct which was
entered, and this is one of another package, whose identifier has a slash for the point. -/
theorem model_of_reference_twinPackages :
    let s := ({ roots := ⟨["src"], none⟩ } : Session).after [(twinPackages, .buildTypes "p")]
    ∃ type models t start entered unwrapping r entry model,
      run twinPackages "p" "R" s = .ok (type, models) t ∧
      lookup twinPackages s "R" "p" = some start ∧
      Comes (lookup twinPackages s) entered ⟨[], .declaration start⟩
        ⟨unwrapping, .declaration r⟩ ∧
      HasType (lookup twinPackages s) unwrapping (.declaration r) (some (.model "a.b.T")) ∧
      r.package = "a.b" ∧ entry ∈ entered ∧ models["a.b.T"]? = some model ∧
      HasModel (lookup twinPackages s) entry.unwrapping entry.struct model ∧
      folded entry.struct.package = folded r.package ∧ entry.struct.package ≠ r.package := by
  intro s
  obtain ⟨⟨_, hstart, hp, fields, hfields, hnames, htags, hleaves⟩, -,
    ⟨r, hr, hpackage, hid, hdoc, hisStruct⟩, ⟨type, models⟩, hresult, -, shared, hshared,
    hdescription⟩ := twinPackages_view
  have hrun := eq_ok_of_result? hresult
  obtain ⟨-, -, hmodels⟩ := model_of_reference ⟨["src"], none⟩ _
    [(twinPackages, .buildTypes "p")] twinPackages "p" "R" type models _ hrun
  obtain ⟨_, entered, hfound, htour, hmodels⟩ := hmodels (by decide)
  obtain rfl := Option.some.inj (hfound.symm.trans hstart)
  have hlines := structLines?_eq_some hfields
  -- no other package has the identifier of the start, and so the start itself was entered
  obtain ⟨start, -, hstruct, -, -, first, hfirst, -, -, -, -, hfolded, hself⟩ :=
    hmodels [] _ _ .refl (.model hlines)
  obtain rfl := hstruct ⟨fields, hlines⟩
  have hpoint : '.' ∉ folded start.package := by
    rw [hp]
    decide
  have hsame : first.struct.package = start.package := by
    rw [← String.toList_inj, ← folded_eq_toList hpoint, ← folded_eq_toList (hfolded ▸ hpoint),
      hfolded]
  have hself : first.struct = start := hself.resolve_right fun hne => hne hsame
  have hcomes : Comes (lookup twinPackages s) entered ⟨[], .declaration start⟩
      ⟨first.unwrapping, .declaration r⟩ := by
    obtain ⟨_, rest, rfl, -, hnames⟩ := List.map_eq_cons_iff.1 hnames
    obtain ⟨field, rest, rfl, hname, hrest⟩ := List.map_eq_cons_iff.1 hnames
    obtain rfl := List.map_eq_nil_iff.1 hrest
    simp only [List.map_cons, List.map_nil, List.cons.injEq, and_true] at htags hleaves
    have hdocumented : Documented field := by
      refine ⟨?_, ?_, ?_⟩
      · rw [htags.2]; decide
      · rw [Source.FieldOf.isEmbedded, hname]; rfl
      · rw [hname]; decide
    have hfind : lookup twinPackages s (reference (some "c") "T") first.struct.package = some r := by
      rw [hself, hp]
      exact hr
    exact (htour.reached first hfirst).trans (comes_of_documented hfirst (hself ▸ hlines)
      (List.mem_cons_of_mem _ List.mem_cons_self) hdocumented hleaves.2 (by decide) hfind)
  obtain ⟨lines, hlines⟩ := Option.isSome_iff_exists.1 hisStruct
  have hlines := structLines?_eq_some hlines
  have htype : HasType (lookup twinPackages s) first.unwrapping (.declaration r)
      (some (.model "a.b.T")) := hid ▸ .model hlines
  obtain ⟨_, -, hstruct, -, -, entry, hentry, model, hmodel, hhas, -, hfolded, hself⟩ :=
    hmodels first.unwrapping r "a.b.T" hcomes htype
  obtain rfl := hstruct ⟨lines, hlines⟩
  refine ⟨type, models, _, start, entered, first.unwrapping, _, entry, model, hrun, hstart, hcomes,
    htype, hpackage, hentry, hmodel, hhas, hfolded, hself.resolve_left ?_⟩
  -- the documentation is that of the other struct
  rintro rfl
  obtain rfl := Option.some.inj (hmodel.symm.trans hshared)
  obtain ⟨_, _, -, -, rfl⟩ := hhas
  exact absurd (hdescription.symm.trans hdoc) (by decide)

end ApiDocs.Swagger.Builder
