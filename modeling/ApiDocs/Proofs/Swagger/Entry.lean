/-
  ApiDocs.Proofs.Swagger.Entry

  The model of a struct and where the walk entered. Two types described in the same context may
  both give a model with some id. If an id names only one declaration, both are models of the
  same struct, but not always the same model: what is being unwrapped when the struct is met
  stays so while its lines are read, and so cuts off fields that lead back to it. The models
  are the same exactly if the struct means the same at both entries (`shared_model_eq_iff`);
  they can differ only on a circle of declarations, of which one is unwrapped on the way to
  the struct in one walk and not in the other.
-/

import ApiDocs.Proofs.Requests
import ApiDocs.Proofs.Swagger.Visits

namespace ApiDocs.Swagger.Builder

open Package (Resolved)
open Session (Changes)

/-- Describing the written type can come to the declaration, while the ids are being
unwrapped. -/
def Meets (find : Lookup) (package written : String) (unwrapping : List String) (r : Resolved) :
    Prop :=
  ∃ start, find (elementName written.toList) package = some start ∧
    Visits find start unwrapping (.declaration r)

/-- The models that describing a written type gives are models of the structs that it meets. -/
theorem run_hasModel {w : Workspace} {package written : String} {s t : Session} {type : DataType}
    {models : Dict Model} (hrun : run w package written s = .ok (type, models) t)
    {id : String} {model : Model} (hm : models[id]? = some model) :
    ∃ unwrapping r, idOf r = id ∧ Meets (s.find w) package written unwrapping r ∧
      HasModel (s.find w) unwrapping r model := by
  obtain ⟨start, hstart, hid, unwrapping, r, hplace, hmodel⟩ :=
    (run_entered w package written s).of_ok hrun id model hm
  exact ⟨unwrapping, r, hmodel.id_eq.symm.trans hid, ⟨start, hstart, hplace⟩, hmodel⟩

section Meets

variable {w : Workspace} {s : Session} {package written : String} {unwrapping : List String}
  {r : Resolved}

theorem Meets.declared (h : Meets (s.find w) package written unwrapping r) :
    ∃ name, s.declared w name r.package = some r := by
  obtain ⟨start, hstart, hplace⟩ := h
  exact hplace.reached.declared hstart

/-- A walk that meets no qualified name stays in its package. -/
theorem Meets.package_eq
    (hplain : ∀ decl ∈ declarations s, ∀ mention ∈ mentioned decl,
      (Text.pieces '.' (reference mention.1 mention.2)).dropLast = [])
    (hwritten : (Text.pieces '.' (elementName written.toList)).dropLast = [])
    (h : Meets (s.find w) package written unwrapping r) : r.package = package := by
  obtain ⟨start, hstart, hplace⟩ := h
  exact hplace.reached.package_eq hplain hwritten hstart

end Meets

theorem modelId_injective (package : String) : Function.Injective (modelId package) := by
  intro name name' h
  have hlist := congrArg String.toList h
  simp only [modelId, String.toList_append, List.append_assoc] at hlist
  exact String.toList_inj.1 (List.append_cancel_left (List.append_cancel_left hlist))

/-! ## Two walks -/

/-- Models of one struct are the same exactly if it means the same at both entries. If not,
some declaration is being unwrapped at one entry and not at the other which leads to the
struct and which the struct opens again. -/
theorem HasModel.eq_iff {find : Lookup} {start₁ start₂ r : Resolved}
    {unwrapping₁ unwrapping₂ : List String} {m₁ m₂ : Model}
    (hplace₁ : Visits find start₁ unwrapping₁ (.declaration r))
    (hplace₂ : Visits find start₂ unwrapping₂ (.declaration r))
    (h₁ : HasModel find unwrapping₁ r m₁) (h₂ : HasModel find unwrapping₂ r m₂) :
    (m₁ = m₂ ↔ ∀ m, HasModel find unwrapping₁ r m ↔ HasModel find unwrapping₂ r m) ∧
      (m₁ ≠ m₂ → ∃ opened id, opened.guard? = some id ∧ Leads find opened (.declaration r) ∧
        ModelOpens find r id ∧ (id ∈ unwrapping₁ ↔ id ∉ unwrapping₂)) := by
  refine ⟨⟨fun heq m => ?_, fun hsame => ?_⟩, fun hne => ?_⟩
  · subst heq
    exact ⟨fun h => h₁.unique h ▸ h₂, fun h => h₂.unique h ▸ h₁⟩
  · exact ((hsame m₁).1 h₁).unique h₂
  · -- otherwise both entries agree on every id that the struct opens
    by_contra hnone
    refine hne ((h₁.congr fun id hopens => ?_).unique h₂)
    by_contra hagree
    have hdiffer : id ∈ unwrapping₁ ↔ id ∉ unwrapping₂ := by tauto
    obtain ⟨opened, hguard, hleads⟩ : ∃ opened : Place, opened.guard? = some id ∧
        Leads find opened (.declaration r) := by
      by_cases hid : id ∈ unwrapping₁
      · exact hplace₁.leads hid
      · exact hplace₂.leads (by tauto)
    exact hnone ⟨opened, id, hguard, hleads, hopens, hdiffer⟩

/-- **A model id that two descriptions share is that of one struct**, and the two models agree
exactly if the struct means the same where the walks enter it. The descriptions are of any two
written types, in sessions that know the same declarations. -/
theorem shared_model_eq_iff (roots : Package.SearchRoots) (home : String)
    (requests : List (Workspace × Request)) (w : Workspace)
    (package₁ written₁ package₂ written₂ : String) {s₁ s₂ t₁ t₂ : Session}
    {type₁ type₂ : DataType} {models₁ models₂ : Dict Model}
    (hs₁ : Changes w [.locating] (({ roots, home } : Session).after requests) s₁)
    (hs₂ : Changes w [.locating] (({ roots, home } : Session).after requests) s₂)
    (hrun₁ : run w package₁ written₁ s₁ = .ok (type₁, models₁) t₁)
    (hrun₂ : run w package₂ written₂ s₂ = .ok (type₂, models₂) t₂)
    (hdistinct : ∀ unwrapping₁ r₁ unwrapping₂ r₂,
      Meets (s₁.find w) package₁ written₁ unwrapping₁ r₁ →
      Meets (s₁.find w) package₂ written₂ unwrapping₂ r₂ → idOf r₁ = idOf r₂ →
      r₁.package = r₂.package ∧ r₁.decl.name = r₂.decl.name)
    (id : String) (m₁ m₂ : Model) (hm₁ : models₁[id]? = some m₁) (hm₂ : models₂[id]? = some m₂) :
    ∃ r unwrapping₁ unwrapping₂, idOf r = id ∧
      Meets (s₁.find w) package₁ written₁ unwrapping₁ r ∧
      Meets (s₁.find w) package₂ written₂ unwrapping₂ r ∧
      HasModel (s₁.find w) unwrapping₁ r m₁ ∧ HasModel (s₁.find w) unwrapping₂ r m₂ ∧
      m₁.id = m₂.id ∧ m₁.description = m₂.description ∧
      (m₁ = m₂ ↔ ∀ m, HasModel (s₁.find w) unwrapping₁ r m ↔ HasModel (s₁.find w) unwrapping₂ r m) ∧
      (m₁ ≠ m₂ → ∃ opened other, opened.guard? = some other ∧
        Leads (s₁.find w) opened (.declaration r) ∧ ModelOpens (s₁.find w) r other ∧
        (other ∈ unwrapping₁ ↔ other ∉ unwrapping₂)) := by
  -- both walks look names up alike
  have hfind : s₂.find w = s₁.find w := hs₂.find_eq.trans hs₁.find_eq.symm
  obtain ⟨unwrapping₁, r₁, hid₁, hmeets₁, hmodel₁⟩ := run_hasModel hrun₁ hm₁
  obtain ⟨unwrapping₂, r₂, hid₂, hmeets₂, hmodel₂⟩ := run_hasModel hrun₂ hm₂
  rw [hfind] at hmeets₂ hmodel₂
  -- the id names one struct, since tables list declarations by their names
  obtain ⟨hpackage, hname⟩ :=
    hdistinct _ _ _ _ hmeets₁ hmeets₂ (hid₁.trans hid₂.symm)
  have hnamed : s₁.NamedTables := by
    rw [Session.NamedTables, hs₁.symbols_eq (by simp)]
    exact Session.after_invariant (fun _ _ _ _ hstep hs => hs.step hstep)
      (Session.namedTables_fresh roots home) requests
  obtain rfl : r₁ = r₂ := hnamed.eq_of_found hmeets₁.declared hmeets₂.declared hpackage hname
  have hmodels : m₁.id = m₂.id ∧ m₁.description = m₂.description :=
    ⟨hmodel₁.id_eq.trans hmodel₂.id_eq.symm, hmodel₁.description_eq.trans hmodel₂.description_eq.symm⟩
  obtain ⟨start₁, hstart₁, hplace₁⟩ := hmeets₁
  obtain ⟨start₂, hstart₂, hplace₂⟩ := hmeets₂
  exact ⟨r₁, unwrapping₁, unwrapping₂, hid₁, ⟨start₁, hstart₁, hplace₁⟩, ⟨start₂, hstart₂, hplace₂⟩,
    hmodel₁, hmodel₂, hmodels.1, hmodels.2, HasModel.eq_iff hplace₁ hplace₂ hmodel₁ hmodel₂⟩

/-- A list type whose elements have a field of that list type. -/
def circularList : Workspace :=
  ((Workspace.empty.put ["src"] .directory).put ["src", "p"] .directory).put
    ["src", "p", "a.go"]
    (.file "package p\ntype A []B\ntype B struct \x7b\n X A\n\x7d\n".toUTF8)

/-- Described from the list, its element loses the field's type; described by itself, it keeps
it. The list is the declaration that is unwrapped in one walk and not in the other. -/
theorem shared_model_eq_iff_circularList :
    let s := ({ roots := ⟨["src"], none⟩ } : Session).after [(circularList, .buildTypes "p")]
    let model (property : Property) : Model :=
      { id := "p.B", properties := (∅ : Dict Property).insert "X" property }
    let cut := model { typeName := some "object" }
    let full := model { typeName := some "array", items := some { reference := some "p.B" } }
    ∃ type₁ type₂ models₁ models₂ t u, run circularList "p" "A" s = .ok (type₁, models₁) t ∧
      run circularList "p" "B" t = .ok (type₂, models₂) u ∧
      models₁["p.B"]? = some cut ∧ models₂["p.B"]? = some full ∧ cut ≠ full ∧
      ∃ r opened id, idOf r = "p.B" ∧ opened.guard? = some id ∧
        Leads (s.find circularList) opened (.declaration r) ∧
        ModelOpens (s.find circularList) r id := by
  intro s model cut full
  let first := run circularList "p" "A" s
  let second := run circularList "p" "B" (finalState first)
  have hcut : ((result? first).bind fun described => described.2["p.B"]?) = some cut := by
    decide +kernel
  have hfull : ((result? second).bind fun described => described.2["p.B"]?) = some full := by
    decide +kernel
  obtain ⟨⟨type₁, models₁⟩, hfirst, hm₁⟩ := Option.bind_eq_some_iff.1 hcut
  obtain ⟨⟨type₂, models₂⟩, hsecond, hm₂⟩ := Option.bind_eq_some_iff.1 hfull
  have hrun₁ : run circularList "p" "A" s = .ok (type₁, models₁) (finalState first) :=
    eq_ok_of_result? hfirst
  have hrun₂ : run circularList "p" "B" (finalState first) =
      .ok (type₂, models₂) (finalState second) := eq_ok_of_result? hsecond
  have hlocated : Changes circularList [.locating] s (finalState first) :=
    (keeps_run circularList "p" "A").finalState s
  have hplain : ∀ decl ∈ declarations s, ∀ mention ∈ mentioned decl,
      (Text.pieces '.' (reference mention.1 mention.2)).dropLast = [] := by
    decide +kernel
  -- no name is qualified, so both walks stay in the package, where names make ids
  have hdistinct : ∀ unwrapping₁ r₁ unwrapping₂ r₂,
      Meets (s.find circularList) "p" "A" unwrapping₁ r₁ →
      Meets (s.find circularList) "p" "B" unwrapping₂ r₂ → idOf r₁ = idOf r₂ →
      r₁.package = r₂.package ∧ r₁.decl.name = r₂.decl.name := by
    intro unwrapping₁ r₁ unwrapping₂ r₂ h₁ h₂ hid
    have hp₁ := h₁.package_eq hplain (by decide +kernel)
    have hp₂ := h₂.package_eq hplain (by decide +kernel)
    rw [idOf, idOf, hp₁, hp₂] at hid
    exact ⟨hp₁.trans hp₂.symm, modelId_injective "p" hid⟩
  have hne : cut ≠ full := by decide +kernel
  obtain ⟨r, unwrapping₁, unwrapping₂, hid, -, -, -, -, -, -, -, hdiffer⟩ :=
    shared_model_eq_iff ⟨["src"], none⟩ "." [(circularList, .buildTypes "p")] circularList
      "p" "A" "p" "B" (.refl s) hlocated hrun₁ hrun₂ hdistinct "p.B" cut full hm₁ hm₂
  obtain ⟨opened, id, hguard, hleads, hopens, -⟩ := hdiffer hne
  exact ⟨type₁, type₂, models₁, models₂, _, _, hrun₁, hrun₂, hm₁, hm₂, hne,
    r, opened, id, hid, hguard, hleads, hopens⟩

end ApiDocs.Swagger.Builder
