/-
  ApiDocs.Proofs.History

  Answers depend on what has been built, not on how. In a workspace that does not change, two
  sessions agree (`Session.Agrees`) if identifiers lead to the same places, directories hold
  the same units, and the tables are the same. Agreeing sessions give the same answers to
  everything that does not build tables, and still agree afterwards; and sessions with the same
  roots, whatever they have been through, agree as soon as the same directories have tables
  (`agrees_of_built`).
-/

import ApiDocs.Proofs.Alike
import ApiDocs.Proofs.Package.Mirror

namespace ApiDocs

namespace Session

/-- Computations on a session inside a larger state, run in two such states. -/
theorem alike_within {σ α : Type} {part : σ → Session} {put : σ → Session → σ} {x : SessionM α}
    {R : Session → Session → Prop} {R' : σ → σ → Prop} (hx : Alike R x)
    (hpart : ∀ a b, R' a b → R (part a) (part b))
    (hput : ∀ a b s t, R' a b → R s t → R' (put a s) (put b t)) :
    Alike R' (within part put x) := by
  intro a b hab
  rw [within, within]
  rcases hx.outcomes (hpart a b hab) with ⟨r, s, t, hs, ht, hst⟩ | ⟨e, s, t, hs, ht, hst⟩
  · rw [hs, ht]
    exact ⟨rfl, hput a b s t hab hst⟩
  · rw [hs, ht]
    exact ⟨rfl, hput a b s t hab hst⟩

theorem answer_within {σ α : Type} {part : σ → Session} {put : σ → Session → σ} (x : SessionM α)
    (a : σ) : answer (within part put x a) = answer (x (part a)) := by
  rw [within]
  cases x (part a) <;> rfl

/-! ## Sessions that agree -/

/-- Two sessions that know the same about a workspace, found out or still to be found out, and
have the same tables. -/
structure Agrees (w : Workspace) (s t : Session) : Prop where
  whereIs : ∀ identifier, s.whereIs w identifier = t.whereIs w identifier
  unitsAt : ∀ path, s.unitsAt w path = t.unitsAt w path
  symbols : s.symbols = t.symbols
  imports : s.imports = t.imports

section Agrees

variable {w : Workspace} {s t : Session}

/-- Locating and reading does not change what sessions agree on. -/
theorem Agrees.mono {s' t' : Session} (h : Agrees w s t) (hs : Changes w [.locating, .reading] s s')
    (ht : Changes w [.locating, .reading] t t') : Agrees w s' t' where
  whereIs identifier := by rw [hs.whereIs_eq, ht.whereIs_eq, h.whereIs]
  unitsAt path := by rw [hs.unitsAt_eq, ht.unitsAt_eq, h.unitsAt]
  symbols := by rw [hs.symbols_eq (by simp), ht.symbols_eq (by simp), h.symbols]
  imports := by rw [hs.imports_eq (by simp), ht.imports_eq (by simp), h.imports]

instance (w : Workspace) : IsPreorder Session (Agrees w) where
  refl _ := ⟨fun _ => rfl, fun _ => rfl, rfl, rfl⟩
  trans _ _ _ h h' :=
    ⟨fun identifier => (h.whereIs identifier).trans (h'.whereIs identifier),
      fun path => (h.unitsAt path).trans (h'.unitsAt path),
      h.symbols.trans h'.symbols, h.imports.trans h'.imports⟩

/-- After locating and reading, a session agrees with what it was. -/
theorem keeps_agrees {α : Type} {effects : List Effect} {x : SessionM α}
    (hkeeps : Keeps (Changes w effects) x) (hsub : effects ⊆ [.locating, .reading]) :
    Keeps (Agrees w) x :=
  (keeps_mono w hkeeps hsub).mono fun s _ h => (refl_of (Agrees w) s).mono (.refl s) h

/-- A computation that only locates and reads, and answers by what sessions agree on. -/
theorem alike_of_keeps {α : Type} {effects : List Effect} {x : SessionM α}
    (hkeeps : Keeps (Changes w effects) x) (hsub : effects ⊆ [.locating, .reading])
    (hanswer : ∀ s t, Agrees w s t → answer (x s) = answer (x t)) : Alike (Agrees w) x := by
  intro s t h
  have hchanges := (keeps_mono w hkeeps hsub).finalState
  exact ⟨hanswer s t h, h.mono (hchanges s) (hchanges t)⟩

variable (w)

theorem alike_resolve (identifier : String) : Alike (Agrees w) (resolve w identifier) := by
  refine alike_of_keeps (keeps_resolve w identifier) (by simp) fun s t h => ?_
  rw [resolve_eq, resolve_eq, answer_ok, answer_ok, h.whereIs]

theorem alike_locate (identifier : String) : Alike (Agrees w) (locate w identifier) := by
  refine alike_of_keeps (keeps_locate w identifier) (by simp) fun s t h => ?_
  rw [locate_eq, locate_eq, answer_outcome, answer_outcome, h.whereIs]

theorem alike_unitsOf (path : String) : Alike (Agrees w) (unitsOf w path) := by
  refine alike_of_keeps (keeps_unitsOf w path) (by simp) fun s t h => ?_
  rw [unitsOf_eq, unitsOf_eq, answer_outcome, answer_outcome, h.unitsAt]

theorem alike_packageUnits (package : String) : Alike (Agrees w) (packageUnits w package) :=
  (alike_locate w package).bind fun path => alike_unitsOf w path

theorem alike_symbolTable (package : String) : Alike (Agrees w) (symbolTable w package) := by
  refine (alike_resolve w package).bind fun place => ?_
  cases place with
  | none => exact alike_pure none
  | some path =>
    exact alike_get_bind (fun s t h => by rw [h.symbols]) fun s => alike_pure s.symbols[path]?

theorem alike_importMap (package : String) : Alike (Agrees w) (importMap w package) := by
  refine (alike_resolve w package).bind fun place => ?_
  cases place with
  | none => exact alike_pure none
  | some path =>
    exact alike_get_bind (fun s t h => by rw [h.imports]) fun s => alike_pure s.imports[path]?

theorem alike_declaration (name package : String) :
    Alike (Agrees w) (declaration? w name package) := by
  refine (alike_symbolTable w package).bind fun table => ?_
  cases table with
  | none => exact alike_pure none
  | some table => exact alike_pure table[name]?

theorem alike_importedAs (reference qualifier package : String) :
    Alike (Agrees w) (importedAs w reference qualifier package) := by
  refine (alike_importMap w package).bind fun imports => ?_
  cases imports with
  | none => exact alike_throw _
  | some imports =>
    dsimp only
    split
    · exact alike_pure _
    · exact alike_throw _

theorem alike_findModel (reference package : String) :
    Alike (Agrees w) (findModel w reference package) := by
  unfold findModel
  dsimp only
  cases (Text.pieces '.' reference).dropLast with
  | nil =>
    refine (alike_declaration w reference package).bind fun decl => ?_
    cases decl with
    | some decl => exact alike_pure _
    | none => exact alike_throw _
  | cons qualifier others =>
    refine (alike_declaration w _ _).bind fun decl => ?_
    cases decl with
    | some decl => exact alike_pure _
    | none =>
      cases others with
      | cons => exact alike_throw _
      | nil =>
        refine (alike_importedAs w reference qualifier package).bind fun imported => ?_
        refine (alike_declaration w _ imported).bind fun decl => ?_
        cases decl with
        | some decl => exact alike_pure _
        | none => exact alike_throw _

end Agrees

/-! ## Sessions with the same tables -/

/-- Tables that mirror the same units are the same if the same directories have them. -/
theorem Mirrored.agrees {w : Workspace} {s t : Session} (hs : s.Mirrored) (ht : t.Mirrored)
    (hwhere : ∀ identifier, s.whereIs w identifier = t.whereIs w identifier)
    (hunits : ∀ path, s.unitsAt w path = t.unitsAt w path)
    (hsymbols : ∀ d, d ∈ s.symbols ↔ d ∈ t.symbols) (himports : ∀ d, d ∈ s.imports ↔ d ∈ t.imports) :
    Agrees w s t := by
  -- both sessions know the units of a directory, so they know the same
  have hsame : ∀ {d : String} {units units' : List Source.SourceUnit},
      s.units[d]? = some units → t.units[d]? = some units' → units = units' := by
    intro d units units' h h'
    have hd := hunits d
    simp only [Session.unitsAt, h, h'] at hd
    exact Except.ok.inj hd
  refine ⟨hwhere, hunits, ?_, ?_⟩
  · refine Dict.ext_of_mem hsymbols fun d table table' h h' => ?_
    obtain ⟨units, hknown, rfl⟩ := hs.symbols d table h
    obtain ⟨units', hknown', rfl⟩ := ht.symbols d table' h'
    rw [hsame hknown hknown']
  · refine Dict.ext_of_mem himports fun d imports imports' h h' => ?_
    obtain ⟨units, hknown, rfl⟩ := hs.imports d imports h
    obtain ⟨units', hknown', rfl⟩ := ht.imports d imports' h'
    rw [hsame hknown hknown']

/-- Two runs of requests from a fresh session agree as soon as the same directories have tables. -/
theorem agrees_of_built (roots : Package.SearchRoots) (home : String) (w : Workspace)
    {run₁ run₂ : List Request}
    (hsymbols : ∀ d, d ∈ (({ roots, home } : Session).afterIn w run₁).symbols ↔
      d ∈ (({ roots, home } : Session).afterIn w run₂).symbols)
    (himports : ∀ d, d ∈ (({ roots, home } : Session).afterIn w run₁).imports ↔
      d ∈ (({ roots, home } : Session).afterIn w run₂).imports) :
    Agrees w (({ roots, home } : Session).afterIn w run₁)
      (({ roots, home } : Session).afterIn w run₂) := by
  have h₁ := ({ roots, home } : Session).afterIn_changes w run₁
  have h₂ := ({ roots, home } : Session).afterIn_changes w run₂
  refine (mirrored_after roots home _).agrees (mirrored_after roots home _) (fun identifier => ?_)
    (fun path => ?_) hsymbols himports
  · exact (h₁.whereIs_eq identifier).trans (h₂.whereIs_eq identifier).symm
  · exact (h₁.unitsAt_eq path).trans (h₂.unitsAt_eq path).symm

end Session

/-! ## Describing types -/

namespace Swagger

/-- Two builders with agreeing sessions and the same models. -/
structure Builder.Agrees (w : Workspace) (b b' : Builder) : Prop where
  session : Session.Agrees w b.session b'.session
  models : b.models = b'.models

theorem Builder.depthBound_eq {w : Workspace} {s t : Session} (h : Session.Agrees w s t) :
    depthBound s = depthBound t := by
  simp only [depthBound, declarations, h.symbols, h.imports]

theorem Builder.rules_alike (w : Workspace) :
    Rules w fun (α : Type) (x : BuilderM α) => Alike (Builder.Agrees w) x where
  toSequential := (compositional_alike (Builder.Agrees w)).toSequential
  find reference package :=
    Session.alike_within (Session.alike_findModel w reference package) (fun _ _ h => h.session)
      fun _ _ _ _ h hsession => ⟨hsession, h.models⟩
  store _ := alike_modify fun _ _ h => ⟨h.session, by rw [h.models]⟩
  inspect heq hf :=
    alike_get_bind (fun b b' h => heq b b' h.models (depthBound_eq h.session)) hf

theorem Builder.alike_describe (w : Workspace) (package written : String) :
    Alike (Builder.Agrees w) (describe w package written) :=
  (rules_alike w).describe package written

theorem Builder.alike_run (w : Workspace) (package written : String) :
    Alike (Session.Agrees w) (run w package written) := by
  intro s t h
  have hstart : Builder.Agrees w { session := s } { session := t } := ⟨h, rfl⟩
  rw [run, run]
  rcases (alike_describe w package written).outcomes hstart with
    ⟨type, b, b', hb, hb', hagree⟩ | ⟨e, b, b', hb, hb', hagree⟩
  · rw [hb, hb']
    exact ⟨by rw [answer_ok, answer_ok, hagree.models], hagree.session⟩
  · rw [hb, hb']
    exact ⟨rfl, hagree.session⟩

theorem Operation.alike_applyLine (w : Workspace) (operation : Operation) (line : String) :
    Alike (Session.Agrees w) (operation.applyLine w line) :=
  applyLine_rule (compositional_alike _) (Builder.alike_run w) operation line

end Swagger

/-! ## The two-run statement -/

namespace Session

/-- **Answers depend on what has been built, not on history.** In a workspace that does not change,
take two sessions with the same roots, each after any requests, failed ones included. If the
same directories have symbols in both and the same directories have imports, then both give the
same answers, results and errors alike, to everything that is asked about packages and types;
and describing a type from the same models leads to the same models. -/
theorem answers_of_built (roots : Package.SearchRoots) (home : String) (w : Workspace)
    (run₁ run₂ : List Request) :
    let s₁ := ({ roots, home } : Session).afterIn w run₁
    let s₂ := ({ roots, home } : Session).afterIn w run₂
    (∀ d, d ∈ s₁.symbols ↔ d ∈ s₂.symbols) → (∀ d, d ∈ s₁.imports ↔ d ∈ s₂.imports) →
    (∀ identifier, answer (resolve w identifier s₁) = answer (resolve w identifier s₂)) ∧
    (∀ package, answer (packageUnits w package s₁) = answer (packageUnits w package s₂)) ∧
    (∀ package, answer (symbolTable w package s₁) = answer (symbolTable w package s₂)) ∧
    (∀ package, answer (importMap w package s₁) = answer (importMap w package s₂)) ∧
    (∀ name package,
      answer (declaration? w name package s₁) = answer (declaration? w name package s₂)) ∧
    (∀ reference package,
      answer (findModel w reference package s₁) = answer (findModel w reference package s₂)) ∧
    ∀ (models : Dict Swagger.Model) (package written : String),
      let r₁ := Swagger.Builder.describe w package written { session := s₁, models }
      let r₂ := Swagger.Builder.describe w package written { session := s₂, models }
      answer r₁ = answer r₂ ∧ (finalState r₁).models = (finalState r₂).models := by
  intro s₁ s₂ hsymbols himports
  have h : Agrees w s₁ s₂ := agrees_of_built roots home w hsymbols himports
  refine ⟨fun identifier => ?_, fun package => ?_, fun package => ?_, fun package => ?_,
    fun name package => ?_, fun reference package => ?_, fun models package written => ?_⟩
  · exact (alike_resolve w identifier s₁ s₂ h).1
  · exact (alike_packageUnits w package s₁ s₂ h).1
  · exact (alike_symbolTable w package s₁ s₂ h).1
  · exact (alike_importMap w package s₁ s₂ h).1
  · exact (alike_declaration w name package s₁ s₂ h).1
  · exact (alike_findModel w reference package s₁ s₂ h).1
  · obtain ⟨hanswer, hfinal⟩ := Swagger.Builder.alike_describe w package written
      { session := s₁, models } { session := s₂, models } ⟨h, rfl⟩
    exact ⟨hanswer, hfinal.models⟩

/-- The circle, built from either end, with other questions in between. -/
theorem answers_of_built_circle :
    let s₁ := ({ roots := ⟨["src"], none⟩ } : Session).afterIn .circle [.buildTypes "a"]
    let s₂ := ({ roots := ⟨["src"], none⟩ } : Session).afterIn .circle
      [.findModel "x.y.T" "a", .buildTypes "nope", .buildTypes "b", .packageUnits "c"]
    s₁.located.keys ≠ s₂.located.keys ∧ s₁.symbols.keys = ["src/a", "src/b"] ∧
    (∀ d, d ∈ s₁.symbols ↔ d ∈ s₂.symbols) ∧ (∀ d, d ∈ s₁.imports ↔ d ∈ s₂.imports) ∧
    ∀ reference package,
      answer (findModel .circle reference package s₁) = answer (findModel .circle reference package s₂) := by
  intro s₁ s₂
  have hsymbols : ∀ d, d ∈ s₁.symbols ↔ d ∈ s₂.symbols := by
    have hkeys : s₁.symbols.keys = s₂.symbols.keys := by decide +kernel
    intro d
    rw [← Std.ExtTreeMap.mem_keys, hkeys, Std.ExtTreeMap.mem_keys]
  have himports : ∀ d, d ∈ s₁.imports ↔ d ∈ s₂.imports := by
    have hkeys : s₁.imports.keys = s₂.imports.keys := by decide +kernel
    intro d
    rw [← Std.ExtTreeMap.mem_keys, hkeys, Std.ExtTreeMap.mem_keys]
  refine ⟨by decide +kernel, by decide +kernel, hsymbols, himports, ?_⟩
  exact (answers_of_built ⟨["src"], none⟩ "." .circle [.buildTypes "a"]
    [.findModel "x.y.T" "a", .buildTypes "nope", .buildTypes "b", .packageUnits "c"]
    hsymbols himports).2.2.2.2.2.1

end Session
end ApiDocs
