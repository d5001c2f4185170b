/-
  ApiDocs.Proofs.Requests

  Everything that a session can be asked for, and runs of such requests. A run is a list of
  requests, each with the workspace as it is at that moment, so nothing is assumed about how
  the workspace changes from one request to the next. What a request can do to a session is
  `Request.effects`: all but a few only locate packages (`Request.keeps_perform`).
-/

import ApiDocs.Package.Scan
import ApiDocs.Proofs.Package.Lookup
import ApiDocs.Proofs.Swagger.Rules
import ApiDocs.Workspace.Edit

namespace ApiDocs

open Session (Changes Effect)

/-! ## Describing types -/

namespace Swagger.Builder

variable {w : Workspace}

/-- One builder's session comes from the other's by locating packages. -/
def Asks (w : Workspace) (b b' : Builder) : Prop := Changes w [.locating] b.session b'.session

instance (w : Workspace) : IsPreorder Builder (Asks w) where
  refl b := Changes.refl b.session
  trans _ _ _ := Changes.trans

theorem keeps_ask {α : Type} {x : SessionM α} (hx : Keeps (Changes w [.locating]) x) :
    Keeps (Asks w) (ask x) :=
  fun b => ensures_ask (hx b.session)

/-- Locating packages is all that looking a model up does, and storing one does not even that. -/
theorem rules_keeps (w : Workspace) :
    Rules w fun (α : Type) (x : BuilderM α) => Keeps (Asks w) x where
  toSequential := (compositional_keeps (Asks w)).toSequential
  find reference package := keeps_ask (Session.keeps_findModel w reference package)
  store _ := fun b => ensures_modify (Changes.refl b.session)
  inspect _ hf := keeps_get.bind hf

theorem keeps_describe (w : Workspace) (package written : String) :
    Keeps (Asks w) (describe w package written) :=
  (rules_keeps w).describe package written

theorem keeps_run (w : Workspace) (package written : String) :
    Keeps (Changes w [.locating]) (run w package written) :=
  fun s => ensures_run (keeps_describe w package written { session := s })

end Swagger.Builder

theorem Swagger.Operation.keeps_applyLine (w : Workspace) (operation : Operation) (line : String) :
    Keeps (Changes w [.locating]) (operation.applyLine w line) :=
  applyLine_rule (compositional_keeps _) (Builder.keeps_run w) operation line

/-! ## Scanning -/

namespace Scan

/-- One scan's session comes from the other's by locating packages. -/
def Asks (w : Workspace) (s s' : Scan) : Prop := Changes w [.locating] s.session s'.session

instance (w : Workspace) : IsPreorder Scan (Asks w) where
  refl s := Changes.refl s.session
  trans _ _ _ := Changes.trans

theorem keeps_addPackage (w : Workspace) (package : String) : Keeps (Asks w) (addPackage package) := by
  intro s
  apply ensures_modify
  unfold Asks
  split <;> exact Changes.refl s.session

theorem keeps_scanRoot (w : Workspace) (root : String) : Keeps (Asks w) (scanRoot w root) := by
  have hlocate : Keeps (Asks w) (ask (Session.locate w root)) :=
    fun s => Session.ensures_within (Session.keeps_locate w root s.session)
  refine keeps_get.bind fun s => ?_
  split
  · exact keeps_pure _
  · refine (keeps_addPackage w root).bind fun _ => hlocate.bind fun path => ?_
    cases directories w path with
    | error cause => exact fun s => ensures_modify (Changes.refl s.session)
    | ok paths => exact Keeps.forM _ fun package => keeps_addPackage w package

theorem keeps_scanAll (w : Workspace) (roots : List String) : Keeps (Asks w) (scanAll w roots) :=
  Keeps.forM roots fun root => keeps_scanRoot w root

end Scan

/-! ## Requests -/

/-- What a session can be asked for. -/
inductive Request where
  | resolve (identifier : String)
  | locate (identifier : String)
  | unitsOf (directory : String)
  | packageUnits (package : String)
  | symbolTable (package : String)
  | importMap (package : String)
  | declaration (name package : String)
  | findModel (reference package : String)
  | collectImports (package : String)
  | buildTypes (package : String)
  /-- Describes a written type in a builder that has some models. -/
  | describe (models : Dict Swagger.Model) (package written : String)
  | applyLine (operation : Swagger.Operation) (line : String)
  | scan (roots : List String)

namespace Request

/-- A computation on a state that is set up around a session, as one on the session. -/
def alone {σ α : Type} (start : Session → σ) (part : σ → Session) (x : EStateM Error σ α) :
    SessionM Unit := fun s =>
  match x (start s) with
  | .ok _ t => .ok () (part t)
  | .error e t => .error e (part t)

theorem keeps_alone {σ α : Type} {R : Session → Session → Prop} {start : Session → σ}
    {part : σ → Session} {x : EStateM Error σ α} (hx : Keeps (fun a b => R (part a) (part b)) x)
    (hstart : ∀ s, part (start s) = s) : Keeps R (alone start part x) := by
  intro s
  have h := hx (start s)
  rw [Ensures] at h ⊢
  rw [alone]
  cases hd : x (start s) with
  | ok a t => rw [hd] at h; exact hstart s ▸ h
  | error e t => rw [hd] at h; exact hstart s ▸ h

/-- Serves a request. What it answers is left out; how it ends, and what the session knows
then, is not. -/
def perform (w : Workspace) : Request → SessionM Unit
  | resolve identifier => discard <| Session.resolve w identifier
  | locate identifier => discard <| Session.locate w identifier
  | unitsOf directory => discard <| Session.unitsOf w directory
  | packageUnits package => discard <| Session.packageUnits w package
  | symbolTable package => discard <| Session.symbolTable w package
  | importMap package => discard <| Session.importMap w package
  | declaration name package => discard <| Session.declaration? w name package
  | findModel reference package => discard <| Session.findModel w reference package
  | collectImports package => discard <| Session.collectImports w package
  | buildTypes package => Session.buildTypes w package
  | describe models package written =>
    alone (fun session => { session, models }) (·.session) (Swagger.Builder.describe w package written)
  | applyLine operation line => discard <| operation.applyLine w line
  | scan roots => alone (fun session => { session }) (·.session) (Scan.scanAll w roots)

/-- The kinds of steps that serving a request takes. -/
def effects : Request → List Effect
  | unitsOf _ => [.reading]
  | packageUnits _ => [.locating, .reading]
  | collectImports _ => [.locating, .reading, .importing]
  | buildTypes _ => Effect.every
  | _ => [.locating]

theorem keeps_perform (w : Workspace) (request : Request) :
    Keeps (Changes w request.effects) (request.perform w) := by
  cases request with
  | resolve identifier => exact (Session.keeps_resolve w identifier).discard
  | locate identifier => exact (Session.keeps_locate w identifier).discard
  | unitsOf directory => exact (Session.keeps_unitsOf w directory).discard
  | packageUnits package => exact (Session.keeps_packageUnits w package).discard
  | symbolTable package => exact (Session.keeps_symbolTable w package).discard
  | importMap package => exact (Session.keeps_importMap w package).discard
  | declaration name package => exact (Session.keeps_declaration w name package).discard
  | findModel reference package => exact (Session.keeps_findModel w reference package).discard
  | collectImports package => exact (Session.keeps_collectImports w package).discard
  | buildTypes package => exact Session.keeps_buildTypes w package
  | applyLine operation line =>
    exact (Swagger.Operation.keeps_applyLine w operation line).discard
  | describe models package written =>
    exact keeps_alone (Swagger.Builder.keeps_describe w package written) fun _ => rfl
  | scan roots => exact keeps_alone (Scan.keeps_scanAll w roots) fun _ => rfl

end Request

namespace Session

/-- The session after one request in a workspace, whether or not it failed. -/
def serve (s : Session) (w : Workspace) (request : Request) : Session :=
  finalState (request.perform w s)

/-- The session after a run of requests, each in the workspace as it is at that moment. -/
def after (s : Session) (run : List (Workspace × Request)) : Session :=
  run.foldl (fun s (w, request) => s.serve w request) s

theorem serve_changes (s : Session) (w : Workspace) (request : Request) :
    Changes w request.effects s (s.serve w request) :=
  (request.keeps_perform w).finalState s

/-- What every step keeps in any workspace, every run keeps. -/
theorem after_invariant {P : Session → Prop}
    (hstep : ∀ w e s t, Step w e s t → P s → P t) {s : Session} (hs : P s)
    (run : List (Workspace × Request)) : P (s.after run) := by
  induction run generalizing s with
  | nil => exact hs
  | cons request run ih =>
    refine ih ((s.serve_changes request.1 request.2).invariant ?_ hs)
    intro e _ t u
    exact hstep request.1 e t u

/-- The session after requests in a workspace that does not change. -/
def afterIn (s : Session) (w : Workspace) (requests : List Request) : Session :=
  s.after (requests.map fun request => (w, request))

theorem afterIn_changes (s : Session) (w : Workspace) (requests : List Request) :
    Changes w Effect.every s (s.afterIn w requests) := by
  induction requests generalizing s with
  | nil => exact Changes.refl s
  | cons request requests ih =>
    have hserve := (s.serve_changes w request).mono fun e _ => Effect.mem_every e
    exact hserve.trans (ih (s.serve w request))

end Session

/-- Two packages that import each other, one of them under a second name. -/
def Workspace.circle : Workspace :=
  let file (text : String) : Entry := .file text.toUTF8
  (((((empty.put ["src"] .directory).put ["src", "a"] .directory).put
    ["src", "b"] .directory).put ["src", "c"] (.link "src/a")).put
    ["src", "a", "a.go"] (file "package a\nimport \"b\"\n")).put
    ["src", "b", "b.go"] (file "package b\nimport _ \"c\"\nimport . \"b\"\n")

end ApiDocs
