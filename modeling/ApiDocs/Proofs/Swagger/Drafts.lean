/-
  ApiDocs.Proofs.Swagger.Drafts

  Operations that are written in place. A draft is an operation together with the session in
  which its types are looked up, and a line of documentation writes into it as it goes: models
  are stored when a type has been described, parameters and responses are added after that, and
  whatever has been written stays if the line fails. Written in place or handed on, the operation
  after a line is the same (`applyLine_eq`); in particular no line fails after it has written
  something. So a line that fails leaves the operation as it was, and documentation with failing
  lines in it yields what it yields without them (`applyLine_leaves_no_trace`).
-/

import ApiDocs.Generator
import ApiDocs.Proofs.Requests

namespace ApiDocs

open Swagger (Operation)

/-! ## What computations fail with -/

/-- The computation fails with no other errors than these. -/
def FailsWith {ε σ α : Type} (E : ε → Prop) (x : EStateM ε σ α) : Prop :=
  ∀ s, Ensures x s (fun _ _ => True) (fun e _ => E e)

theorem sequential_failsWith {ε σ : Type} (E : ε → Prop) :
    Sequential fun (α : Type) (x : EStateM ε σ α) => FailsWith E x where
  pure _ _ := ensures_pure trivial
  bind hx hf s := ensures_bind ((hx s).mono (fun a t _ => hf a t) (fun _ _ h => h))

/-- The error is that a reference to a model is not resolved. -/
def Error.IsUnresolved (e : Error) : Prop :=
  ∃ reference package fault, e = .modelNotFound reference package fault

theorem Error.IsUnresolved.not_directive {e : Error} (h : e.IsUnresolved) : e.isDirective = false := by
  obtain ⟨_, _, _, rfl⟩ := h
  rfl

namespace Swagger.Builder

theorem rules_failsWith (w : Workspace) :
    Rules w fun (α : Type) (x : BuilderM α) => FailsWith Error.IsUnresolved x where
  toSequential := sequential_failsWith Error.IsUnresolved
  find reference package b := by
    apply ensures_ask
    refine (Session.findModel_fault w reference package b.session).mono (fun _ _ _ => trivial) ?_
    rintro e _ ⟨fault, rfl, -⟩
    exact ⟨reference, package, fault, rfl⟩
  store _ _ := ensures_modify trivial
  inspect _ hf b := ensures_bind (ensures_get (hf b b))

/-- Describing a type fails only for a reference that is not resolved. -/
theorem failsWith_run (w : Workspace) (package written : String) :
    FailsWith Error.IsUnresolved (run w package written) :=
  fun s => ensures_run ((rules_failsWith w).describe package written { session := s })

end Swagger.Builder

/-! ## Drafts -/

/-- An operation that is being written, and the session in which its types are looked up. -/
structure Draft where
  operation : Operation
  session : Session

/-- Work on a draft. What has been written stays even if it fails. -/
abbrev DraftM := EStateM Error Draft

namespace Draft

open Swagger

/-- Uses the session. -/
def ask {α : Type} (x : SessionM α) : DraftM α :=
  Session.within Draft.session (fun d session => { d with session }) x

/-- Writes into the operation. -/
def write (f : Operation → Operation) : DraftM Unit :=
  modify fun d => { d with operation := f d.operation }

/-- Describes a written type, and stores the models that it mentions at once. -/
def describe (w : Workspace) (written : List Char) : DraftM DataType := do
  let d ← get
  let described ← ask (Builder.run w d.operation.package (String.ofList written))
  write fun operation => { operation with models := operation.models.extend described.2 }
  return described.1

/-- Adds the parameter of a parameter line. -/
def addParameter (w : Workspace) (directive : String) (rest : List Char) : DraftM Unit := do
  match ParameterLine.read? rest with
  | none => throw (.directive directive (.parameterForm (String.ofList rest)))
  | some line =>
    let location := String.ofList line.location
    let flag := Text.lowered (String.ofList line.required)
    if !locations.contains location then
      throw (.directive directive (.unknownLocation location))
    else if flag ≠ "true" && flag ≠ "false" then
      throw (.directive directive (.requiredFlag flag))
    else
      let type ← describe w line.type
      let parameter : Parameter := {
        location
        name := String.ofList line.name
        description := String.ofList line.description
        dataType := type.typeName
        typeName := type.typeName
        format := type.format?
        items := type.items?
        allowMultiple := false
        required := flag = "true" }
      write fun operation => { operation with parameters := operation.parameters ++ [parameter] }

/-- Adds the response of a response line. The type of a success is written before the response
is added. -/
def addResponse (w : Workspace) (success : Bool) (directive : String) (rest : List Char) :
    DraftM Unit := do
  match ResponseLine.read? rest with
  | none => throw (.directive directive (.responseForm (String.ofList rest)))
  | some line =>
    match statusCode? line.code with
    | none => throw (.directive directive (.statusCode (String.ofList line.code)))
    | some code =>
      let message := String.ofList line.message
      let add (responseModel : Option String) : DraftM Unit :=
        write fun operation => { operation with
          responseMessages := operation.responseMessages ++ [{ code, message, responseModel }] }
      match line.type with
      | none => add none
      | some written =>
        let type ← describe w written
        if success then
          write fun operation => { operation with typeName := type.typeName, items := type.items? }
        add type.modelId?

/-- Names the resource. -/
def setResource (directive : String) (rest : List Char) : DraftM Unit :=
  let resource := rest.dropWhile (· = '/')
  if resource.isEmpty then
    throw (.directive directive .emptyResource)
  else
    write fun operation => { operation with resourceName := some (String.ofList resource) }

/-- Sets the path, and then the method if one is given. -/
def setRoute (directive : String) (rest : List Char) : DraftM Unit := do
  match readRoute? rest with
  | none => throw (.directive directive (.routerForm (String.ofList rest)))
  | some (path, method) =>
    write fun operation => { operation with path := String.ofList path }
    match method with
    | none => return
    | some method =>
      write fun operation => { operation with method := Text.raised (String.ofList method) }

/-- Applies one line of documentation. -/
def applyLine (w : Workspace) (line : String) : DraftM Unit := do
  let cs := dropCommentMarks line.toList
  if cs.head? ≠ some '@' then
    return
  else
    let directive := String.ofList (splitDirective cs).1
    let rest := (splitDirective cs).2
    match Text.lowered directive with
    | "@title" => write fun operation => { operation with nickname := String.ofList rest }
    | "@description" => write fun operation => { operation with summary := String.ofList rest }
    | "@notes" => write fun operation => { operation with notes := String.ofList rest }
    | "@resource" => setResource directive rest
    | "@accept" =>
      let types ← ofExcept (Operation.readMimeTypes directive rest)
      write fun operation => { operation with consumes := types }
    | "@produce" =>
      let types ← ofExcept (Operation.readMimeTypes directive rest)
      write fun operation => { operation with produces := types }
    | "@param" => addParameter w directive rest
    | "@success" => addResponse w true directive rest
    | "@failure" => addResponse w false directive rest
    | "@router" => setRoute directive rest
    | _ => return

/-- Applies lines one after the other. A malformed directive is passed over and reported; any
other error ends the work. -/
def applyLines (w : Workspace) : List String → DraftM (List Error)
  | [] => return []
  | line :: lines => do
    let report ← tryCatch (do applyLine w line; return []) fun e =>
      if e.isDirective then return [e] else throw e
    return report ++ (← applyLines w lines)

/-- The lines that can be applied, each to what the lines before it have left. -/
def accepted (w : Workspace) : List String → Draft → List String
  | [], _ => []
  | line :: lines, d =>
    let outcome := applyLine w line d
    if isOk outcome then
      line :: accepted w lines (finalState outcome)
    else
      accepted w lines (finalState outcome)

/-! ## What a line can do -/

/-- The computation only writes, and does not fail. -/
def Writes (x : DraftM Unit) (f : Operation → Operation) : Prop :=
  ∀ d, x d = .ok () { d with operation := f d.operation }

theorem writes_write (f : Operation → Operation) : Writes (write f) f :=
  fun _ => rfl

theorem Writes.then {x y : DraftM Unit} {f g : Operation → Operation} (hx : Writes x f)
    (hy : Writes y g) : Writes (do x; y) (fun operation => g (f operation)) := by
  intro d
  rw [bind_apply, hx d]
  exact hy _

/-- What a line can do, written in place or handed on: it only writes, it is refused before
anything is done, or it describes a type and then only writes. -/
inductive Acts (w : Workspace) : DraftM Unit → (Operation → SessionM Operation) → Prop where
  | write {x : DraftM Unit} {f : Operation → Operation} (hx : Writes x f) :
      Acts w x (fun operation => pure (f operation))
  | refuse (directive : String) (fault : DirectiveFault) :
      Acts w (throw (.directive directive fault)) (fun _ => throw (.directive directive fault))
  | describe (written : List Char) {next : DataType → DraftM Unit}
      {f : DataType → Operation → Operation} (hnext : ∀ type, Writes (next type) (f type)) :
      Acts w (describe w written >>= next) (fun operation => do
        let described ← operation.describe w written
        return f described.1 described.2)

section Lines

variable (w : Workspace) (directive : String) (rest : List Char)

theorem acts_nothing : Acts w (pure ()) (fun operation => pure operation) :=
  .write fun _ => rfl

theorem addParameter_acts :
    Acts w (addParameter w directive rest)
      (fun operation => operation.addParameter w directive rest) := by
  unfold addParameter Operation.addParameter
  cases ParameterLine.read? rest with
  | none => exact .refuse _ _
  | some line =>
    dsimp only
    split
    · exact .refuse _ _
    split
    · exact .refuse _ _
    · exact .describe line.type fun type => writes_write _

theorem addResponse_acts (success : Bool) :
    Acts w (addResponse w success directive rest)
      (fun operation => operation.addResponse w success directive rest) := by
  unfold addResponse Operation.addResponse
  cases ResponseLine.read? rest with
  | none => exact .refuse _ _
  | some line =>
    dsimp only
    cases statusCode? line.code with
    | none => exact .refuse _ _
    | some code =>
      dsimp only
      cases line.type with
      | none => exact .write (writes_write _)
      | some written =>
        cases success with
        | false =>
          simp only [Bool.false_eq_true, if_false]
          exact .describe written fun type => writes_write _
        | true =>
          simp only [if_true]
          exact .describe written fun type => (writes_write _).then (writes_write _)

theorem setResource_acts :
    Acts w (setResource directive rest)
      (fun operation => ofExcept (operation.setResource directive rest)) := by
  unfold setResource Operation.setResource
  dsimp only
  split
  · exact .refuse _ _
  · exact .write (writes_write _)

theorem setRoute_acts :
    Acts w (setRoute directive rest)
      (fun operation => ofExcept (operation.setRoute directive rest)) := by
  unfold setRoute Operation.setRoute
  cases readRoute? rest with
  | none => exact .refuse _ _
  | some route =>
    obtain ⟨path, method⟩ := route
    cases method with
    | none => exact .write fun _ => rfl
    | some method => exact .write fun _ => rfl

theorem setMimeTypes_acts (f : List String → Operation → Operation) :
    Acts w (do let types ← ofExcept (Operation.readMimeTypes directive rest); write (f types))
      (fun operation => do
        return f (← ofExcept (Operation.readMimeTypes directive rest)) operation) := by
  unfold Operation.readMimeTypes
  dsimp only
  split
  · exact .refuse _ _
  · exact .write (writes_write _)

end Lines

theorem applyLine_acts (w : Workspace) (line : String) :
    Acts w (applyLine w line) (fun operation => operation.applyLine w line) := by
  unfold applyLine Operation.applyLine
  dsimp only
  split
  · exact acts_nothing w
  generalize splitDirective (dropCommentMarks line.toList) = parts
  obtain ⟨name, rest⟩ := parts
  dsimp only
  -- both programs look at the same word, so that one case distinction decides for both
  generalize Text.lowered (String.ofList name) = word
  split
  case h_1 | h_2 | h_3 => exact .write (writes_write _)
  case h_4 => exact setResource_acts w _ rest
  case h_5 => exact setMimeTypes_acts w _ rest fun types operation => { operation with consumes := types }
  case h_6 => exact setMimeTypes_acts w _ rest fun types operation => { operation with produces := types }
  case h_7 => exact addParameter_acts w _ rest
  case h_8 => exact addResponse_acts w _ rest true
  case h_9 => exact addResponse_acts w _ rest false
  case h_10 => exact setRoute_acts w _ rest
  case h_11 =>
    simp_all only [imp_false]
    exact acts_nothing w

/-! ## In place and handed on -/

/-- The outcome for a draft if the operation is handed on: after an error it is what it was. -/
def settle (d : Draft) : EStateM.Result Error Session Operation → EStateM.Result Error Draft Unit
  | .ok operation session => .ok () { operation, session }
  | .error e session => .error e { d with session }

section Describe

variable {w : Workspace} {written : List Char} {d : Draft} {session : Session}

theorem describe_of_error {e : Error}
    (h : Builder.run w d.operation.package (String.ofList written) d.session = .error e session) :
    describe w written d = .error e { d with session } ∧
      d.operation.describe w written d.session = .error e session := by
  simp only [describe, Operation.describe, ask, Session.within, bind_apply, get_apply, h, and_self]

theorem describe_of_ok {type : DataType} {models : Dict Model}
    (h : Builder.run w d.operation.package (String.ofList written) d.session =
      .ok (type, models) session) :
    ∃ operation, describe w written d = .ok type { operation, session } ∧
      d.operation.describe w written d.session = .ok (type, operation) session := by
  refine ⟨{ d.operation with models := d.operation.models.extend models }, ?_, ?_⟩
  · simp only [describe, ask, Session.within, bind_apply, get_apply, h]
    rfl
  · simp only [Operation.describe, bind_apply, h]
    rfl

end Describe

/-- Written in place, the operation is as it would be if it were handed on: nothing fails after
something has been written. -/
theorem Acts.settle {w : Workspace} {x : DraftM Unit} {handOn : Operation → SessionM Operation}
    (h : Acts w x handOn) (d : Draft) : x d = d.settle (handOn d.operation d.session) := by
  cases h with
  | write hx => exact hx d
  | refuse directive fault => rfl
  | @describe written next f hnext =>
    show _ = d.settle ((d.operation.describe w written >>= fun described =>
      pure (f described.1 described.2)) d.session)
    rw [bind_apply, bind_apply]
    cases hrun : Builder.run w d.operation.package (String.ofList written) d.session with
    | error e session =>
      obtain ⟨hdraft, hoperation⟩ := describe_of_error hrun
      rw [hdraft, hoperation]
      rfl
    | ok described session =>
      obtain ⟨operation, hdraft, hoperation⟩ := describe_of_ok hrun
      rw [hdraft, hoperation]
      exact hnext described.1 { operation, session }

/-- A line fails because it is refused, and then nothing has been done, or because a reference
in it is not resolved. -/
theorem Acts.fails {w : Workspace} {x : DraftM Unit} {handOn : Operation → SessionM Operation}
    (h : Acts w x handOn) (d : Draft) :
    Ensures x d (fun _ _ => True)
      (fun e d' => e.isDirective = true ∧ d' = d ∨ e.IsUnresolved ∧ d'.operation = d.operation) := by
  cases h with
  | write hx => exact ensures_of_eq_ok (hx d) trivial
  | refuse directive fault => exact ensures_throw (.inl ⟨rfl, rfl⟩)
  | @describe written next f hnext =>
    apply ensures_bind
    cases hrun : Builder.run w d.operation.package (String.ofList written) d.session with
    | error e session =>
      have hunresolved := (Builder.failsWith_run w _ _ d.session).of_error hrun
      exact ensures_of_eq_error (describe_of_error hrun).1 (.inr ⟨hunresolved, rfl⟩)
    | ok described session =>
      obtain ⟨operation, hdraft, -⟩ := describe_of_ok hrun
      exact ensures_of_eq_ok hdraft (ensures_of_eq_ok (hnext described.1 _) trivial)

theorem applyLine_eq (w : Workspace) (line : String) (d : Draft) :
    applyLine w line d = d.settle (d.operation.applyLine w line d.session) :=
  (applyLine_acts w line).settle d

/-- A line only locates packages. -/
theorem changes_applyLine (w : Workspace) (line : String) (d : Draft) :
    Session.Changes w [.locating] d.session (finalState (applyLine w line d)).session := by
  have hline := (Operation.keeps_applyLine w d.operation line).finalState d.session
  rw [applyLine_eq]
  cases hx : d.operation.applyLine w line d.session with
  | ok operation session => rwa [hx] at hline
  | error e session => rwa [hx] at hline

/-! ## Lines one after the other -/

section Runs

variable (w : Workspace)

/-- A line that is passed over has changed nothing, so that the lines behind it find what they
would find without it. -/
theorem applyLines_accepted (lines : List String) (d : Draft) :
    Ensures (applyLines w lines) d
      (fun _ d' => (accepted w lines d).forM (applyLine w) d = .ok () d')
      (fun e _ => e.IsUnresolved) := by
  induction lines generalizing d with
  | nil => exact ensures_pure rfl
  | cons line lines ih =>
    apply ensures_bind
    apply ensures_tryCatch
    apply ensures_bind
    have hfails := (applyLine_acts w line).fails d
    cases hx : applyLine w line d with
    | ok _ d₁ =>
      apply ensures_of_eq_ok hx
      apply ensures_pure
      apply ensures_bind
      refine (ih d₁).mono (fun _ d' h => ensures_pure ?_) (fun _ _ h => h)
      rw [accepted, hx]
      show (applyLine w line >>= fun _ => (accepted w lines d₁).forM (applyLine w)) d = _
      rw [bind_apply, hx]
      exact h
    | error e d₁ =>
      apply ensures_of_eq_error hx
      rcases hfails.of_error hx with ⟨hdirective, rfl⟩ | ⟨hunresolved, -⟩
      · rw [if_pos hdirective]
        apply ensures_pure
        apply ensures_bind
        refine (ih d₁).mono (fun _ d' h => ensures_pure ?_) (fun _ _ h => h)
        rw [accepted, hx]
        exact h
      · rw [if_neg (by simp [hunresolved.not_directive])]
        exact ensures_throw hunresolved

theorem accepted_sublist (lines : List String) (d : Draft) :
    (accepted w lines d).Sublist lines := by
  induction lines generalizing d with
  | nil => exact .slnil
  | cons line lines ih =>
    rw [accepted]
    split
    · exact (ih _).cons_cons line
    · exact (ih _).cons line

variable (package function : String)

/-- A line of a handler's documentation is applied to its operation as it is to a draft, and
reported if it is refused. -/
theorem generator_applyLine (operation : Operation) (line : String) (g : Generator) :
    Ensures (applyLine w line) { operation, session := g.session }
      (fun _ d => Generator.applyLine w package function operation line g =
        .ok d.operation { g with session := d.session })
      (fun e d => Generator.applyLine w package function operation line g =
        if e.isDirective then
          .ok d.operation { g with
            session := d.session
            warnings := g.warnings ++ [.directive function package e] }
        else
          .error e { g with session := d.session }) := by
  rw [Ensures, applyLine_eq]
  cases hx : operation.applyLine w line g.session with
  | ok operation' session =>
    show Generator.applyLine w package function operation line g = _
    simp only [Generator.applyLine, tryCatch_apply, Generator.ask, Session.within, hx]
  | error e session =>
    show Generator.applyLine w package function operation line g = _
    simp only [Generator.applyLine, tryCatch_apply, Generator.ask, Session.within, hx]
    split
    · rfl
    · rfl

/-- The documentation of a handler yields the operation that its lines leave in a draft. -/
theorem generator_applyLines (lines : List String) (operation : Operation) (g : Generator) :
    Ensures (applyLines w lines) { operation, session := g.session }
      (fun reports d => lines.foldlM (Generator.applyLine w package function) operation g =
        .ok d.operation { g with
          session := d.session
          warnings := g.warnings ++ reports.map (Warning.directive function package) })
      (fun e d => ∃ warnings, lines.foldlM (Generator.applyLine w package function) operation g =
        .error e { g with session := d.session, warnings }) := by
  induction lines generalizing operation g with
  | nil => exact ensures_pure (by simp [pure_apply])
  | cons line lines ih =>
    have hline := generator_applyLine w package function operation line g
    simp only [List.foldlM_cons, bind_apply]
    apply ensures_bind
    apply ensures_tryCatch
    apply ensures_bind
    cases hx : applyLine w line { operation, session := g.session } with
    | ok _ d =>
      have hstep := hline.of_ok hx
      apply ensures_of_eq_ok hx
      apply ensures_pure
      apply ensures_bind
      rw [hstep]
      refine (ih d.operation { g with session := d.session }).mono (fun reports d' h => ?_)
        (fun _ _ h => h)
      exact ensures_pure h
    | error e d =>
      have hstep := hline.of_error hx
      apply ensures_of_eq_error hx
      rw [hstep]
      split
      · apply ensures_pure
        apply ensures_bind
        refine (ih d.operation { g with
          session := d.session
          warnings := g.warnings ++ [.directive function package e] }).mono
            (fun reports d' h => ensures_pure ?_) (fun _ _ h => h)
        simpa using h
      · exact ensures_throw ⟨g.warnings, rfl⟩

end Runs

/-- **A line that fails leaves no trace in the operation.** It leaves the operation as it was, with
its models, and the session too if the directive is malformed; if it is not, a reference is not
resolved. However it ends, a line changes no unit, symbol table or import map, and written in place
the operation is as if it were handed on. So if no line of a documentation fails but by malformed
directives, then the lines that can be applied leave the operation and the session that all of them
leave, which is what the generator has after these lines. -/
theorem applyLine_leaves_no_trace (w : Workspace) :
    (∀ line d e d', applyLine w line d = .error e d' → d'.operation = d.operation ∧
      (e.isDirective = true ∧ d'.session = d.session ∨ e.IsUnresolved)) ∧
    (∀ line d, (finalState (applyLine w line d)).session.units = d.session.units ∧
      (finalState (applyLine w line d)).session.symbols = d.session.symbols ∧
      (finalState (applyLine w line d)).session.imports = d.session.imports) ∧
    (∀ line d, applyLine w line d = d.settle (d.operation.applyLine w line d.session)) ∧
    (∀ lines d e d', applyLines w lines d = .error e d' → e.IsUnresolved) ∧
    (∀ lines d reports d', applyLines w lines d = .ok reports d' →
      (accepted w lines d).Sublist lines ∧
      (accepted w lines d).forM (applyLine w) d = .ok () d' ∧
      ∀ (package function : String) (g : Generator), g.session = d.session →
        lines.foldlM (Generator.applyLine w package function) d.operation g =
          .ok d'.operation { g with
            session := d'.session
            warnings := g.warnings ++ reports.map (Warning.directive function package) }) := by
  refine ⟨?_, ?_, applyLine_eq w, ?_, ?_⟩
  · intro line d e d' herror
    rcases ((applyLine_acts w line).fails d).of_error herror with ⟨hdirective, rfl⟩ | ⟨he, hd'⟩
    · exact ⟨rfl, .inl ⟨hdirective, rfl⟩⟩
    · exact ⟨hd', .inr he⟩
  · intro line d
    have hchanges := changes_applyLine w line d
    exact ⟨hchanges.units_eq (by simp), hchanges.symbols_eq (by simp), hchanges.imports_eq (by simp)⟩
  · intro lines d e d' herror
    exact (applyLines_accepted w lines d).of_error herror
  · intro lines d reports d' hok
    refine ⟨accepted_sublist w lines d, (applyLines_accepted w lines d).of_ok hok, ?_⟩
    rintro package function g hsession
    have hgenerator := generator_applyLines w package function lines d.operation g
    rw [hsession] at hgenerator
    exact hgenerator.of_ok hok

/-- A malformed line between two others, and a type that is not declared. -/
theorem applyLine_leaves_no_trace_order :
    let text := "package p\ntype Order struct \x7b\n Id int\n\x7d\n"
    let w := ((Workspace.empty.put ["src"] .directory).put ["src", "p"] .directory).put
      ["src", "p", "a.go"] (.file text.toUTF8)
    let session := ({ roots := ⟨["src"], none⟩ } : Session).after [(w, .buildTypes "p")]
    let d : Draft := ⟨Operation.ofPackage "p", session⟩
    let lines := ["@Success 200 \x7bobject\x7d Order", "@Param id path", "@Router /orders"]
    (∃ reports d', applyLines w lines d = .ok reports d' ∧ reports.length = 1 ∧
      accepted w lines d = ["@Success 200 \x7bobject\x7d Order", "@Router /orders"] ∧
      (accepted w lines d).forM (applyLine w) d = .ok () d' ∧ d'.operation.path = "/orders") ∧
    (∃ e d', applyLine w "@Failure 404 \x7barray\x7d Missing" d = .error e d' ∧
      e.isDirective = false ∧ d'.operation = d.operation) := by
  intro text w session d lines
  obtain ⟨hfails, -, -, -, hruns⟩ := applyLine_leaves_no_trace w
  constructor
  · have hresult : (result? (applyLines w lines d)).map List.length = some 1 := by decide +kernel
    have hpath : (finalState (applyLines w lines d)).operation.path = "/orders" := by decide +kernel
    obtain ⟨reports, hreports, hlength⟩ := Option.map_eq_some_iff.1 hresult
    have hok := eq_ok_of_result? hreports
    exact ⟨reports, _, hok, hlength, by decide +kernel, (hruns lines d reports _ hok).2.1, hpath⟩
  · have hanswer : answer (applyLine w "@Failure 404 \x7barray\x7d Missing" d) =
        .error (.modelNotFound "Missing" "p" .undeclared) := by decide +kernel
    cases hx : applyLine w "@Failure 404 \x7barray\x7d Missing" d with
    | ok _ d' =>
      rw [hx] at hanswer
      cases hanswer
    | error e d' =>
      rw [hx] at hanswer
      cases hanswer
      exact ⟨_, d', rfl, rfl, (hfails _ d _ d' hx).1⟩

end Draft
end ApiDocs
