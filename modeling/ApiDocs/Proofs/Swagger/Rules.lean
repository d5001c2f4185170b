/-
  ApiDocs.Proofs.Swagger.Rules

  What carries over to describing types and to applying lines of documentation. A property of
  computations that looking a model up and storing a model have, and that carries over to what
  is put together from them, holds of every walk through declarations (`Rules.describe`); one
  that describing a type has holds of every line (`Operation.applyLine_rule`). The parts of
  these programs are gone through here and nowhere else.
-/

import ApiDocs.Proofs.Alike
import ApiDocs.Proofs.Swagger.Walk
import ApiDocs.Swagger.Directive

namespace ApiDocs.Swagger

open Source (TypeExpr Field)
open Package (Resolved)

namespace Builder

/-- A property of computations that look models up and store models. What is done may depend
on the models so far and on how deep a walk may go, but on nothing else of a builder. -/
structure Rules (w : Workspace) (P : (α : Type) → BuilderM α → Prop) : Prop
    extends Sequential P where
  find : ∀ reference package, P Resolved (ask (Session.findModel w reference package))
  store : ∀ model, P Unit (store model)
  inspect : ∀ {α : Type} {f : Builder → BuilderM α},
    (∀ b b', b.models = b'.models → depthBound b.session = depthBound b'.session → f b = f b') →
    (∀ b, P α (f b)) → P α (get >>= f)

/-- The ways in which the walk goes on have the property. -/
structure Walk.Has (P : (α : Type) → BuilderM α → Prop) (walk : Walk) : Prop where
  describe : ∀ unwrapping r, P DataType (walk.describe unwrapping r)
  flatten : ∀ unwrapping r properties, P (Dict Property) (walk.flatten unwrapping r properties)

namespace Rules

variable {w : Workspace} {P : (α : Type) → BuilderM α → Prop} (h : Rules w P)
include h

section Walk

variable {walk : Walk} (hwalk : walk.Has P) (unwrapping : List String) (package : String)
include hwalk

theorem describeExpr (expr : TypeExpr) :
    P (Option DataType) (describeExpr w walk unwrapping package expr) := by
  fun_induction Builder.describeExpr w walk unwrapping package expr with
  | case1 qualifier name type => exact h.pure _
  | case2 qualifier name =>
    exact h.bind (h.find _ _) fun r => h.bind (hwalk.describe unwrapping r) fun _ => h.pure _
  | case3 target ih => exact ih
  | case4 element ih | case5 element ih => exact h.bind ih fun _ => h.pure _
  | case6 | case7 | case8 | case9 | case10 | case11 => exact h.pure _

theorem collectField (properties : Dict Property) (field : Field) :
    P (Dict Property) (collectField w walk unwrapping package properties field) := by
  rcases silent_or_documented_or_embeds field with hfield | hfield | ⟨name, hfield⟩
  · rw [collectField_of_silent w walk unwrapping package hfield]
    exact h.pure properties
  · rw [collectField_of_documented w walk unwrapping package hfield]
    exact h.bind (h.describeExpr hwalk unwrapping package field.type) fun _ => h.pure _
  · rw [collectField_of_embeds w walk unwrapping package hfield]
    exact h.bind (h.find name package) fun r => hwalk.flatten unwrapping r properties

theorem collectFields (fields : List Field) (properties : Dict Property) :
    P (Dict Property) (collectFields w walk unwrapping package fields properties) :=
  h.foldlM fields properties fun field properties =>
    h.collectField hwalk unwrapping package properties field

theorem describeDecl (r : Resolved) : P DataType (describeDecl w walk unwrapping r) := by
  unfold Builder.describeDecl
  dsimp only
  split
  · refine h.inspect (fun b b' hmodels _ => by rw [hmodels]) fun b => ?_
    split
    · exact h.pure _
    · exact h.bind (h.store _) fun _ =>
        h.bind (h.collectFields hwalk unwrapping r.package _ ∅) fun _ =>
          h.bind (h.store _) fun _ => h.pure _
  · split
    · exact h.pure _
    · exact h.bind (h.describeExpr hwalk _ r.package _) fun _ => h.pure _

theorem flattenDecl (r : Resolved) (properties : Dict Property) :
    P (Dict Property) (flattenDecl w walk unwrapping r properties) := by
  unfold Builder.flattenDecl
  dsimp only
  split
  · split
    · exact h.pure properties
    · exact h.collectFields hwalk _ r.package _ properties
  · exact h.pure properties

end Walk

/-- However deep the walk may go. -/
theorem walkWithin (depth : Nat) : (walkWithin w depth).Has P := by
  induction depth with
  | zero => exact ⟨fun _ _ => h.pure _, fun _ _ properties => h.pure properties⟩
  | succ depth ih => exact ⟨h.describeDecl ih, h.flattenDecl ih⟩

theorem describeName (package written : String) : P DataType (describeName w package written) := by
  unfold Builder.describeName
  dsimp only
  split
  · exact h.pure _
  · exact h.pure _
  · refine h.bind (h.find written package) fun r => ?_
    exact h.inspect (fun b b' _ hdepth => by rw [hdepth]) fun b => (h.walkWithin _).describe [] r

theorem describe (package written : String) : P DataType (describe w package written) :=
  describeWritten_rule (fun _ hx => h.bind hx fun _ => h.pure _) _ (h.describeName package _)

end Rules
end Builder

/-! ## Lines of documentation -/

namespace Operation

variable {w : Workspace} {P : (α : Type) → SessionM α → Prop} (h : Compositional P)
  (hrun : ∀ package written, P (DataType × Dict Model) (Builder.run w package written))
  (operation : Operation)
include h hrun

theorem describe_rule (written : List Char) : P (DataType × Operation) (operation.describe w written) :=
  h.bind (hrun _ _) fun _ => h.pure _

theorem addParameter_rule (directive : String) (rest : List Char) :
    P Operation (operation.addParameter w directive rest) := by
  unfold addParameter
  cases ParameterLine.read? rest with
  | none => exact h.throw _
  | some line =>
    dsimp only
    split
    · exact h.throw _
    split
    · exact h.throw _
    · exact h.bind (describe_rule h hrun operation line.type) fun _ => h.pure _

theorem addResponse_rule (success : Bool) (directive : String) (rest : List Char) :
    P Operation (operation.addResponse w success directive rest) := by
  unfold addResponse
  cases ResponseLine.read? rest with
  | none => exact h.throw _
  | some line =>
    dsimp only
    cases statusCode? line.code with
    | none => exact h.throw _
    | some code =>
      cases line.type with
      | none => exact h.pure _
      | some written => exact h.bind (describe_rule h hrun operation written) fun _ => h.pure _

theorem applyLine_rule (line : String) : P Operation (operation.applyLine w line) := by
  unfold applyLine
  dsimp only
  split
  · exact h.pure operation
  obtain ⟨name, rest⟩ := splitDirective (dropCommentMarks line.toList)
  dsimp only
  split
  case h_1 | h_2 | h_3 | h_11 => exact h.pure _
  case h_4 | h_10 => exact h.ofExcept _
  case h_5 | h_6 => exact h.bind (h.ofExcept _) fun _ => h.pure _
  case h_7 => exact addParameter_rule h hrun operation _ _
  case h_8 => exact addResponse_rule h hrun operation true _ _
  case h_9 => exact addResponse_rule h hrun operation false _ _

end Operation
end ApiDocs.Swagger
