/-
  ApiDocs.Proofs.Swagger.Predeclared

  Where names are known that need no declaration. A name can be written in three positions, and
  each has its own rule. As the type of a field, under pointers, slices and arrays, every such name
  is known, and nothing is looked up (`describeExpr_of_builtin`). Written by itself, behind any
  brackets, `any` and `error` are not known, and are looked up like names of declarations
  (`run_of_plain`, `run_of_missing`). As an embedded field, all of them are looked up
  (`collectField_fails_iff`). So describing a type can fail for such a name, but only in these two
  ways (`builtin_name_fails_iff`).
-/

import ApiDocs.Proofs.Swagger.Tour
import ApiDocs.Proofs.Text

namespace ApiDocs.Swagger.Builder

open Source (TypeExpr Field)
open Package (Resolved)

/-! ## Names -/

theorem point_not_mem_of_predeclared {name : String} {type : DataType}
    (h : predeclared? name = some type) : '.' ∉ name.toList := by
  unfold predeclared? at h
  split at h <;> first | decide | cases h

/-- A name that needs no declaration is predeclared, or one of two others. -/
theorem builtin?_none_eq_some {name : String} {type : DataType} (h : builtin? none name = some type) :
    predeclared? name = some type ∨
      (name = "any" ∨ name = "error") ∧ type = .object ∧ predeclared? name = none := by
  rw [builtin?] at h
  split at h
  · rename_i hname
    have hname : name = "any" ∨ name = "error" := by simpa using hname
    refine .inr ⟨hname, (Option.some.inj h).symm, ?_⟩
    rcases hname with rfl | rfl <;> decide
  · exact .inl h

theorem point_not_mem_of_builtin {name : String} {type : DataType}
    (h : builtin? none name = some type) : '.' ∉ name.toList := by
  rcases builtin?_none_eq_some h with h | ⟨rfl | rfl, -⟩
  · exact point_not_mem_of_predeclared h
  · decide
  · decide

/-- A name without points is looked up among the declarations of the package. -/
theorem find_of_plain (w : Workspace) (s : Session) {name : String} (h : '.' ∉ name.toList)
    (package : String) : s.find w name package = s.declared w name package := by
  have hpieces : (Text.pieces '.' name).dropLast = [] := by
    rw [Text.pieces, Text.splitOn_of_not_mem h]
    rfl
  rw [Session.find, if_pos hpieces]

/-! ## Written names -/

/-- How many pairs of brackets stand before the name of a written type. -/
def bracketCount : List Char → Nat
  | '[' :: ']' :: element => bracketCount element + 1
  | _ => 0

theorem describeWritten_of_plain {w : Workspace} {package : String} {written : List Char}
    {type : DataType} (h : plainType? (elementName written) = some type) :
    describeWritten w package written = pure (DataType.array^[bracketCount written] type) := by
  fun_induction describeWritten w package written with
  | case1 element ih =>
    rw [ih h, pure_bind, bracketCount, Function.iterate_succ_apply']
  | case2 written hw =>
    rw [elementName.eq_2 written hw] at h
    rw [describeName_of_plain h, bracketCount.eq_2 written hw]
    rfl

/-- A written type whose name is known is described without looking anything up. -/
theorem run_of_plain {w : Workspace} {package written : String} {s : Session} {type : DataType}
    (h : plainType? (elementName written.toList) = some type) :
    run w package written s = .ok (DataType.array^[bracketCount written.toList] type, ∅) s := by
  rw [run, describe, describeWritten_of_plain h]
  rfl

/-- A written type whose name is neither known nor declared is not described. -/
theorem run_of_missing {w : Workspace} {package written : String} {s : Session}
    (hplain : plainType? (elementName written.toList) = none)
    (hmissing : s.find w (elementName written.toList) package = none) :
    ∃ fault t, run w package written s =
      .error (.modelNotFound (elementName written.toList) package fault) t := by
  have hrun : Ensures (run w package written) s (fun _ _ => False)
      (fun e _ => ∃ fault, e = .modelNotFound (elementName written.toList) package fault) := by
    apply ensures_run
    refine describeWritten_rule (P := fun x => Ensures x _ (fun _ _ => False) _) (fun x hx => ?_) _
      (ensures_describeName (fun type htype => ?_) (fun start _ _ hstart _ => ?_)
        (fun fault _ _ _ => ⟨fault, rfl⟩))
    · apply ensures_bind
      exact hx.mono (fun _ _ h => h.elim) (fun _ _ h => h)
    · rw [hplain] at htype
      cases htype
    · rw [hmissing] at hstart
      cases hstart
  cases hx : run w package written s with
  | ok described t => exact (hrun.of_ok hx).elim
  | error e t =>
    obtain ⟨fault, rfl⟩ := hrun.of_error hx
    exact ⟨fault, t, rfl⟩

/-! ## Field types -/

/-- How many slices and arrays there are around the name of a type expression. -/
def dimension : TypeExpr → Nat
  | .pointer target => dimension target
  | .slice element | .array element => dimension element + 1
  | _ => 0

/-- A field whose type is made of a name that needs no declaration is described without looking
anything up, whatever the walk does with declarations. -/
theorem describeExpr_of_builtin {w : Workspace} {walk : Walk} {unwrapping : List String}
    {package name : String} {qualifier : Option String} {expr : TypeExpr} {type : DataType}
    (hleaf : leafName? expr = some (qualifier, name)) (hname : builtin? qualifier name = some type) :
    describeExpr w walk unwrapping package expr =
      pure (some (DataType.array^[dimension expr] type)) := by
  fun_induction leafName? expr with
  | case1 target ih =>
    rw [describeExpr, ih hleaf, dimension]
  | case2 element ih | case3 element ih =>
    rw [describeExpr, ih hleaf, dimension, pure_bind, Function.iterate_succ_apply']
    rfl
  | case4 qualifier' name' =>
    cases hleaf
    rw [describeExpr, hname]
    rfl
  | case5 => cases hleaf

/-! ## Embedded fields -/

/-- The computation leaves lookups as they are, and fails only for a reference that leads
nowhere. -/
def Blames (w : Workspace) {α : Type} (x : BuilderM α) : Prop :=
  ∀ b, Ensures x b (fun _ b' => b'.session.find w = b.session.find w)
    (fun e _ => ∃ reference package fault, b.session.find w reference package = none ∧
      e = .modelNotFound reference package fault)

theorem rules_blames (w : Workspace) : Rules w fun (α : Type) (x : BuilderM α) => Blames w x where
  pure _ _ := ensures_pure rfl
  bind hx hf b := by
    apply ensures_bind
    refine (hx b).mono (fun a b₁ h₁ => ?_) (fun _ _ h => h)
    refine (hf a b₁).mono (fun _ _ h => h.trans h₁) (fun _ _ h => ?_)
    rwa [h₁] at h
  find reference package b := by
    refine (ask_findModel_resolves reference package rfl).mono (fun _ _ h => h.2.1.find_eq)
      (fun e _ h => ?_)
    obtain ⟨hnone, fault, rfl⟩ := h
    exact ⟨reference, package, fault, hnone, rfl⟩
  store _ _ := ensures_modify rfl
  inspect _ hf b := ensures_bind (ensures_get (hf b b))

/-- A line that embeds a name fails for this name exactly if it leads nowhere, however deep the
walk may go on. -/
theorem collectField_fails_iff {w : Workspace} {depth : Nat} {unwrapping : List String}
    {package name : String} {field : Field} {properties : Dict Property} {b : Builder}
    (hfield : Embeds field name) :
    (∃ fault b', collectField w (walkWithin w depth) unwrapping package properties field b =
        .error (.modelNotFound name package fault) b') ↔
      b.session.find w name package = none := by
  constructor
  · rintro ⟨fault, b', h⟩
    have hblames := (rules_blames w).collectField ((rules_blames w).walkWithin depth) unwrapping
      package properties field b
    obtain ⟨_, _, _, hnone, he⟩ := hblames.of_error h
    cases he
    exact hnone
  · intro hnone
    have hask := ask_findModel_resolves (w := w) (b := b) name package rfl
    rw [collectField_of_embeds w _ unwrapping package hfield, bind_apply]
    cases hx : ask (Session.findModel w name package) b with
    | ok r b' =>
      rw [(hask.of_ok hx).1] at hnone
      cases hnone
    | error e b' =>
      obtain ⟨-, fault, rfl⟩ := hask.of_error hx
      exact ⟨fault, b', rfl⟩

/-! ## All positions -/

/-- What describing a written type can fail for, if it is a name that needs no declaration. -/
theorem blamed_of_run {w : Workspace} {package written context name : String} {s t : Session}
    {fault : ModelFault} {type : DataType} (hname : builtin? none name = some type)
    (h : run w package written s = .error (.modelNotFound name context fault) t) :
    s.find w name context = none ∧
      (elementName written.toList = name ∧ context = package ∧ plainType? name = none ∨
        ∃ field, Reaches (s.find w) package written (.line context field) ∧ Embeds field name) := by
  obtain ⟨_, _, _, hfollows, hnone, he⟩ := (run_tours w package written s).of_error h
  cases he
  refine ⟨hnone, ?_⟩
  rcases hfollows with ⟨hplain, rfl, rfl⟩ | ⟨place, hplace, hneeds⟩
  · exact .inl ⟨rfl, rfl, hplain⟩
  · generalize hreference : name = needed at hneeds
    cases hneeds with
    | @named _ qualifier other hbuiltin =>
      -- a name without a point has no qualifier, and the type of a field is known by it
      cases qualifier with
      | none =>
        rw [hreference] at hname
        exact absurd (hname.symm.trans hbuiltin) (by simp)
      | some qualifier =>
        refine absurd ?_ (point_not_mem_of_builtin hname)
        rw [hreference]
        simp [reference]
    | embeds hfield => exact .inr ⟨_, hplace, hreference ▸ hfield⟩

/-- **For a name that needs no declaration, describing fails in two positions only, and there
exactly if the package does not declare the name.** Behind any number of brackets, the predeclared
names are described at once, while `any` and `error` are looked up. As the type of a field, under
pointers, slices and arrays, every such name is described without looking anything up. Embedded,
every such name is looked up. No other description of a type fails for such a name: it is the
written one itself, or a line that is reached embeds it. -/
theorem builtin_name_fails_iff (w : Workspace) (s : Session) (name : String) (type : DataType)
    (hname : builtin? none name = some type) :
    (∀ package written, elementName written.toList = name →
      (predeclared? name = some type →
        run w package written s = .ok (DataType.array^[bracketCount written.toList] type, ∅) s) ∧
      (predeclared? name = none →
        ((∃ fault t, run w package written s = .error (.modelNotFound name package fault) t) ↔
          s.declared w name package = none))) ∧
    (∀ walk unwrapping context expr b, leafName? expr = some (none, name) →
      describeExpr w walk unwrapping context expr b =
        .ok (some (DataType.array^[dimension expr] type)) b) ∧
    (∀ depth unwrapping context field properties b, Embeds field name →
      ((∃ fault b', collectField w (walkWithin w depth) unwrapping context properties field b =
          .error (.modelNotFound name context fault) b') ↔
        b.session.declared w name context = none)) ∧
    (∀ package written context fault t,
      run w package written s = .error (.modelNotFound name context fault) t →
        s.declared w name context = none ∧
          (elementName written.toList = name ∧ context = package ∧ predeclared? name = none ∨
            ∃ field, Reaches (s.find w) package written (.line context field) ∧
              Embeds field name)) := by
  have hpoint := point_not_mem_of_builtin hname
  refine ⟨fun package written hwritten => ⟨fun hpre => ?_, fun hpre => ⟨?_, fun hnone => ?_⟩⟩,
    fun walk unwrapping context expr b hleaf => ?_,
    fun depth unwrapping context field properties b hfield => ?_,
    fun package written context fault t hrun => ?_⟩
  · refine run_of_plain ?_
    rw [hwritten, plainType?, hpre, Option.some_or]
  · rintro ⟨fault, t, hrun⟩
    rw [← find_of_plain w s hpoint]
    exact (blamed_of_run hname hrun).1
  · have hplain : plainType? name = none := by
      obtain ⟨rfl | rfl, -⟩ := (builtin?_none_eq_some hname).resolve_left (by simp [hpre])
      · decide +kernel
      · decide +kernel
    rw [← find_of_plain w s hpoint] at hnone
    rw [← hwritten] at hplain hnone ⊢
    exact run_of_missing hplain hnone
  · rw [describeExpr_of_builtin hleaf hname]
    rfl
  · rw [← find_of_plain w _ hpoint]
    exact collectField_fails_iff hfield
  · obtain ⟨hnone, hreason⟩ := blamed_of_run hname hrun
    rw [find_of_plain w s hpoint] at hnone
    refine ⟨hnone, hreason.imp_left fun h => ⟨h.1, h.2.1, ?_⟩⟩
    exact (Option.or_eq_none_iff.1 h.2.2).1

/-- A struct that embeds `error`, as structs in Go may, in a package that declares no such type. -/
def embeddedError : Workspace :=
  ((Workspace.empty.put ["src"] .directory).put ["src", "p"] .directory).put
    ["src", "p", "a.go"]
    (.file "package p\ntype T struct \x7b\n error\n Name string\n\x7d\n".toUTF8)

/-- Neither a list of errors nor the struct is described. -/
theorem builtin_name_fails_iff_embeddedError :
    let s := ({ roots := ⟨["src"], none⟩ } : Session).after [(embeddedError, .buildTypes "p")]
    builtin? none "error" = some .object ∧
    (∃ fault t, run embeddedError "p" "[]error" s = .error (.modelNotFound "error" "p" fault) t) ∧
    ∃ fault t field, run embeddedError "p" "T" s = .error (.modelNotFound "error" "p" fault) t ∧
      Reaches (s.find embeddedError) "p" "T" (.line "p" field) ∧ Embeds field "error" := by
  intro s
  have hname : builtin? none "error" = some .object := by decide
  obtain ⟨hwritten, -, -, hblamed⟩ := builtin_name_fails_iff embeddedError s "error" .object hname
  have hnone : (s.declared embeddedError "error" "p").isNone = true := by decide +kernel
  have hlist := ((hwritten "p" "[]error" (by decide +kernel)).2 (by decide)).2
    (Option.isNone_iff_eq_none.1 hnone)
  refine ⟨hname, hlist, ?_⟩
  have hfault : answer (run embeddedError "p" "T" s) =
      .error (.modelNotFound "error" "p" .undeclared) := by
    decide +kernel
  cases hx : run embeddedError "p" "T" s with
  | ok described t =>
    rw [hx] at hfault
    cases hfault
  | error e t =>
    rw [hx] at hfault
    cases hfault
    obtain ⟨-, ⟨hself, -⟩ | ⟨field, hreaches, hembeds⟩⟩ := hblamed "p" "T" "p" .undeclared t hx
    · exact absurd hself (by decide +kernel)
    · exact ⟨.undeclared, t, field, rfl, hreaches, hembeds⟩

end ApiDocs.Swagger.Builder
