/-
  ApiDocs.Proofs.Package.Absolute

  References that spell a package out. A reference is cut at its points, and the segments before
  the last one are joined by slashes. Names of types are identifiers (`isIdentifier_of_listed`) and
  have no points, so the identifier of a package comes back from this unless it has points itself:
  a declared type is found by its package's identifier, a point and its name, whatever the context
  imports, exactly if the identifier has no point (`findModel_absolute_iff`).
-/

import ApiDocs.Proofs.Alike
import ApiDocs.Proofs.Package.Resolution
import ApiDocs.Proofs.Source.Names
import ApiDocs.Proofs.Text

namespace ApiDocs.Session

open Source (SourceUnit TypeDecl isIdentifier)
open Package (Resolved)

/-! ## Names in tables -/

/-- Every known unit was read from a text. -/
def UnitsRead (s : Session) : Prop :=
  ∀ (path : String) (units : List SourceUnit), s.units[path]? = some units →
    ∀ unit ∈ units, ∃ file text, SourceUnit.ofText file text = .ok unit

theorem exists_text_of_readUnit {w : Workspace} {path : String} {unit : SourceUnit}
    (h : readUnit w path = .ok unit) : ∃ text, SourceUnit.ofText path text = .ok unit := by
  unfold readUnit at h
  split at h
  · cases h
  · rename_i text _
    split at h
    · cases h
    · rename_i found hfound
      cases h
      exact ⟨text, hfound⟩

theorem exists_text_of_readDirectory {w : Workspace} {path : String} {units : List SourceUnit}
    (h : readDirectory w path = .ok units) :
    ∀ unit ∈ units, ∃ file text, SourceUnit.ofText file text = .ok unit := by
  intro unit hunit
  rw [readDirectory] at h
  split at h
  · cases h
  · obtain ⟨file, -, hread⟩ := exists_of_mem_forall₂ (mapM_eq_ok_iff.1 h) hunit
    exact ⟨file, exists_text_of_readUnit hread⟩

theorem UnitsRead.step {w : Workspace} {e : Effect} {s t : Session} (h : s.UnitsRead)
    (hstep : Step w e s t) : t.UnitsRead := by
  cases hstep with
  | locate => intro path; rw [units_learn]; exact h path
  | declare | adopt => exact h
  | read _ directory =>
    intro path units hunits
    rw [units_fetch] at hunits
    by_cases hp : directory = path
    · rw [if_pos hp, unitsAt] at hunits
      cases hknown : s.units[directory]? with
      | some known =>
        rw [hknown] at hunits
        cases hunits
        exact h directory units hknown
      | none =>
        rw [hknown] at hunits
        cases hread : readDirectory w directory with
        | error e =>
          simp only [hread] at hunits
          cases hunits
        | ok found =>
          simp only [hread] at hunits
          cases hunits
          exact exists_text_of_readDirectory hread
    · rw [if_neg hp] at hunits
      exact h path units hunits

theorem unitsRead_after (roots : Package.SearchRoots) (home : String)
    (run : List (Workspace × Request)) : (({ roots, home } : Session).after run).UnitsRead := by
  refine after_invariant (fun _ _ _ _ hstep h => UnitsRead.step h hstep) ?_ run
  intro path units h
  simp at h

/-- After any requests, the names in symbol tables are identifiers. -/
theorem isIdentifier_of_listed (roots : Package.SearchRoots) (home : String)
    (run : List (Workspace × Request)) {path name : String} {table : Package.SymbolTable}
    {decl : TypeDecl} (htable : (({ roots, home } : Session).after run).symbols[path]? = some table)
    (hdecl : table[name]? = some decl) : isIdentifier name = true := by
  obtain ⟨units, hunits, rfl⟩ := (mirrored_after roots home run).symbols path table htable
  obtain ⟨before, behind, htypes, rfl, -⟩ := addTypes_eq_some.1 hdecl
  have hmem : decl ∈ units.flatMap (·.types) := by rw [htypes]; simp
  obtain ⟨unit, hunit, hdecl⟩ := List.mem_flatMap.1 hmem
  obtain ⟨file, text, hread⟩ := unitsRead_after roots home run path units hunits unit hunit
  exact SourceUnit.isIdentifier_of_mem_types hread hdecl

/-! ## Spelling a package out -/

/-- The identifier with slashes for its points. -/
def slashed (package : String) : String :=
  String.ofList (package.toList.map fun c => if c = '.' then '/' else c)

theorem slashed_eq_self_iff {package : String} : slashed package = package ↔ '.' ∉ package.toList := by
  rw [slashed, ← String.toList_inj, String.toList_ofList]
  constructor
  · intro h hmem
    -- after the replacement there is no point
    rw [← h, List.mem_map] at hmem
    obtain ⟨c, -, hc⟩ := hmem
    split at hc
    · cases hc
    · rename_i hne
      exact hne hc
  · intro h
    have hkept : ∀ c ∈ package.toList, (if c = '.' then '/' else c) = c := by
      intro c hc
      rw [if_neg]
      rintro rfl
      exact h hc
    rw [List.map_congr_left hkept, List.map_id']

section Spelling

variable {package name : String} (hname : isIdentifier name = true)
include hname

theorem pieces_absolute : Text.pieces '.' (package ++ "." ++ name) = Text.pieces '.' package ++ [name] := by
  have hpoint : '.' ∉ name.toList := Source.not_mem_of_isIdentifier hname (by decide)
  have htext : (package ++ "." ++ name).toList = package.toList ++ '.' :: name.toList := by simp
  rw [Text.pieces, htext, Text.splitOn_append_sep hpoint, List.map_append]
  simp [Text.pieces]

theorem spelledPackage_absolute : spelledPackage (package ++ "." ++ name) = slashed package := by
  rw [spelledPackage, pieces_absolute hname, List.dropLast_concat, ← String.toList_inj,
    String.toList_intercalate, Text.pieces, List.map_map]
  have hid : String.toList ∘ String.ofList = id := funext fun cs => String.toList_ofList
  rw [hid, List.map_id, slashed]
  exact (Text.intercalate_splitOn_eq_map '.' '/' package.toList).trans String.toList_ofList.symm

/-- What an absolute reference leads to: the type in the package that it spells out, and, if that
has only one segment, in the package that the segment stands for. -/
theorem find_absolute (w : Workspace) (s : Session) (context : String) :
    s.find w (package ++ "." ++ name) context =
      (s.declared w name (slashed package)).or
        ((s.aliasedPackage w (package ++ "." ++ name) context).bind (s.declared w name)) := by
  have hpieces : Text.pieces '.' (package ++ "." ++ name) = _ := pieces_absolute hname
  have hne : Text.pieces '.' package ≠ [] := by simp [Text.pieces, Text.splitOn_ne_nil]
  rw [Session.find, spelledPackage_absolute hname, hpieces, List.dropLast_concat, if_neg hne,
    List.getLastD_concat]

end Spelling

/-- A qualifier stands for an import only if it is a single segment. -/
theorem aliasedPackage_absolute {package name : String} (hname : isIdentifier name = true)
    (hpoint : '.' ∈ package.toList) (w : Workspace) (s : Session) (context : String) :
    1 < (Text.pieces '.' (package ++ "." ++ name)).dropLast.length ∧
      s.aliasedPackage w (package ++ "." ++ name) context = none := by
  have hlength : 1 < (Text.pieces '.' package).length := by
    have hcount := List.count_pos_iff.2 hpoint
    rw [Text.pieces, List.length_map, Text.length_splitOn]
    omega
  rw [aliasedPackage, pieces_absolute hname, List.dropLast_concat]
  refine ⟨hlength, ?_⟩
  split
  · rename_i qualifier hone
    rw [hone] at hlength
    exact absurd hlength (by simp)
  · rfl

/-! ## Absolute references -/

/-- **A type is found by the identifier of its package, a point and its name exactly if the
identifier has no point.** Then no import is needed, and what the context imports does not matter.
An identifier with points is never looked up as it is: what is found, if anything, is the type of
that name in the package whose identifier has slashes for the points. -/
theorem findModel_absolute_iff (roots : Package.SearchRoots) (home : String)
    (run : List (Workspace × Request)) (w : Workspace) (package name context : String)
    (table : Package.SymbolTable) (decl : TypeDecl)
    (htable : result? (symbolTable w package (({ roots, home } : Session).after run)) =
      some (some table))
    (hdecl : table[name]? = some decl) :
    let s := ({ roots, home } : Session).after run
    ((∃ t, findModel w (package ++ "." ++ name) context s = .ok { decl, package } t) ↔
      '.' ∉ package.toList) ∧
    ('.' ∈ package.toList → slashed package ≠ package ∧
      answer (findModel w (package ++ "." ++ name) context s) =
        (result? (declaration? w name (slashed package) s)).join.elim
          (.error (.modelNotFound (package ++ "." ++ name) context
            (.undeclaredAbsolute name (slashed package))))
          fun other => .ok { decl := other, package := slashed package }) := by
  intro s
  rw [symbolTable_eq] at htable
  have htableAt : s.tableAt w package = some table := Option.some.inj htable
  have hfound : s.declared w name package = some { decl, package } := by
    rw [declared, htableAt, Option.bind_some, hdecl, Option.map_some]
  have hname : isIdentifier name = true := by
    obtain ⟨-, path, table', -, hlisted, hdecl'⟩ := declared_eq_some hfound
    exact isIdentifier_of_listed roots home run hlisted hdecl'
  have hfind : s.find w (package ++ "." ++ name) context = _ := find_absolute hname w s context
  have hspec := findModel_spec w (package ++ "." ++ name) context s
  have hpointed : '.' ∈ package.toList → slashed package ≠ package ∧
      answer (findModel w (package ++ "." ++ name) context s) =
        (result? (declaration? w name (slashed package) s)).join.elim
          (.error (.modelNotFound (package ++ "." ++ name) context
            (.undeclaredAbsolute name (slashed package))))
          fun other => .ok { decl := other, package := slashed package } := by
    intro hpoint
    obtain ⟨hlength, haliased⟩ := aliasedPackage_absolute hname hpoint w s context
    rw [haliased, Option.bind_none, Option.or_none] at hfind
    refine ⟨fun hsame => slashed_eq_self_iff.1 hsame hpoint, ?_⟩
    cases hd : declaration? w name (slashed package) s with
    | error e t => exact ((declaration_spec w name (slashed package) s).of_error hd).elim
    | ok found t =>
      have hdeclared := ((declaration_spec w name (slashed package) s).of_ok hd).2
      rw [hdeclared] at hfind
      cases hx : findModel w (package ++ "." ++ name) context s with
      | ok r u =>
        have hr := (hspec.of_ok hx).2.1
        rw [hfind] at hr
        obtain ⟨other, rfl, rfl⟩ := Option.map_eq_some_iff.1 hr
        rfl
      | error e u =>
        have hnone := (hspec.of_error hx).2
        rw [hfind, Option.map_eq_none_iff] at hnone
        subst hnone
        obtain ⟨fault, rfl, hfault⟩ :=
          (findModel_fault w (package ++ "." ++ name) context s).of_error hx
        rw [hfault hlength, spelledPackage_absolute hname, pieces_absolute hname,
          List.getLastD_concat]
        rfl
  refine ⟨⟨?_, fun hplain => ?_⟩, hpointed⟩
  · rintro ⟨t, ht⟩ hpoint
    obtain ⟨hne, hanswer⟩ := hpointed hpoint
    rw [ht] at hanswer
    cases hd : (result? (declaration? w name (slashed package) s)).join with
    | none =>
      rw [hd] at hanswer
      cases hanswer
    | some other =>
      rw [hd] at hanswer
      injection hanswer with hr
      exact hne (congrArg Resolved.package hr).symm
  · rw [slashed_eq_self_iff.2 hplain, hfound, Option.some_or] at hfind
    cases hx : findModel w (package ++ "." ++ name) context s with
    | error e t =>
      have hnone := (hspec.of_error hx).2
      rw [hfind] at hnone
      cases hnone
    | ok r t =>
      have hr := (hspec.of_ok hx).2.1
      rw [hfind] at hr
      cases hr
      exact ⟨t, rfl⟩

/-- Two packages, one of which has a point in its identifier. -/
def pointed : Workspace :=
  let file (text : String) : Workspace.Entry := .file text.toUTF8
  ((((((Workspace.empty.put ["src"] .directory).put ["src", "a"] .directory).put
    ["src", "a", "b"] .directory).put ["src", "a.b"] .directory).put
    ["src", "a", "b", "m.go"] (file "package b\ntype T int\n")).put
    ["src", "a.b", "m.go"] (file "package b\ntype T string\n"))

/-- The same reference is absolute for both packages; it leads to the one without a point. -/
theorem findModel_absolute_iff_pointed :
    let s := ({ roots := ⟨["src"], none⟩ } : Session).after
      [(pointed, .buildTypes "a/b"), (pointed, .buildTypes "a.b")]
    ∃ decl decl' table table' t, result? (symbolTable pointed "a/b" s) = some (some table) ∧
      table["T"]? = some decl ∧ result? (symbolTable pointed "a.b" s) = some (some table') ∧
      table'["T"]? = some decl' ∧
      findModel pointed "a/b.T" "x" s = .ok { decl, package := "a/b" } t ∧
      answer (findModel pointed "a.b.T" "x" s) = .ok { decl, package := "a/b" } ∧
      ∀ t, findModel pointed "a.b.T" "x" s ≠ .ok { decl := decl', package := "a.b" } t := by
  intro s
  have hlisted : ∀ package, ((result? (symbolTable pointed package s)).join.bind (·["T"]?)).isSome →
      ∃ table decl, result? (symbolTable pointed package s) = some (some table) ∧
        table["T"]? = some decl := by
    intro package h
    obtain ⟨decl, h⟩ := Option.isSome_iff_exists.1 h
    obtain ⟨table, htable, hdecl⟩ := Option.bind_eq_some_iff.1 h
    exact ⟨table, decl, Option.join_eq_some_iff.1 htable, hdecl⟩
  obtain ⟨table, decl, htable, hdecl⟩ := hlisted "a/b" (by decide +kernel)
  obtain ⟨table', decl', htable', hdecl'⟩ := hlisted "a.b" (by decide +kernel)
  obtain ⟨⟨-, hplain⟩, -⟩ := findModel_absolute_iff ⟨["src"], none⟩ "."
    [(pointed, .buildTypes "a/b"), (pointed, .buildTypes "a.b")] pointed "a/b" "T" "x" table decl
    htable hdecl
  obtain ⟨⟨honly, -⟩, hpointed⟩ := findModel_absolute_iff ⟨["src"], none⟩ "."
    [(pointed, .buildTypes "a/b"), (pointed, .buildTypes "a.b")] pointed "a.b" "T" "x" table' decl'
    htable' hdecl'
  obtain ⟨t, ht⟩ := hplain (by decide)
  refine ⟨decl, decl', table, table', t, htable, hdecl, htable', hdecl', ht, ?_,
    fun u hu => honly ⟨u, hu⟩ (by decide)⟩
  obtain ⟨-, hanswer⟩ := hpointed (by decide)
  have hslashed : slashed "a.b" = "a/b" := by decide
  rw [hslashed] at hanswer
  refine hanswer.trans ?_
  have hother : result? (declaration? pointed "T" "a/b" s) = some (some decl) := by
    rw [declaration?, bind_apply, eq_ok_of_result? htable, ← hdecl]
    rfl
  rw [hother]
  rfl

end ApiDocs.Session
