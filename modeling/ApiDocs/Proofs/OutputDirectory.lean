/-
  ApiDocs.Proofs.OutputDirectory

  Output stays in the output directory. Whatever a resource is called, its file has a plain name
  (`isFileName_of_stem`), so that joining the name to a directory gives the path of a child
  (`isChild_join`), and the directory that is created for it is the output directory. In a
  workspace such a path leads to an entry of the directory unless a link stands there
  (`locate_join`). So writing documents adds directories, and files in the output directory, and
  leaves all else alone (`keeps_writeInto`).
-/

import ApiDocs.Proofs.Directories
import ApiDocs.Proofs.DocumentFiles

namespace ApiDocs

/-! ## Pairs of points -/

namespace Text

theorem infix_of_infix_append {c : Char} {cs front back : List Char}
    (h : c :: cs <:+: front ++ back) (hc : c ∉ front) : c :: cs <:+: back := by
  induction front with
  | nil => exact h
  | cons d front ih =>
    rw [List.mem_cons, not_or] at hc
    rcases List.infix_cons_iff.1 h with hprefix | hinfix
    · exact absurd (List.cons_prefix_cons.1 hprefix).1 hc.1
    · exact ih hinfix hc.2

/-- Where pairs of a character have been replaced, none is left, and none has come up. -/
theorem not_pair_infix_replacePair {c : Char} {replacement : List Char} (hc : c ∉ replacement)
    (cs : List Char) : ¬ [c, c] <:+: replacePair c c replacement cs := by
  fun_induction replacePair c c replacement cs with
  | case1 x y rest _ ih => exact fun h => ih (infix_of_infix_append h hc)
  | case2 x y rest hpair ih =>
    intro h
    rcases List.infix_cons_iff.1 h with hprefix | hinfix
    · -- the first character would be one of a pair, but then the second one is another
      obtain ⟨rfl, hsecond⟩ := List.cons_prefix_cons.1 hprefix
      have hy : y ≠ c := fun hy => hpair ⟨rfl, hy⟩
      rw [replacePair_cons_of_ne hy] at hsecond
      exact hy (List.cons_prefix_cons.1 hsecond).1.symm
    · exact ih hinfix
  | case3 cs hshort =>
    rintro ⟨before, behind, rfl⟩
    cases before with
    | nil => exact hshort _ _ _ rfl
    | cons x before =>
      cases before with
      | nil => exact hshort _ _ _ rfl
      | cons y before => exact hshort _ _ _ rfl

end Text

theorem not_points_infix_resourceStem (resource : String) :
    ¬ ['.', '.'] <:+: (resourceStem resource).toList := by
  unfold resourceStem
  split
  · decide
  · rw [String.toList_ofList]
    exact Text.not_pair_infix_replacePair (by decide) _

/-! ## Paths of children -/

namespace Workspace.Path

/-- The path is that of an entry with this name right in the directory: it has the names of the
directory and this one, and the directory that it lies in is that directory. -/
structure IsChild (directory name path : String) : Prop where
  absolute : isAbsolute path = isAbsolute directory
  names_eq : names path = names directory ++ [name]
  fileName_eq : fileName? path = some name
  parent_absolute : isAbsolute (parent path) = isAbsolute directory
  parent_names : names (parent path) = names directory

theorem names_of_slash {path : String} {front last : List Char} (h : path.toList = front ++ '/' :: last)
    (hlast : '/' ∉ last) :
    names path = names (String.ofList front) ++ names (String.ofList last) := by
  unfold names Text.pieces
  rw [h, Text.splitOn_append_sep hlast, String.toList_ofList, String.toList_ofList,
    Text.splitOn_of_not_mem hlast, List.map_append, List.filter_append]

theorem names_of_plain {name : String} (hname : IsFileName name) : names name = [name] := by
  have hplain := hname.plain
  simp only [isDots, Bool.or_eq_false_iff, decide_eq_false_iff_not] at hplain
  unfold names Text.pieces
  rw [Text.splitOn_of_not_mem hname.slash, List.map_singleton, String.ofList_toList,
    List.filter_cons_of_pos (by simp [hplain.1]), List.filter_nil]

/-- What is dropped from the end of a path are no names. -/
theorem names_dropIdle (cs : List Char) :
    names (String.ofList (dropIdle cs).reverse) = names (String.ofList cs.reverse) := by
  have hslash : ∀ rest, names (String.ofList ('/' :: rest).reverse) = names (String.ofList rest.reverse) :=
    fun rest => (names_of_slash (by simp) (by decide : '/' ∉ [])).trans (List.append_nil _)
  have hpoint : ∀ rest, names (String.ofList ('.' :: '/' :: rest).reverse) =
      names (String.ofList rest.reverse) :=
    fun rest => (names_of_slash (by simp) (by decide : '/' ∉ ['.'])).trans (List.append_nil _)
  fun_induction dropIdle cs with
  | case1 rest ih => rw [ih, hslash, hslash, hpoint]
  | case2 rest _ hempty => rw [List.isEmpty_iff.1 hempty]
  | case3 rest _ _ ih => rw [ih, hslash]
  | case4 rest ih => rw [ih, hslash, hpoint]
  | case5 => rfl

theorem getLast?_dropIdle (cs : List Char) : (dropIdle cs).getLast? = cs.getLast? := by
  fun_induction dropIdle cs with
  | case1 rest ih =>
    rw [ih]
    simp
  | case2 rest _ hempty =>
    rw [List.isEmpty_iff.1 hempty]
  | case3 rest _ hne ih =>
    rw [ih]
    cases rest with
    | nil => exact absurd rfl hne
    | cons c rest => simp
  | case4 rest ih =>
    rw [ih]
    simp
  | case5 => rfl

/-- The directory that a path with a slash in it lies in. -/
theorem parent_of_slash {path : String} {front last : List Char} (h : path.toList = front ++ '/' :: last)
    (hlast : '/' ∉ last) :
    names (parent path) = names (String.ofList front) ∧
      (parent path).toList.head? = (front ++ ['/']).head? := by
  have hparent : (parent path).toList = (dropIdle ('/' :: front.reverse)).reverse := by
    have hrun := Text.ne_of_not_mem (mt List.mem_reverse.1 hlast)
    rw [parent, String.toList_ofList, h, List.reverse_append, List.reverse_cons, List.append_assoc,
      Text.dropWhile_append_stop hrun (by simp)]
    rfl
  constructor
  · rw [← String.ofList_toList (s := parent path), hparent, names_dropIdle]
    exact (names_of_slash (by simp) (by decide : '/' ∉ [])).trans (List.append_nil _)
  · rw [hparent, List.head?_reverse, getLast?_dropIdle, ← List.head?_reverse]
    simp

/-- A plain name joined to a directory gives the path of a child. -/
theorem isChild_join {name : String} (hname : IsFileName name) (directory : String) :
    IsChild directory name (join directory name) := by
  have hfile : ∀ {path}, names path = names directory ++ [name] → fileName? path = some name := by
    intro path hnames
    have hplain := hname.plain
    rw [← Bool.not_eq_true, isDots_iff, not_or] at hplain
    rw [fileName?, hnames, List.getLast?_concat, Option.filter_some, if_pos (by simpa using hplain.2)]
  -- behind a directory that is not empty, the name stands behind a slash
  have hslash : ∀ {path : String} (front : List Char), path.toList = front ++ '/' :: name.toList →
      names directory = names (String.ofList front) →
      directory.toList.head? = (front ++ ['/']).head? → IsChild directory name path := by
    intro path front hpath hnames hhead
    obtain ⟨hparent, hparentHead⟩ := parent_of_slash hpath hname.slash
    have hchild : names path = names directory ++ [name] := by
      rw [names_of_slash hpath hname.slash, String.ofList_toList, names_of_plain hname, hnames]
    refine ⟨?_, hchild, hfile hchild, ?_, hparent.trans hnames.symm⟩
    · rw [isAbsolute, isAbsolute, hhead, hpath]
      cases front <;> rfl
    · rw [isAbsolute, isAbsolute, hhead, hparentHead]
  rw [join, isAbsolute_eq_false hname, Bool.false_or]
  split
  · rename_i hempty
    obtain rfl : directory = "" := by simpa using hempty
    have hparent : parent name = "" := by
      rw [parent, List.dropWhile_eq_nil_iff.2 ?_]
      · simp [dropIdle]
      · intro c hc
        rw [decide_eq_true_iff]
        rintro rfl
        exact hname.slash (List.mem_reverse.1 hc)
    exact ⟨isAbsolute_eq_false hname, names_of_plain hname, hfile (names_of_plain hname), by rw [hparent], by rw [hparent]⟩
  · rename_i hne
    split
    · rename_i hlast
      obtain ⟨front, hfront⟩ := List.getLast?_eq_some_iff.1 hlast
      refine hslash front ?_ ?_ (by rw [hfront])
      · rw [String.toList_append, hfront, List.append_assoc]
        rfl
      · exact (names_of_slash hfront (by decide : '/' ∉ [])).trans (List.append_nil _)
    · refine hslash directory.toList ?_ ?_ ?_
      · simp
      · rw [String.ofList_toList]
      · have hcons : directory.toList ≠ [] := by simpa using hne
        rw [List.head?_append_of_ne_nil _ hcons]

end Workspace.Path

/-! ## Where writing leaves its marks -/

open Workspace (Extends AddsDirectories)

/-- From one workspace to the other, directories have been added, and files have been written where
the names lead from the directory. All else is as it was. -/
structure Confined (directory : String) (names : List String) (w w' : Workspace) : Prop where
  grown : Extends w w'
  changed : ∀ place, w'.entry? place = w.entry? place ∨
    (w.entry? place = none ∧ w'.entry? place = some .directory) ∨
    ∃ name ∈ names, w'.locate .reading (Workspace.Path.join directory name) = .ok place

instance (directory : String) (names : List String) :
    IsPreorder Workspace (Confined directory names) where
  refl w := ⟨.refl w, fun _ => .inl rfl⟩
  trans w w' w'' h h' := by
    refine ⟨h.grown.trans h'.grown, fun place => ?_⟩
    rcases h'.changed place with hsame | ⟨hnone, hdirectory⟩ | hwritten
    · rw [hsame]
      refine (h.changed place).imp_right (Or.imp_right ?_)
      rintro ⟨name, hname, hplace⟩
      exact ⟨name, hname, h'.grown.locate hplace⟩
    · refine .inr (.inl ⟨?_, hdirectory⟩)
      -- what was there before would still be there
      cases hentry : w.entry? place with
      | none => rfl
      | some entry =>
        cases entry with
        | directory => cases hnone.symm.trans (h.grown.directory place hentry)
        | link target => cases hnone.symm.trans (h.grown.link place target hentry)
        | file content =>
          obtain ⟨content', hfile⟩ := h.grown.file place content hentry
          cases hnone.symm.trans hfile
    · exact .inr (.inr hwritten)

theorem Workspace.AddsDirectories.confined {w w' : Workspace} (h : AddsDirectories w w') (directory : String)
    (names : List String) : Confined directory names w w' :=
  ⟨h.adds.extends, fun place => (h place).imp_right .inl⟩

theorem confined_of_writeFile {w w' : Workspace} {directory name : String} {content : ByteArray}
    {names : List String} (hname : name ∈ names)
    (h : w.writeFile (Workspace.Path.join directory name) content = .ok w') :
    Confined directory names w w' := by
  obtain ⟨place, target, htarget, hplace, hne, rfl, hgrown⟩ := Workspace.put_of_writeFile h
  refine ⟨hgrown, fun other => ?_⟩
  by_cases hother : place = other
  · subst hother
    have hfile : Workspace.entry? (w.put place (.file content)) place = some (.file content) := by
      rw [Workspace.entry?_put hne, if_pos rfl]
    exact .inr (.inr ⟨name, hname, Workspace.locate_of_writing hgrown htarget hplace hfile⟩)
  · rw [Workspace.entry?_put hne, if_neg hother]
    exact .inl rfl

/-- Writing a file into the directory changes nothing elsewhere, whether or not it succeeds. -/
theorem keeps_writeInto {directory : String} {names : List String} {file : String × String}
    (hname : file.1 ∈ names) : Keeps (Confined directory names) (writeInto directory file) := by
  have hwrite : Keeps (Confined directory names)
      (writeDocument (Workspace.Path.join directory file.1) file.2) := by
    intro w
    apply ensures_bind
    apply ensures_get
    cases hcreated : w.createDirectories _ with
    | error e => exact ensures_throw (refl_of (Confined directory names) w)
    | ok w₁ =>
      have hw₁ : Confined directory names w w₁ :=
        (Workspace.addsDirectories_of_createTree hcreated).confined directory names
      apply ensures_bind
      refine ensures_of_eq_ok (set_apply w w₁) ?_
      cases hwritten : w₁.writeFile (Workspace.Path.join directory file.1) file.2.toUTF8 with
      | error e => exact ensures_throw hw₁
      | ok w' =>
        exact ensures_of_eq_ok (set_apply w₁ w')
          (trans_of (Confined directory names) hw₁ (confined_of_writeFile hname hwritten))
  exact hwrite.bind fun _ => keeps_pure _

theorem keeps_mapM_writeInto {directory : String} {names : List String}
    {files : List (String × String)} (h : ∀ file ∈ files, file.1 ∈ names) :
    Keeps (Confined directory names) (files.mapM (writeInto directory)) := by
  induction files with
  | nil => exact keeps_pure _
  | cons file files ih =>
    rw [List.mapM_cons]
    refine (keeps_writeInto (h file List.mem_cons_self)).bind fun _ => ?_
    exact (ih fun other hother => h other (List.mem_cons_of_mem file hother)).bind fun _ => keeps_pure _

/-- **Output stays in the output directory**, whatever the resources are called. The file of a
resource has a name without slashes and backslashes which is not one of those that lead elsewhere,
and its stem has no two points in a row; so its path is that of a child of the directory. These are
the paths that are written. However writing ends, whatever has changed in the workspace is a
directory that was added, or an entry of the output directory with the name of one of the files,
unless a link stood there. -/
theorem writeDocuments_stay_inside (docs : Swagger.Documentation) (directory : String)
    (format : OutputFormat) (w : Workspace) :
    let file (resource : String) : String := resourceStem resource ++ "." ++ format.name
    let index := listingStem ++ "." ++ format.name
    let w' := finalState (writeDocuments docs directory format w)
    (∀ resource, file resource ≠ "" ∧ file resource ≠ "." ∧ file resource ≠ ".." ∧
      '/' ∉ (file resource).toList ∧ '\\' ∉ (file resource).toList ∧
      ¬ ['.', '.'] <:+: (resourceStem resource).toList ∧
      Workspace.Path.IsChild directory (file resource) (Workspace.Path.join directory (file resource))) ∧
    (∀ paths, result? (writeDocuments docs directory format w) = some paths →
      paths = (index :: docs.resources.keys.map file).map (Workspace.Path.join directory)) ∧
    ∀ place, w'.entry? place = w.entry? place ∨
      (w.entry? place = none ∧ w'.entry? place = some .directory) ∨
      ∃ name ∈ index :: docs.resources.keys.map file,
        IsLink w' (Workspace.Path.join directory name) ∨
        ∃ above, w'.locate .reading directory = .ok above ∧ place = above ++ [name] := by
  intro file index w'
  have hfiles : (documentFiles docs format).map (·.1) = index :: docs.resources.keys.map file := by
    rw [documentFiles_names, stems, List.map_cons, List.map_map]
    rfl
  have hplain : ∀ resource, IsFileName (file resource) :=
    fun resource => isFileName_of_stem (slash_not_mem_resourceStem resource) format
  refine ⟨fun resource => ?_, fun paths hpaths => ?_, fun place => ?_⟩
  · have hdots := (hplain resource).plain
    simp only [Workspace.isDots, Bool.or_eq_false_iff, decide_eq_false_iff_not] at hdots
    have hbackslash : '\\' ∉ (file resource).toList := by
      have hstem := not_mem_resourceStem (.inr rfl) resource
      have hformat : '\\' ∉ format.name.toList := by cases format <;> decide
      simp [file, hstem, hformat]
    exact ⟨hdots.1.1, hdots.1.2, hdots.2, (hplain resource).slash, hbackslash,
      not_points_infix_resourceStem resource, Workspace.Path.isChild_join (hplain resource) directory⟩
  · have hok := eq_ok_of_result? hpaths
    rw [writeDocuments_eq_mapM] at hok
    rw [((ensures_writeInto directory (documentFiles docs format) w).of_ok hok).1, ← hfiles,
      List.map_map]
    rfl
  · have hconfined : Confined directory (index :: docs.resources.keys.map file) w w' := by
      refine (keeps_mapM_writeInto fun other hother => ?_).finalState w
      rw [← hfiles]
      exact List.mem_map.2 ⟨other, hother, rfl⟩
    refine (hconfined.changed place).imp_right (Or.imp_right ?_)
    rintro ⟨name, hname, hplace⟩
    have hfile : IsFileName name := by
      rw [← hfiles] at hname
      obtain ⟨other, hother, rfl⟩ := List.mem_map.1 hname
      exact isFileName_of_mem hother
    refine ⟨name, hname, ?_⟩
    by_cases hlink : IsLink w' (Workspace.Path.join directory name)
    · exact .inl hlink
    · exact .inr (locate_join hfile hplace hlink)

end ApiDocs
