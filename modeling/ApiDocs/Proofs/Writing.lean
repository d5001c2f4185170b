/-
  ApiDocs.Proofs.Writing

  Writing files into a workspace. Writing adds directories and files and changes the contents of
  files, but nothing else (`Extends`), so that a path which leads somewhere leads there ever after
  (`Extends.locate`). Hence, of files that are written one after the other, each path holds the
  text of the last one whose path leads to the same place (`ensures_writeInto`).
-/

import ApiDocs.Generator
import ApiDocs.Proofs.Ensures
import ApiDocs.Proofs.Package.Mirror
import ApiDocs.Proofs.Workspace

namespace ApiDocs.Workspace

/-! ## Entries -/

section Entries

variable {w : Workspace} {place other : RealPath} {entry : Entry}

theorem isDirectory_iff : w.isDirectory place = true ↔ w.entry? place = some .directory := by
  unfold isDirectory
  split
  · rename_i h
    simp [h]
  · rename_i h
    simpa using h

theorem entry?_put (hplace : place ≠ []) :
    entry? (w.put place entry) other = if place = other then some entry else w.entry? other := by
  cases other with
  | nil => rw [if_neg hplace, entry?, entry?]; rfl
  | cons =>
    show (w.entries.insert place entry)[_]? = _
    rw [Std.ExtTreeMap.getElem?_insert]
    simp only [Std.compare_eq_iff_eq]
    rfl

theorem ne_nil_of_not_directory (h : w.entry? place ≠ some .directory) : place ≠ [] := by
  rintro rfl
  exact h rfl

end Entries

/-! ## Extensions -/

/-- The second workspace has what the first one has, but its files may hold something else. -/
structure Extends (w w' : Workspace) : Prop where
  directory : ∀ place, w.entry? place = some .directory → w'.entry? place = some .directory
  link : ∀ place target, w.entry? place = some (.link target) →
    w'.entry? place = some (.link target)
  file : ∀ place content, w.entry? place = some (.file content) →
    ∃ content', w'.entry? place = some (.file content')

/-- The second workspace has just what the first one has, and perhaps more. -/
def Adds (w w' : Workspace) : Prop :=
  ∀ place entry, w.entry? place = some entry → w'.entry? place = some entry

section Extends

variable {w w' w'' : Workspace} {place : RealPath}

theorem Extends.refl (w : Workspace) : Extends w w :=
  ⟨fun _ => id, fun _ _ => id, fun _ content h => ⟨content, h⟩⟩

theorem Extends.trans (h : Extends w w') (h' : Extends w' w'') : Extends w w'' where
  directory place hplace := h'.directory place (h.directory place hplace)
  link place target hplace := h'.link place target (h.link place target hplace)
  file place content hplace := by
    obtain ⟨content', hplace'⟩ := h.file place content hplace
    exact h'.file place content' hplace'

theorem Adds.extends (h : Adds w w') : Extends w w' :=
  ⟨fun place => h place _, fun place _ => h place _, fun place content hplace =>
    ⟨content, h place _ hplace⟩⟩

theorem adds_put {entry : Entry} (hplace : w.entry? place = none) : Adds w (w.put place entry) := by
  intro other entry' hother
  rw [entry?_put (ne_nil_of_not_directory (by rw [hplace]; simp)), if_neg, hother]
  rintro rfl
  rw [hplace] at hother
  cases hother

theorem extends_put_file {content content' : ByteArray} (hplace : w.entry? place = some (.file content)) :
    Extends w (w.put place (.file content')) := by
  have hne : place ≠ [] := ne_nil_of_not_directory (by rw [hplace]; simp)
  have hkept : ∀ other entry, (∀ content, entry ≠ .file content) → w.entry? other = some entry →
      entry? (w.put place (.file content')) other = some entry := by
    intro other entry hentry hother
    rw [entry?_put hne, if_neg, hother]
    rintro rfl
    exact hentry content (Option.some.inj (hother.symm.trans hplace))
  refine ⟨fun other => hkept other _ (by simp), fun other _ => hkept other _ (by simp), ?_⟩
  intro other old hother
  rw [entry?_put hne]
  split
  · exact ⟨content', rfl⟩
  · exact ⟨old, hother⟩

end Extends

/-! ## Where paths lead -/

section Walks

variable {w w' : Workspace} {purpose : Purpose} {links : Nat} {place found : RealPath}
  {names : List String} {path : String}

/-- Nothing stands at a vacant place. -/
theorem Walks.entry?_of_vacant (h : Walks w purpose links place names (.vacant found)) :
    w.entry? found = none := by
  generalize htarget : Target.vacant found = target at h
  induction h with
  | done => cases htarget
  | stay _ _ _ ih | up _ _ _ ih | enter _ _ _ _ ih | through _ _ _ _ _ ih => exact ih htarget
  | vacant _ hentry _ =>
    cases htarget
    exact hentry
  | link => cases htarget

theorem Passes.reading {name : String} {rest : List String} (h : Passes w purpose place name rest)
    (hextends : Extends w w') : Passes w' .reading place name rest where
  directory := isDirectory_iff.2 (hextends.directory place (isDirectory_iff.1 h.directory))
  plain := h.plain
  slash := rfl
  size := h.size

/-- A path that leads to an entry leads there ever after, and so does a path to a vacant place
once a file is written there. -/
theorem Walks.reading (hextends : Extends w w') (hpurpose : purpose ≠ .entry) {target : Target}
    (h : Walks w purpose links place names target)
    (htarget : target = .occupied found ∨ target = .vacant found ∧ purpose = .writing ∧
      ∃ content, w'.entry? found = some (.file content)) :
    Walks w' .reading links place names (.occupied found) := by
  have hdirectory : ∀ {place}, w.isDirectory place = true → w'.isDirectory place = true :=
    fun hplace => isDirectory_iff.2 (hextends.directory _ (isDirectory_iff.1 hplace))
  induction h with
  | done links place =>
    rcases htarget with htarget | ⟨htarget, -⟩
    · cases htarget
      exact .done links found
    · cases htarget
  | stay hplace hname _ ih => exact .stay (hdirectory hplace) hname (ih htarget)
  | up hplace hne _ ih => exact .up (hdirectory hplace) hne (ih htarget)
  | @vacant links place name rest hpasses hentry hrest =>
    rcases htarget with htarget | ⟨htarget, hwriting, content, hfile⟩
    · cases htarget
    · cases htarget
      -- a file that is written has no slash behind its name
      have hend : rest = [] := by
        have hslash := hpasses.slash
        rw [hrest, hwriting] at hslash
        simpa using hslash
      subst hend
      exact .enter (hpasses.reading hextends) hfile (by simp) (.done links _)
  | @enter links place name rest target entry hpasses hentry hlink _ ih =>
    have hpasses' := hpasses.reading hextends
    cases entry with
    | directory => exact .enter hpasses' (hextends.directory _ hentry) hlink (ih htarget)
    | file content =>
      obtain ⟨content', hentry'⟩ := hextends.file _ content hentry
      exact .enter hpasses' hentry' (by simp) (ih htarget)
    | link target => exact absurd rfl (hlink target)
  | link _ hentry => exact absurd hentry hpurpose
  | through hpasses _ hentry htext _ ih =>
    exact .through (hpasses.reading hextends) (fun h => by cases h) (hextends.link _ _ hentry) htext
      (ih htarget)

theorem Extends.locate (hextends : Extends w w') (h : w.locate .reading path = .ok place) :
    w'.locate .reading path = .ok place := by
  rw [locate_eq_ok_iff, target_eq_ok_iff] at h ⊢
  exact ⟨h.1, h.2.reading hextends (by simp) (.inl rfl)⟩

/-- A path to be written leads to the file afterwards. -/
theorem locate_of_writing (hextends : Extends w w') {target : Target} {content : ByteArray}
    (h : w.target .writing path = .ok target)
    (htarget : target = .occupied place ∨ target = .vacant place)
    (hfile : w'.entry? place = some (.file content)) : w'.locate .reading path = .ok place := by
  rw [target_eq_ok_iff] at h
  rw [locate_eq_ok_iff, target_eq_ok_iff]
  refine ⟨h.1, h.2.reading hextends (by simp) ?_⟩
  rcases htarget with rfl | rfl
  · exact .inl rfl
  · exact .inr ⟨rfl, rfl, content, hfile⟩

end Walks

/-! ## Creating directories -/

/-- The second workspace has just what the first one has, and perhaps more directories. -/
def AddsDirectories (w w' : Workspace) : Prop :=
  ∀ place, w'.entry? place = w.entry? place ∨
    w.entry? place = none ∧ w'.entry? place = some .directory

theorem AddsDirectories.adds {w w' : Workspace} (h : AddsDirectories w w') : Adds w w' := by
  intro place entry hentry
  rcases h place with hsame | ⟨hnone, -⟩
  · rw [hsame, hentry]
  · rw [hnone] at hentry
    cases hentry

theorem AddsDirectories.trans {w w' w'' : Workspace} (h : AddsDirectories w w')
    (h' : AddsDirectories w' w'') : AddsDirectories w w'' := by
  intro place
  rcases h' place with hsame | ⟨hnone, hdirectory⟩
  · rw [hsame]
    exact h place
  · rcases h place with hsame | ⟨-, hthere⟩
    · exact .inr ⟨hsame ▸ hnone, hdirectory⟩
    · rw [hnone] at hthere
      cases hthere

theorem addsDirectories_of_createDirectory {w w' : Workspace} {path : String}
    (h : w.createDirectory path = .ok w') : AddsDirectories w w' := by
  unfold createDirectory at h
  split at h
  · rename_i place htarget
    cases h
    have hvacant : w.entry? place = none := (target_eq_ok_iff.1 htarget).2.entry?_of_vacant
    intro other
    rw [entry?_put (ne_nil_of_not_directory (by rw [hvacant]; simp))]
    split
    · rename_i hplace
      exact .inr ⟨hplace ▸ hvacant, rfl⟩
    · exact .inl rfl
  · cases h
  · cases h

/-- Creating a directory with those above it creates directories one after the other. -/
theorem createTree_rule {R : Workspace → Workspace → Prop} (hrefl : ∀ w, R w w)
    (htrans : ∀ {w w' w''}, R w w' → R w' w'' → R w w'')
    (hcreate : ∀ {w w' path}, w.createDirectory path = .ok w' → R w w') {w w' : Workspace}
    {path : String} {levels : Nat} (h : w.createTree path levels = .ok w') : R w w' := by
  induction levels generalizing w w' path with
  | zero =>
    cases h
    exact hrefl w
  | succ levels ih =>
    rw [createTree] at h
    split at h
    · cases h
      exact hrefl w
    split at h
    · rename_i w₁ hcreated
      cases h
      exact hcreate hcreated
    · split at h
      · cases h
      · rename_i w₁ habove
        split at h
        · rename_i w₂ hcreated
          cases h
          exact htrans (ih habove) (hcreate hcreated)
        · split at h
          · cases h
            exact ih habove
          · cases h
    · split at h
      · cases h
        exact hrefl w
      · cases h

theorem addsDirectories_of_createTree {w w' : Workspace} {path : String} {levels : Nat}
    (h : w.createTree path levels = .ok w') : AddsDirectories w w' :=
  createTree_rule (fun _ _ => .inl rfl) .trans addsDirectories_of_createDirectory h

/-! ## Writing files -/

/-- A file has been written: its path leads to the place, which holds its text, and all other
entries are as they were. -/
structure Wrote (w : Workspace) (path text : String) (place : RealPath) (w' : Workspace) : Prop where
  grown : Extends w w'
  located : w'.locate .reading path = .ok place
  content : w'.entry? place = some (.file text.toUTF8)
  others : ∀ other entry, other ≠ place → w.entry? other = some entry → w'.entry? other = some entry

/-- Putting a file where its path leads writes it. -/
theorem wrote_put {w w₁ : Workspace} {path text : String} {place : RealPath} {target : Target}
    (hadds : Adds w w₁) (htarget : w₁.target .writing path = .ok target)
    (hplace : target = .occupied place ∨ target = .vacant place) (hne : place ≠ [])
    (hgrown : Extends w₁ (w₁.put place (.file text.toUTF8))) :
    Wrote w path text place (w₁.put place (.file text.toUTF8)) := by
  have hcontent : entry? (w₁.put place (.file text.toUTF8)) place = some (.file text.toUTF8) := by
    rw [entry?_put hne, if_pos rfl]
  refine ⟨hadds.extends.trans hgrown, locate_of_writing hgrown htarget hplace hcontent, hcontent, ?_⟩
  intro other entry hother hentry
  rw [entry?_put hne, if_neg (Ne.symm hother)]
  exact hadds other entry hentry

/-- A file is written where its path leads: at a vacant place or over a file. -/
theorem put_of_writeFile {w w' : Workspace} {path : String} {content : ByteArray}
    (h : w.writeFile path content = .ok w') :
    ∃ place target, w.target .writing path = .ok target ∧
      (target = .occupied place ∨ target = .vacant place) ∧ place ≠ [] ∧
      w' = w.put place (.file content) ∧ Extends w w' := by
  unfold writeFile at h
  split at h
  · rename_i place htarget
    cases h
    have hvacant : w.entry? place = none := (target_eq_ok_iff.1 htarget).2.entry?_of_vacant
    have hne : place ≠ [] := ne_nil_of_not_directory (by rw [hvacant]; simp)
    exact ⟨place, _, htarget, .inr rfl, hne, rfl, (adds_put hvacant).extends⟩
  · rename_i place htarget
    split at h
    · cases h
    rename_i hdirectory
    rw [isDirectory_iff] at hdirectory
    cases h
    -- what is neither a directory nor a link is a file
    obtain ⟨entry, hentry, hlink⟩ :=
      standing_of_target htarget (by simp) place (List.prefix_refl place)
    cases entry with
    | directory => exact absurd hentry hdirectory
    | link linkTarget => exact absurd rfl (hlink linkTarget)
    | file old =>
      have hne : place ≠ [] := ne_nil_of_not_directory hdirectory
      exact ⟨place, _, htarget, .inl rfl, hne, rfl, extends_put_file hentry⟩
  · cases h

theorem wrote_of_writeFile {w w₁ w' : Workspace} {path text : String} (hadds : Adds w w₁)
    (h : w₁.writeFile path text.toUTF8 = .ok w') : ∃ place, Wrote w path text place w' := by
  obtain ⟨place, target, htarget, hplace, hne, rfl, hgrown⟩ := put_of_writeFile h
  exact ⟨place, wrote_put hadds htarget hplace hne hgrown⟩

/-- What a file holds is read back. -/
theorem readText_of_file {w : Workspace} {path text : String} {place : RealPath} (hpath : path ≠ "")
    (hplace : w.locate .reading path = .ok place) (h : w.entry? place = some (.file text.toUTF8)) :
    w.readText path = .ok text := by
  have htext : String.fromUTF8? text.toUTF8 = some text := dif_pos text.isValidUTF8
  rw [readText, if_neg (by simpa using hpath)]
  refine except_bind_eq_ok_iff.2 ⟨place, hplace, ?_⟩
  simp only [h, htext]
  rfl

end ApiDocs.Workspace

namespace ApiDocs

open Workspace (Wrote Extends RealPath)
open Session (IsLast)

theorem ensures_writeDocument (path text : String) (w : Workspace) :
    Ensures (writeDocument path text) w (fun _ w' => ∃ place, Wrote w path text place w')
      (fun _ _ => True) := by
  apply ensures_bind
  apply ensures_get
  cases hcreated : w.createDirectories (Workspace.Path.parent path) with
  | error e => exact ensures_throw trivial
  | ok w₁ =>
    have hadds : Workspace.Adds w w₁ := (Workspace.addsDirectories_of_createTree hcreated).adds
    apply ensures_bind
    refine ensures_of_eq_ok (set_apply w w₁) ?_
    cases hwritten : w₁.writeFile path text.toUTF8 with
    | error e => exact ensures_throw trivial
    | ok w' => exact ensures_of_eq_ok (set_apply w₁ w') (Workspace.wrote_of_writeFile hadds hwritten)

/-! ## Writing files one after the other -/

/-- The path of a file leads to the place. -/
def LeadsTo (w : Workspace) (directory : String) (place : RealPath) (file : String × String) : Prop :=
  w.locate .reading (Workspace.Path.join directory file.1) = .ok place

/-- Files have been written into a directory, each with its name and its text: every place that a
file's path leads to holds the text of the last such file, and all other entries are as they were. -/
structure WroteAll (w : Workspace) (directory : String) (files : List (String × String))
    (w' : Workspace) : Prop where
  grown : Extends w w'
  located : ∀ file ∈ files, ∃ place, LeadsTo w' directory place file
  last : ∀ place file, IsLast (LeadsTo w' directory place) files file →
    w'.entry? place = some (.file file.2.toUTF8)
  others : ∀ place entry, w.entry? place = some entry →
    (∀ file ∈ files, ¬ LeadsTo w' directory place file) → w'.entry? place = some entry

section WroteAll

variable {w w₁ w' : Workspace} {directory : String} {file : String × String}
  {files : List (String × String)}

theorem WroteAll.nil (w : Workspace) (directory : String) : WroteAll w directory [] w where
  grown := .refl w
  located := by simp
  last := by
    rintro place file ⟨before, behind, h, -⟩
    simp at h
  others := fun _ _ hplace _ => hplace

theorem WroteAll.cons {place : RealPath}
    (hfile : Wrote w (Workspace.Path.join directory file.1) file.2 place w₁)
    (h : WroteAll w₁ directory files w') : WroteAll w directory (file :: files) w' := by
  have hleads : LeadsTo w' directory place file := h.grown.locate hfile.located
  refine ⟨hfile.grown.trans h.grown, ?_, ?_, ?_⟩
  · rintro other hother
    rcases List.mem_cons.1 hother with rfl | hother
    · exact ⟨place, hleads⟩
    · exact h.located other hother
  · rintro there last ⟨before, behind, hfiles, hlast, hbehind⟩
    cases before with
    | nil =>
      obtain ⟨rfl, rfl⟩ := List.cons.inj hfiles
      obtain rfl : place = there := Except.ok.inj (hleads.symm.trans hlast)
      exact h.others place _ hfile.content hbehind
    | cons first before =>
      exact h.last there last ⟨before, behind, (List.cons.inj hfiles).2, hlast, hbehind⟩
  · intro there entry hthere hnone
    have hne : there ≠ place := by
      rintro rfl
      exact hnone file List.mem_cons_self hleads
    exact h.others there entry (hfile.others there entry hne hthere) fun other hother =>
      hnone other (List.mem_cons_of_mem file hother)

theorem WroteAll.readText (h : WroteAll w directory files w') (hfile : file ∈ files)
    (hpath : Workspace.Path.join directory file.1 ≠ "") :
    ∃ place last, LeadsTo w' directory place file ∧ IsLast (LeadsTo w' directory place) files last ∧
      w'.readText (Workspace.Path.join directory file.1) = .ok last.2 := by
  classical
  obtain ⟨place, hplace⟩ := h.located file hfile
  obtain ⟨last, hlast⟩ := Session.exists_isLast_iff.2 ⟨file, hfile, hplace⟩
  exact ⟨place, last, hplace, hlast, Workspace.readText_of_file hpath hplace (h.last place last hlast)⟩

end WroteAll

/-- Writes one file into a directory and gives its path. -/
def writeInto (directory : String) (file : String × String) : WriteM String := do
  let path := Workspace.Path.join directory file.1
  writeDocument path file.2
  return path

theorem ensures_writeInto (directory : String) (files : List (String × String)) (w : Workspace) :
    Ensures (files.mapM (writeInto directory)) w
      (fun paths w' => paths = files.map (fun file => Workspace.Path.join directory file.1) ∧
        WroteAll w directory files w')
      (fun _ _ => True) := by
  induction files generalizing w with
  | nil =>
    rw [List.mapM_nil]
    exact ensures_pure ⟨rfl, .nil w directory⟩
  | cons file files ih =>
    rw [List.mapM_cons]
    apply ensures_bind
    apply ensures_bind
    refine (ensures_writeDocument _ file.2 w).mono (fun _ w₁ hfile => ?_) (fun _ _ h => h)
    obtain ⟨place, hfile⟩ := hfile
    apply ensures_pure
    apply ensures_bind
    refine (ih w₁).mono (fun paths w' hfiles => ?_) (fun _ _ h => h)
    obtain ⟨rfl, hfiles⟩ := hfiles
    exact ensures_pure ⟨rfl, .cons hfile hfiles⟩

end ApiDocs
