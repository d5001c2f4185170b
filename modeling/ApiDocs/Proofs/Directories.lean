/-
  ApiDocs.Proofs.Directories

  Directory trees. Every change of a workspace keeps each entry in a directory, under a name that
  paths can spell (`WellFormed`, `wellFormed_of_edits`). In such a workspace the real path of a
  place leads to it (`locate_text`), and a path that leads to a directory also leads, with more
  names behind it, to the directories below (`canonicalize?_below`). These are listed in the
  order of a depth-first walk (`mem_directoriesBelow`, `pairwise_directoriesBelow`).
-/

import ApiDocs.Proofs.Text
import ApiDocs.Proofs.Writing
import Mathlib.Data.List.Induction
import Mathlib.Data.String.Basic
import Mathlib.Logic.Relation

namespace ApiDocs.Workspace

/-! ## Well-formed workspaces -/

/-- A name that paths can spell and a directory can hold. -/
structure IsName (name : String) : Prop where
  plain : isDots name = false
  slashless : '/' ∉ name.toList
  size : name.utf8ByteSize ≤ maxNameBytes

/-- Every entry lies in a directory, under a name that paths can spell. -/
def WellFormed (w : Workspace) : Prop :=
  ∀ place name entry, w.entry? (place ++ [name]) = some entry →
    w.isDirectory place = true ∧ IsName name

theorem entry?_of_ne_nil {w : Workspace} {place : RealPath} (h : place ≠ []) :
    w.entry? place = w.entries[place]? := by
  unfold entry?
  rw [if_neg (by simpa using h)]

instance (name : String) : Decidable (IsName name) :=
  decidable_of_iff (isDots name = false ∧ '/' ∉ name.toList ∧ name.utf8ByteSize ≤ maxNameBytes)
    ⟨fun h => ⟨h.1, h.2.1, h.2.2⟩, fun h => ⟨h.plain, h.slashless, h.size⟩⟩

theorem concat_mem_keys {w : Workspace} {place : RealPath} {name : String} :
    place ++ [name] ∈ w.entries.keys ↔ ∃ entry, w.entry? (place ++ [name]) = some entry := by
  rw [Std.ExtTreeMap.mem_keys, Std.ExtTreeMap.mem_iff_isSome_getElem?, Option.isSome_iff_exists,
    entry?_of_ne_nil (by simp)]

theorem wellFormed_iff {w : Workspace} :
    w.WellFormed ↔ ∀ there ∈ w.entries.keys, ∀ name ∈ there.getLast?,
      w.isDirectory there.dropLast = true ∧ IsName name := by
  constructor
  · intro hw there hthere name hname
    obtain ⟨place, rfl⟩ := List.getLast?_eq_some_iff.1 hname
    obtain ⟨entry, hentry⟩ := concat_mem_keys.1 hthere
    rw [List.dropLast_concat]
    exact hw place name entry hentry
  · intro h place name entry hentry
    have hthere := h _ (concat_mem_keys.2 ⟨entry, hentry⟩) name (by simp)
    rwa [List.dropLast_concat] at hthere

instance (w : Workspace) : Decidable w.WellFormed := decidable_of_iff' _ wellFormed_iff

section Edits

variable {w w' : Workspace} {path : String}

theorem wellFormed_empty : empty.WellFormed := by
  intro place name entry hentry
  rw [entry?_of_ne_nil (by simp), empty] at hentry
  simp at hentry

/-- An entry can be put into a directory, unless it takes the place of one. -/
theorem WellFormed.put (hw : w.WellFormed) {place : RealPath} {name : String} {entry : Entry}
    (hplace : w.isDirectory place = true) (hname : IsName name)
    (hentry : entry = .directory ∨ w.isDirectory (place ++ [name]) = false) :
    (w.put (place ++ [name]) entry).WellFormed := by
  have hput : ∀ other, entry? (w.put (place ++ [name]) entry) other =
      if place ++ [name] = other then some entry else w.entry? other :=
    fun _ => entry?_put (by simp)
  -- directories stay what they are
  have hstays : ∀ above, w.isDirectory above = true →
      (w.put (place ++ [name]) entry).isDirectory above = true := by
    intro above habove
    rw [isDirectory_iff, hput]
    split
    · rename_i heq
      rcases hentry with rfl | hnot
      · rfl
      · rw [heq, habove] at hnot
        cases hnot
    · exact isDirectory_iff.1 habove
  intro above other found hfound
  rw [hput] at hfound
  split at hfound
  · rename_i heq
    obtain ⟨rfl, hlast⟩ := List.append_inj' heq rfl
    obtain rfl := List.cons.inj hlast |>.1
    exact ⟨hstays place hplace, hname⟩
  · obtain ⟨habove, hother⟩ := hw above other found hfound
    exact ⟨hstays above habove, hother⟩

theorem slashless_pieces (path : String) : ∀ name ∈ Text.pieces '/' path, '/' ∉ name.toList := by
  intro name hname
  obtain ⟨piece, hpiece, rfl⟩ := List.mem_map.1 hname
  rw [String.toList_ofList]
  exact Text.not_mem_of_mem_splitOn hpiece

/-- A place that could get an entry lies in a directory, and its last name can be spelled. -/
theorem Walks.in_directory_of_vacant {purpose : Purpose} {links : Nat} {place there : RealPath}
    {names : List String} (h : Walks w purpose links place names (.vacant there))
    (hnames : ∀ name ∈ names, '/' ∉ name.toList) :
    ∃ above name, there = above ++ [name] ∧ w.isDirectory above = true ∧ IsName name := by
  generalize hfound : Target.vacant there = found at h
  induction h with
  | done | link => cases hfound
  | stay _ _ _ ih | up _ _ _ ih | enter _ _ _ _ ih =>
    exact ih (fun name hname => hnames name (List.mem_cons_of_mem _ hname)) hfound
  | vacant hpasses _ _ =>
    cases hfound
    exact ⟨_, _, rfl, hpasses.directory, hpasses.plain, hnames _ List.mem_cons_self, hpasses.size⟩
  | @through _ _ _ target _ _ _ _ _ _ _ ih =>
    refine ih (fun name hname => ?_) hfound
    rcases List.mem_append.1 hname with hname | hname
    · exact slashless_pieces target name hname
    · exact hnames name (List.mem_cons_of_mem _ hname)

theorem WellFormed.put_vacant (hw : w.WellFormed) {purpose : Purpose} {there : RealPath}
    (h : w.target purpose path = .ok (.vacant there)) (entry : Entry) :
    (w.put there entry).WellFormed := by
  have hwalks := (target_eq_ok_iff.1 h).2
  obtain ⟨above, name, rfl, habove, hname⟩ := hwalks.in_directory_of_vacant (slashless_pieces path)
  refine hw.put habove hname (.inr ?_)
  rw [← Bool.not_eq_true, isDirectory_iff, hwalks.entry?_of_vacant]
  simp

theorem WellFormed.createDirectory (hw : w.WellFormed) (h : w.createDirectory path = .ok w') :
    w'.WellFormed := by
  rw [Workspace.createDirectory] at h
  split at h
  · rename_i there htarget
    cases h
    exact hw.put_vacant htarget .directory
  · cases h
  · cases h

theorem WellFormed.writeLink (hw : w.WellFormed) {target : String}
    (h : w.writeLink path target = .ok w') : w'.WellFormed := by
  rw [Workspace.writeLink] at h
  split at h
  · rename_i there htarget
    cases h
    exact hw.put_vacant htarget (.link target)
  · cases h
  · cases h

theorem WellFormed.writeFile (hw : w.WellFormed) {content : ByteArray}
    (h : w.writeFile path content = .ok w') : w'.WellFormed := by
  rw [Workspace.writeFile] at h
  split at h
  · rename_i there htarget
    cases h
    exact hw.put_vacant htarget (.file content)
  · rename_i there htarget
    split at h
    · cases h
    · rename_i hfile
      cases h
      -- a file that is overwritten has its place already
      obtain ⟨entry, hentry, -⟩ :=
        standing_of_target htarget (by simp) there (List.prefix_refl there)
      rcases List.eq_nil_or_concat' there with rfl | ⟨above, name, rfl⟩
      · exact absurd rfl hfile
      · obtain ⟨habove, hname⟩ := hw above name entry hentry
        exact hw.put habove hname (.inr (by simpa using hfile))
  · cases h

theorem WellFormed.createTree (hw : w.WellFormed) {levels : Nat}
    (h : w.createTree path levels = .ok w') : w'.WellFormed :=
  createTree_rule (R := fun w w' => w.WellFormed → w'.WellFormed) (fun _ => id)
    (fun h h' hw => h' (h hw)) (fun h hw => hw.createDirectory h) h hw

/-- With a place, everything below it is removed. -/
theorem WellFormed.remove (hw : w.WellFormed) (h : w.remove path = .ok w') : w'.WellFormed := by
  obtain ⟨gone, -, hw'⟩ := except_bind_eq_ok_iff.1 h
  cases hw'
  intro place name entry hentry
  rw [entry?_of_ne_nil (by simp), Std.ExtTreeMap.getElem?_filter', Option.filter_eq_some_iff] at hentry
  obtain ⟨hentry, hkept⟩ := hentry
  obtain ⟨hplace, hname⟩ := hw place name entry (by rw [entry?_of_ne_nil (by simp), hentry])
  refine ⟨?_, hname⟩
  -- the directory that an entry lies in is not removed if the entry is not
  rw [isDirectory_iff] at hplace ⊢
  by_cases hroot : place = []
  · subst hroot
    rfl
  · rw [entry?_of_ne_nil hroot] at hplace ⊢
    rw [Std.ExtTreeMap.getElem?_filter', hplace, Option.filter_some, if_pos]
    rw [Bool.not_eq_true', ← Bool.not_eq_true, List.isPrefixOf_iff_prefix] at hkept ⊢
    exact fun hgone => hkept (hgone.trans (List.prefix_append place [name]))

/-- One change makes the second workspace of the first. -/
inductive Edited (w w' : Workspace) : Prop where
  | directory (path : String) (h : w.createDirectory path = .ok w')
  | directories (path : String) (h : w.createDirectories path = .ok w')
  | file (path : String) (content : ByteArray) (h : w.writeFile path content = .ok w')
  | link (path target : String) (h : w.writeLink path target = .ok w')
  | removed (path : String) (h : w.remove path = .ok w')

theorem WellFormed.edited (hw : w.WellFormed) (h : Edited w w') : w'.WellFormed := by
  cases h with
  | directory _ h => exact hw.createDirectory h
  | directories _ h => exact hw.createTree h
  | file _ _ h => exact hw.writeFile h
  | link _ _ h => exact hw.writeLink h
  | removed _ h => exact hw.remove h

/-- Whatever is made out of nothing by changes is well-formed. -/
theorem wellFormed_of_edits (h : Relation.ReflTransGen Edited empty w) : w.WellFormed := by
  induction h with
  | refl => exact wellFormed_empty
  | tail _ hedit ih => exact ih.edited hedit

end Edits

/-! ## From place to place -/

section Places

variable {w : Workspace} {place : RealPath}

/-- Whatever lies below a place lies in a directory. -/
theorem WellFormed.isDirectory_above (hw : w.WellFormed) {names : List String} {entry : Entry}
    (hentry : w.entry? (place ++ names) = some entry) (hnames : names ≠ []) :
    w.isDirectory place = true := by
  induction names using List.reverseRecOn generalizing entry with
  | nil => exact absurd rfl hnames
  | append_singleton names name ih =>
    rw [← List.append_assoc] at hentry
    obtain ⟨habove, -⟩ := hw _ _ _ hentry
    by_cases hmore : names = []
    · rwa [hmore, List.append_nil] at habove
    · exact ih (isDirectory_iff.1 habove) hmore

theorem WellFormed.isDirectory_of_append (hw : w.WellFormed) {names : List String}
    (h : w.isDirectory (place ++ names) = true) : w.isDirectory place = true := by
  by_cases hnames : names = []
  · rwa [hnames, List.append_nil] at h
  · exact hw.isDirectory_above (isDirectory_iff.1 h) hnames

/-- On the way to an entry there are names that paths can spell. -/
theorem WellFormed.isName (hw : w.WellFormed) {entry : Entry} (hentry : w.entry? place = some entry) :
    ∀ name ∈ place, IsName name := by
  intro name hname
  obtain ⟨above, below, rfl⟩ := List.append_of_mem hname
  have hnext : ∃ next, w.entry? (above ++ [name]) = some next := by
    rw [← List.singleton_append, ← List.append_assoc] at hentry
    by_cases hbelow : below = []
    · rw [hbelow, List.append_nil] at hentry
      exact ⟨entry, hentry⟩
    · exact ⟨_, isDirectory_iff.1 (hw.isDirectory_above hentry hbelow)⟩
  obtain ⟨next, hnext⟩ := hnext
  exact (hw above name next hnext).2

/-- The names between two places lead from the one to the other, without any links. -/
theorem WellFormed.walks (hw : w.WellFormed) {purpose : Purpose} (hpurpose : purpose ≠ .writing)
    (links : Nat) {names : List String} {entry : Entry}
    (hentry : w.entry? (place ++ names) = some entry) (hlink : ∀ target, entry ≠ .link target) :
    Walks w purpose links place names (.occupied (place ++ names)) := by
  induction names generalizing place with
  | nil =>
    rw [List.append_nil]
    exact .done links place
  | cons name rest ih =>
    rw [← List.singleton_append, ← List.append_assoc] at hentry ⊢
    -- behind the name stands the last entry, or a directory on the way to it
    have hnext : ∃ next, w.entry? (place ++ [name]) = some next ∧ ∀ target, next ≠ .link target := by
      by_cases hrest : rest = []
      · rw [hrest, List.append_nil] at hentry
        exact ⟨entry, hentry, hlink⟩
      · exact ⟨_, isDirectory_iff.1 (hw.isDirectory_above hentry hrest), by simp⟩
    obtain ⟨next, hnext, hpassable⟩ := hnext
    obtain ⟨hplace, hname⟩ := hw place name next hnext
    exact .enter ⟨hplace, hname.plain, by simp [hpurpose], hname.size⟩ hnext hpassable (ih hentry)

/-- Where nothing is to be written, what follows does not matter for passing a name. -/
theorem Passes.with_rest {name : String} {rest : List String} (h : Passes w .reading place name rest)
    (rest' : List String) : Passes w .reading place name rest' :=
  ⟨h.directory, h.plain, by simp, h.size⟩

theorem Walks.append {links : Nat} {names rest : List String} {there : RealPath} {found : Target}
    (h : Walks w .reading links place names (.occupied there))
    (hrest : ∀ links, Walks w .reading links there rest found) :
    Walks w .reading links place (names ++ rest) found := by
  generalize htarget : Target.occupied there = target at h
  induction h with
  | done links place =>
    -- however many links are left, the rest needs none of them
    cases htarget
    exact hrest links
  | stay hdirectory hname _ ih => exact .stay hdirectory hname (ih htarget)
  | up hdirectory hplace _ ih => exact .up hdirectory hplace (ih htarget)
  | vacant => cases htarget
  | enter hpasses hentry hlink _ ih =>
    exact .enter (hpasses.with_rest _) hentry hlink (ih htarget)
  | link _ hpurpose => cases hpurpose
  | through hpasses _ hentry hrelative _ ih =>
    refine .through (hpasses.with_rest _) (by simp) hentry hrelative ?_
    have hwalks := ih htarget
    rwa [List.append_assoc] at hwalks

/-- A walk that arrives comes past whatever its first names lead to. -/
theorem Walks.of_append {links : Nat} {names rest : List String} {there : RealPath}
    (h : Walks w .reading links place (names ++ rest) (.occupied there)) :
    ∃ between, Walks w .reading links place names (.occupied between) := by
  generalize hall : names ++ rest = all at h
  generalize htarget : Target.occupied there = target at h
  induction h generalizing names with
  | done links place =>
    obtain ⟨rfl, -⟩ := List.append_eq_nil_iff.1 hall
    exact ⟨place, .done links place⟩
  | @stay links place name _ _ hdirectory hname _ ih =>
    rcases names with _ | ⟨first, names⟩
    · exact ⟨place, .done links place⟩
    · obtain ⟨rfl, htail⟩ := List.cons.inj hall
      obtain ⟨between, hbetween⟩ := ih htail htarget
      exact ⟨between, .stay hdirectory hname hbetween⟩
  | @up links place _ _ hdirectory hplace _ ih =>
    rcases names with _ | ⟨first, names⟩
    · exact ⟨place, .done links place⟩
    · obtain ⟨rfl, htail⟩ := List.cons.inj hall
      obtain ⟨between, hbetween⟩ := ih htail htarget
      exact ⟨between, .up hdirectory hplace hbetween⟩
  | vacant => cases htarget
  | @enter links place _ _ _ _ hpasses hentry hlink _ ih =>
    rcases names with _ | ⟨first, names⟩
    · exact ⟨place, .done links place⟩
    · obtain ⟨rfl, htail⟩ := List.cons.inj hall
      obtain ⟨between, hbetween⟩ := ih htail htarget
      exact ⟨between, .enter (hpasses.with_rest _) hentry hlink hbetween⟩
  | link _ hpurpose => cases hpurpose
  | @through links place _ target _ _ hpasses _ hentry hrelative _ ih =>
    rcases names with _ | ⟨first, names⟩
    · exact ⟨place, .done _ place⟩
    · obtain ⟨rfl, htail⟩ := List.cons.inj hall
      -- the target of the link comes before the names that are left
      have hsplit : (Text.pieces '/' target ++ names) ++ rest = Text.pieces '/' target ++ _ :=
        (List.append_assoc ..).trans (congrArg _ htail)
      obtain ⟨between, hbetween⟩ := ih hsplit htarget
      exact ⟨between, .through (hpasses.with_rest _) (by simp) hentry hrelative hbetween⟩

end Places

/-! ## Paths with more names behind them -/

namespace Path

/-- The path that names lead to from another one. -/
def below (path : String) (names : List String) : String :=
  "/".intercalate (path :: names)

theorem toList_below (path : String) (names : List String) :
    (below path names).toList = path.toList ++ names.flatMap fun name => '/' :: name.toList := by
  rw [below]
  induction names generalizing path with
  | nil => simp
  | cons name names ih =>
    rw [String.intercalate_cons_of_ne_nil (by simp), String.toList_append, String.toList_append, ih]
    simp

@[simp] theorem below_nil (path : String) : below path [] = path := by
  simp [below]

theorem below_below (path : String) (names more : List String) :
    below (below path names) more = below path (names ++ more) := by
  rw [← String.toList_inj]
  simp only [toList_below, List.flatMap_append, List.append_assoc]

theorem pieces_below (path : String) {names : List String}
    (h : ∀ name ∈ names, '/' ∉ name.toList) :
    Text.pieces '/' (below path names) = Text.pieces '/' path ++ names := by
  induction names using List.reverseRecOn with
  | nil => simp
  | append_singleton names name ih =>
    rw [← below_below, ← List.append_assoc, ← ih fun other hother => h other (by simp [hother])]
    have hlast : '/' ∉ name.toList := h name (by simp)
    unfold Text.pieces
    rw [toList_below]
    simp only [List.flatMap_cons, List.flatMap_nil, List.append_nil]
    rw [Text.splitOn_append_sep hlast]
    simp

theorem isAbsolute_below {path : String} (h : path ≠ "") (names : List String) :
    isAbsolute (below path names) = isAbsolute path := by
  have hne : path.toList ≠ [] := by simpa using h
  unfold isAbsolute
  rw [toList_below, List.head?_append_of_ne_nil _ hne]

theorem below_ne_empty {path : String} (h : path ≠ "") (names : List String) :
    below path names ≠ "" := by
  intro hempty
  have hlist := congrArg String.toList hempty
  rw [toList_below] at hlist
  exact h (by simpa using (List.append_eq_nil_iff.1 hlist).1)

theorem join_ne_empty (root : String) {path : String} (h : path ≠ "") : join root path ≠ "" := by
  have hne : path.toList ≠ [] := by simpa using h
  intro hempty
  have hlist := congrArg String.toList hempty
  rw [join] at hlist
  split at hlist
  · exact hne hlist
  · split at hlist <;> simp [h] at hlist

/-- Joining puts the names in front, whatever stands behind them. -/
theorem join_below (root : String) {path : String} (h : path ≠ "") (names : List String) :
    join root (below path names) = below (join root path) names := by
  rw [join, join, isAbsolute_below h]
  split
  · rfl
  · split
    · rw [← String.toList_inj]
      simp only [toList_below, String.toList_append, List.append_assoc]
    · rw [← String.toList_inj]
      simp only [toList_below, String.toList_append, List.append_assoc]

end Path

section RealPaths

variable {w : Workspace} {place : RealPath} {home : String}

theorem text_cons (home first : String) (rest : List String) :
    RealPath.text home (first :: rest) = Path.below first rest := rfl

theorem text_append (home : String) (hplace : place ≠ []) (names : List String) :
    RealPath.text home (place ++ names) = Path.below (RealPath.text home place) names := by
  cases place with
  | nil => exact absurd rfl hplace
  | cons first rest =>
    rw [List.cons_append, text_cons, text_cons, Path.below_below]

theorem IsName.toList_ne_nil {name : String} (h : IsName name) : name.toList ≠ [] := by
  intro hempty
  obtain rfl : name = "" := by simpa using hempty
  exact absurd h.plain (by decide)

/-- A path ends in its last name. -/
theorem getLast?_below_concat (path : String) (names : List String) {name : String}
    (hname : IsName name) :
    (Path.below path (names ++ [name])).toList.getLast? = name.toList.getLast? := by
  rw [← Path.below_below, Path.toList_below, List.flatMap_singleton, List.append_cons,
    List.getLast?_append_of_ne_nil _ hname.toList_ne_nil]

theorem getLast?_text_concat (home : String) (above : RealPath) {name : String} (hname : IsName name) :
    (RealPath.text home (above ++ [name])).toList.getLast? = name.toList.getLast? := by
  cases above with
  | nil => rw [List.nil_append, text_cons, Path.below_nil]
  | cons first rest => rw [List.cons_append, text_cons, getLast?_below_concat first rest hname]

/-- Going on from a real path by name after name. -/
theorem foldl_join_text (hplace : place ≠ []) {names : List String}
    (hnames : ∀ name ∈ place ++ names, IsName name) :
    names.foldl Path.join (RealPath.text home place) = RealPath.text home (place ++ names) := by
  induction names generalizing place with
  | nil => simp
  | cons name names ih =>
    have hname : IsName name := hnames name (by simp)
    have hstep : Path.join (RealPath.text home place) name = RealPath.text home (place ++ [name]) := by
      obtain ⟨above, last, rfl⟩ := (List.eq_nil_or_concat' place).resolve_left hplace
      have hlast : IsName last := hnames last (by simp)
      have hrelative : Path.isAbsolute name = false := by
        rw [Path.isAbsolute, decide_eq_false_iff_not]
        exact fun h => hname.slashless (List.mem_of_mem_head? h)
      have hbehind : (RealPath.text home (above ++ [last])).toList.getLast? = last.toList.getLast? :=
        getLast?_text_concat home above hlast
      have hnonempty : (RealPath.text home (above ++ [last])).isEmpty = false := by
        rw [← Bool.not_eq_true, String.isEmpty_iff]
        intro hempty
        rw [hempty] at hbehind
        exact hlast.toList_ne_nil (List.getLast?_eq_none_iff.1 hbehind.symm)
      have hslash : (RealPath.text home (above ++ [last])).toList.getLast? ≠ some '/' := by
        rw [hbehind]
        exact fun h => hlast.slashless (List.mem_of_getLast? h)
      rw [Path.join, hrelative, hnonempty, Bool.or_self, if_neg (by simp), if_neg hslash,
        text_append home hplace [name], ← String.toList_inj, Path.toList_below]
      simp
    rw [List.foldl_cons, hstep, ih (by simp) (by simpa using hnames)]
    simp

/-- The real path of a place leads to it. -/
theorem WellFormed.locate_text (hw : w.WellFormed) (home : String) (hplace : place ≠ []) {entry : Entry}
    (hentry : w.entry? place = some entry) (hlink : ∀ target, entry ≠ .link target) :
    w.locate .entry (RealPath.text home place) = .ok place := by
  have hnames := hw.isName hentry
  rw [locate_eq_ok_iff, target_eq_ok_iff]
  cases place with
  | nil => exact absurd rfl hplace
  | cons first rest =>
    have hfirst : IsName first := hnames first (by simp)
    have hpieces : Text.pieces '/' first = [first] := by
      rw [Text.pieces, Text.splitOn_of_not_mem hfirst.slashless]
      simp
    have hrest : ∀ name ∈ rest, '/' ∉ name.toList :=
      fun name hname => (hnames name (by simp [hname])).slashless
    have hne : first ≠ "" := by simpa using hfirst.toList_ne_nil
    rw [text_cons, Path.isAbsolute_below hne, Path.pieces_below first hrest, hpieces]
    refine ⟨?_, hw.walks (by simp) maxLinks hentry hlink⟩
    rw [Path.isAbsolute, decide_eq_false_iff_not]
    exact fun h => hfirst.slashless (List.mem_of_mem_head? h)

theorem canonicalize?_eq_some_iff {path : String} :
    w.canonicalize? path = some place ↔ path ≠ "" ∧ Path.isAbsolute path = false ∧
      Walks w .reading maxLinks [] (Text.pieces '/' path) (.occupied place) := by
  rw [← target_eq_ok_iff, ← locate_eq_ok_iff, canonicalize?]
  by_cases hpath : path = ""
  · simp [hpath]
  · rw [if_neg (by simpa using hpath)]
    cases w.locate .reading path <;> simp [hpath, Except.toOption]

/-- A path that leads to a directory leads on to the directories below it. -/
theorem WellFormed.canonicalize?_below (hw : w.WellFormed) {path : String} {names : List String}
    (h : w.canonicalize? path = some place) (hnames : w.isDirectory (place ++ names) = true) :
    w.canonicalize? (Path.below path names) = some (place ++ names) := by
  rw [canonicalize?_eq_some_iff] at h ⊢
  obtain ⟨hpath, hrelative, hwalks⟩ := h
  have hentry := isDirectory_iff.1 hnames
  have hslashless : ∀ name ∈ names, '/' ∉ name.toList :=
    fun name hname => (hw.isName hentry name (by simp [hname])).slashless
  refine ⟨Path.below_ne_empty hpath names, ?_, ?_⟩
  · rw [Path.isAbsolute_below hpath, hrelative]
  · rw [Path.pieces_below path hslashless]
    exact hwalks.append fun links => hw.walks (by simp) links hentry (by simp)

/-- A path leads somewhere only if it does so without its last names. -/
theorem exists_canonicalize?_of_below {path : String} (hpath : path ≠ "") {names : List String}
    (hnames : ∀ name ∈ names, '/' ∉ name.toList)
    (h : w.canonicalize? (Path.below path names) = some place) :
    ∃ between, w.canonicalize? path = some between := by
  obtain ⟨-, hrelative, hwalks⟩ := canonicalize?_eq_some_iff.1 h
  rw [Path.isAbsolute_below hpath] at hrelative
  rw [Path.pieces_below path hnames] at hwalks
  obtain ⟨between, hbetween⟩ := hwalks.of_append
  exact ⟨between, canonicalize?_eq_some_iff.2 ⟨hpath, hrelative, hbetween⟩⟩

theorem standing_of_canonicalize? {path : String} (h : w.canonicalize? path = some place) :
    w.Standing place :=
  (canonicalize?_eq_some_iff.1 h).2.2.standing (by simp) standing_root

end RealPaths

/-! ## The directories below a place -/

theorem compare_append_left (place names names' : List String) :
    compare (place ++ names) (place ++ names') = compare names names' := by
  rw [List.compare_eq_compareLex]
  induction place with
  | nil => rfl
  | cons name place ih =>
    rw [List.cons_append, List.cons_append, List.compareLex_cons_cons,
      Std.compare_eq_iff_eq.2 (rfl : name = name), ih]
    rfl

theorem lt_of_compare {names names' : List String} (h : compare names names' = .lt) :
    names < names' := by
  rw [List.compare_eq_compareLex] at h
  induction names generalizing names' with
  | nil =>
    cases names' with
    | nil => cases h
    | cons name' names' => exact List.nil_lt_cons name' names'
  | cons name names ih =>
    cases names' with
    | nil => cases h
    | cons name' names' =>
      rw [List.compareLex_cons_cons, Ordering.then_eq_lt] at h
      rw [List.cons_lt_cons_iff]
      rcases h with h | ⟨heq, h⟩
      · exact .inl (compare_lt_iff_lt.1 h)
      · exact .inr ⟨Std.compare_eq_iff_eq.1 heq, ih h⟩

section Below

variable {w : Workspace} {place : RealPath} {names : List String}

/-- The names that lead to a directory from a place above it. -/
def namesFrom? (place : RealPath) : RealPath × Entry → Option (List String)
  | (there, .directory) => (place.isPrefixOf? there).filter (· ≠ [])
  | _ => none

theorem namesFrom?_eq_some_iff {there : RealPath} {entry : Entry} :
    namesFrom? place (there, entry) = some names ↔
      entry = .directory ∧ names ≠ [] ∧ place ++ names = there := by
  cases entry with
  | directory =>
    rw [namesFrom?, Option.filter_eq_some_iff, List.isPrefixOf?_eq_some_iff_append_eq]
    simp [and_comm]
  | file content | link target => simp [namesFrom?]

theorem directoriesBelow_eq (w : Workspace) (place : RealPath) :
    w.directoriesBelow place = w.entries.toList.filterMap (namesFrom? place) := by
  rw [directoriesBelow]
  refine List.filterMap_congr fun entry _ => ?_
  obtain ⟨there, entry⟩ := entry
  cases entry with
  | file content | link target => rfl
  | directory =>
    rw [namesFrom?]
    dsimp only
    rcases place.isPrefixOf? there with _ | _ | ⟨name, names⟩ <;> rfl

theorem mem_directoriesBelow :
    names ∈ w.directoriesBelow place ↔ names ≠ [] ∧ w.isDirectory (place ++ names) = true := by
  rw [directoriesBelow_eq, List.mem_filterMap]
  constructor
  · rintro ⟨⟨there, entry⟩, hmem, hlisted⟩
    obtain ⟨rfl, hnames, rfl⟩ := namesFrom?_eq_some_iff.1 hlisted
    rw [Std.ExtTreeMap.mem_toList_iff_getElem?_eq_some] at hmem
    refine ⟨hnames, isDirectory_iff.2 ?_⟩
    rw [entry?_of_ne_nil (by simp [hnames]), hmem]
  · rintro ⟨hnames, hdirectory⟩
    rw [isDirectory_iff, entry?_of_ne_nil (by simp [hnames])] at hdirectory
    exact ⟨(place ++ names, .directory), Std.ExtTreeMap.mem_toList_iff_getElem?_eq_some.2 hdirectory,
      namesFrom?_eq_some_iff.2 ⟨rfl, hnames, rfl⟩⟩

/-- A directory is listed before what lies in it, and of two that part ways the one with the
smaller name. -/
theorem pairwise_directoriesBelow (w : Workspace) (place : RealPath) :
    (w.directoriesBelow place).Pairwise (· < ·) := by
  rw [directoriesBelow_eq, List.pairwise_filterMap]
  refine Std.ExtTreeMap.ordered_keys_toList.imp ?_
  rintro ⟨there, entry⟩ ⟨there', entry'⟩ hlt names hnames names' hnames'
  obtain ⟨-, -, rfl⟩ := namesFrom?_eq_some_iff.1 hnames
  obtain ⟨-, -, rfl⟩ := namesFrom?_eq_some_iff.1 hnames'
  exact lt_of_compare ((compare_append_left place names names').symm.trans hlt)

end Below

end ApiDocs.Workspace
