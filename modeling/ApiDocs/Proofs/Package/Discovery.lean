/-
  ApiDocs.Proofs.Package.Discovery

  What scanning finds. A root package lies where the first search root that holds it has it
  (`HeldAt`). A directory below gets its name by a search for the root's identifier in its real
  path; if that path ends in the identifier and has it nowhere earlier (`IsRoot`), the name is the
  identifier with the names of the directories behind it (`nameBelow?_text`), and it leads back to
  that directory, since no earlier search root can hold it (`HeldAt.below`). A root that was
  found below another one is not walked; all that lies below it has been found before
  (`found_of_found`). So scanning finds the whole trees of all roots (`scanAll_finds_trees`).
-/

import ApiDocs.Package.Scan
import ApiDocs.Proofs.Directories
import ApiDocs.Proofs.Package.Knowledge
import Mathlib.Data.List.Infix

namespace ApiDocs

open Workspace (RealPath Path.below Path.join)

/-! ## The first root that holds an identifier -/

namespace Session

/-- The first of the search roots below which the identifier leads anywhere has it at this
place. -/
def HeldAt (w : Workspace) (roots : List String) (identifier : String) (place : RealPath) : Prop :=
  ∃ before root after, roots = before ++ root :: after ∧
    w.canonicalize? (Path.join root identifier) = some place ∧
    ∀ other ∈ before, w.canonicalize? (Path.join other identifier) = none

section HeldAt

variable {w : Workspace} {roots : List String} {identifier : String} {place : RealPath}

theorem probe_eq_some_iff :
    (probe w identifier roots).1 = some place ↔ HeldAt w roots identifier place := by
  induction roots with
  | nil => simp [probe, HeldAt]
  | cons root roots ih =>
    rw [probe]
    dsimp only
    cases hroot : w.canonicalize? (Path.join root identifier) with
    | some found =>
      -- the first root decides, whatever the others hold
      constructor
      · intro h
        cases h
        exact ⟨[], root, roots, rfl, hroot, by simp⟩
      · rintro ⟨before, other, after, hsplit, hother, hnone⟩
        cases before with
        | nil =>
          obtain ⟨rfl, rfl⟩ := List.cons.inj hsplit
          exact hroot.symm.trans hother
        | cons first before =>
          obtain ⟨rfl, -⟩ := List.cons.inj hsplit
          cases (hnone root List.mem_cons_self).symm.trans hroot
    | none =>
      refine ih.trans ⟨?_, ?_⟩
      · rintro ⟨before, other, after, rfl, hother, hnone⟩
        exact ⟨root :: before, other, after, rfl, hother, List.forall_mem_cons.2 ⟨hroot, hnone⟩⟩
      · rintro ⟨before, other, after, hsplit, hother, hnone⟩
        cases before with
        | nil =>
          obtain ⟨rfl, rfl⟩ := List.cons.inj hsplit
          cases hother.symm.trans hroot
        | cons first before =>
          obtain ⟨rfl, rfl⟩ := List.cons.inj hsplit
          exact ⟨before, other, after, rfl, hother, (List.forall_mem_cons.1 hnone).2⟩

theorem HeldAt.unique {place' : RealPath} (h : HeldAt w roots identifier place)
    (h' : HeldAt w roots identifier place') : place = place' :=
  Option.some.inj ((probe_eq_some_iff.2 h).symm.trans (probe_eq_some_iff.2 h'))

theorem HeldAt.canonicalized (h : HeldAt w roots identifier place) :
    ∃ path, w.canonicalize? path = some place := by
  obtain ⟨before, root, after, -, hroot, -⟩ := h
  exact ⟨_, hroot⟩

/-- The search root that holds a package holds the directories below it, and none before it does:
a path that leads to one of them would lead to the package. -/
theorem HeldAt.below (hw : w.WellFormed) (h : HeldAt w roots identifier place)
    (hidentifier : identifier ≠ "") {names : List String}
    (hnames : w.isDirectory (place ++ names) = true) :
    HeldAt w roots (Path.below identifier names) (place ++ names) := by
  obtain ⟨before, root, after, rfl, hroot, hnone⟩ := h
  have hslashless : ∀ name ∈ names, '/' ∉ name.toList := fun name hname =>
    (hw.isName (Workspace.isDirectory_iff.1 hnames) name (by simp [hname])).slashless
  refine ⟨before, root, after, rfl, ?_, fun other hother => ?_⟩
  · rw [Workspace.Path.join_below root hidentifier]
    exact hw.canonicalize?_below hroot hnames
  · rw [Workspace.Path.join_below other hidentifier, Option.eq_none_iff_forall_ne_some]
    intro there hthere
    obtain ⟨between, hbetween⟩ := Workspace.exists_canonicalize?_of_below
      (Workspace.Path.join_ne_empty other hidentifier) hslashless hthere
    rw [hnone other hother] at hbetween
    cases hbetween

/-- Where an identifier leads when nothing has been asked for yet. -/
theorem whereIs_of_heldAt {s : Session} (hfresh : s.located = ∅)
    (h : HeldAt w s.roots.order (bareIdentifier identifier) place) :
    s.whereIs w identifier = some (RealPath.text s.home place) := by
  simp [whereIs, hfresh, probe_eq_some_iff.2 h]

end HeldAt

/-! ## Quotation marks -/

section Quotes

variable {identifier : String} (hlast : identifier.toList.getLast? ≠ some '"')
include hlast

/-- Of an identifier that does not end in one, only leading quotation marks are dropped. -/
theorem toList_bareIdentifier :
    (bareIdentifier identifier).toList = identifier.toList.dropWhile fun c => c = '"' := by
  rw [bareIdentifier]
  dsimp only
  rw [String.toList_ofList]
  have hsuffix := List.dropWhile_suffix (l := identifier.toList) fun c => decide (c = '"')
  rcases List.eq_nil_or_concat' (identifier.toList.dropWhile fun c => c = '"') with hnil | ⟨front, c, hc⟩
  · rw [hnil]
    rfl
  · have hother : c ≠ '"' := by
      rintro rfl
      obtain ⟨quotes, hquotes⟩ := hsuffix
      rw [← hquotes, hc] at hlast
      simp at hlast
    rw [hc, List.reverse_append, List.reverse_singleton, List.singleton_append,
      List.dropWhile_cons_of_neg (by simpa using hother)]
    simp

theorem dropWhile_quotes_ne_nil (hidentifier : identifier ≠ "") :
    (identifier.toList.dropWhile fun c => c = '"') ≠ [] := by
  intro hnil
  rw [List.dropWhile_eq_nil_iff] at hnil
  have hne : identifier.toList ≠ [] := by simpa using hidentifier
  have hquote := hnil _ (List.getLast_mem hne)
  rw [List.getLast?_eq_some_getLast hne] at hlast
  exact hlast (congrArg some (by simpa using hquote))

theorem bareIdentifier_ne_empty (hidentifier : identifier ≠ "") : bareIdentifier identifier ≠ "" := by
  intro hempty
  have hlist := toList_bareIdentifier hlast
  rw [hempty] at hlist
  exact dropWhile_quotes_ne_nil hlast hidentifier hlist.symm

theorem bareIdentifier_below (hidentifier : identifier ≠ "") {names : List String}
    (hnames : (Path.below identifier names).toList.getLast? ≠ some '"') :
    bareIdentifier (Path.below identifier names) = Path.below (bareIdentifier identifier) names := by
  have hne := dropWhile_quotes_ne_nil hlast hidentifier
  rw [← String.toList_inj, toList_bareIdentifier hnames, Workspace.Path.toList_below,
    Workspace.Path.toList_below, toList_bareIdentifier hlast, List.dropWhile_append,
    if_neg (by simpa using hne)]

end Quotes
end Session

/-! ## Names of directories -/

/-- The first occurrence of a pattern that a text ends in and has nowhere earlier. -/
theorem Text.suffixFrom?_append {pattern : List Char} (front rest : List Char)
    (honce : ∀ before after, front ++ pattern = before ++ pattern ++ after → after = []) :
    suffixFrom? pattern (front ++ pattern ++ rest) = some (pattern ++ rest) := by
  induction front with
  | nil =>
    rw [List.nil_append]
    cases hall : pattern ++ rest with
    | nil => simp [suffixFrom?, (List.append_eq_nil_iff.1 hall).1]
    | cons c cs =>
      rw [suffixFrom?, if_pos]
      rw [List.isPrefixOf_iff_prefix, ← hall]
      exact List.prefix_append pattern rest
  | cons c front ih =>
    rw [List.cons_append, List.cons_append, suffixFrom?, if_neg]
    · refine ih fun before after h => honce (c :: before) after ?_
      rw [List.cons_append, h]
      rfl
    · -- an occurrence at the start would not be at the end
      rw [List.isPrefixOf_iff_prefix]
      intro hstart
      have hshort : pattern <+: c :: (front ++ pattern) :=
        List.prefix_of_prefix_length_le hstart
          (List.prefix_append (c :: (front ++ pattern)) rest) (by simp; omega)
      obtain ⟨after, hafter⟩ := hshort
      have hnil := honce [] after (by simpa using hafter.symm)
      rw [hnil, List.append_nil] at hafter
      have hlength := congrArg List.length hafter
      simp at hlength
      omega

namespace Scan

/-- The root package lies at the place, inside the workspace. The real path of the place ends in
the root's identifier and has it nowhere earlier. -/
structure IsRoot (w : Workspace) (s : Session) (root : String) (place : RealPath) : Prop where
  held : Session.HeldAt w s.roots.order (Session.bareIdentifier root) place
  inside : place ≠ []
  ends : root.toList <:+ (RealPath.text s.home place).toList
  once : ∀ before after, (RealPath.text s.home place).toList = before ++ root.toList ++ after →
    after = []

/-- No directory has a name that ends in a quotation mark. -/
def Unquoted (w : Workspace) : Prop :=
  ∀ place name, w.isDirectory (place ++ [name]) = true → name.toList.getLast? ≠ some '"'

theorem unquoted_iff {w : Workspace} :
    Unquoted w ↔ ∀ there ∈ w.entries.keys, ∀ name ∈ there.getLast?,
      w.isDirectory there = true → name.toList.getLast? ≠ some '"' := by
  constructor
  · intro hquotes there _ name hname hdirectory
    obtain ⟨place, rfl⟩ := List.getLast?_eq_some_iff.1 hname
    exact hquotes place name hdirectory
  · intro h place name hdirectory
    have hthere := Workspace.concat_mem_keys.2 ⟨_, Workspace.isDirectory_iff.1 hdirectory⟩
    exact h _ hthere name (by simp) hdirectory

instance (w : Workspace) : Decidable (Unquoted w) := decidable_of_iff' _ unquoted_iff

/-- The directories below a place, in the order of a depth-first walk with the names of each
directory sorted: one comes before what lies in it, and of two that part ways the one with the
smaller name comes first. Only frozen dependencies right below the place are left out. -/
structure IsTree (w : Workspace) (place : RealPath) (tree : List (List String)) : Prop where
  ordered : tree.Pairwise (· < ·)
  mem_iff : ∀ names, names ∈ tree ↔ names ≠ [] ∧ w.isDirectory (place ++ names) = true ∧
    ¬ [frozenDirectory] <+: names

/-- The tree that is walked. -/
def walked (w : Workspace) (place : RealPath) : List (List String) :=
  (w.directoriesBelow place).filter fun names => names.head? ≠ some frozenDirectory

theorem isTree_walked (w : Workspace) (place : RealPath) : IsTree w place (walked w place) where
  ordered := (w.pairwise_directoriesBelow place).filter _
  mem_iff names := by
    rw [walked, List.mem_filter, Workspace.mem_directoriesBelow, and_assoc]
    cases names with
    | nil => simp
    | cons name names =>
      have hhead : some name = some frozenDirectory ↔ [frozenDirectory] <+: name :: names := by
        rw [Option.some.injEq, List.cons_prefix_cons, and_iff_left List.nil_prefix, eq_comm]
      rw [decide_eq_true_eq, List.head?_cons, ← hhead]

section Root

variable {w : Workspace} {s : Session} {root : String} {place : RealPath}

theorem IsRoot.exists_entry (h : IsRoot w s root place) :
    ∃ entry, w.entry? place = some entry ∧ ∀ target, entry ≠ .link target := by
  obtain ⟨path, hpath⟩ := h.held.canonicalized
  exact Workspace.standing_of_canonicalize? hpath place (List.prefix_refl place)

theorem IsRoot.ne_empty (hw : w.WellFormed) (h : IsRoot w s root place) : root ≠ "" := by
  rintro rfl
  -- the empty text occurs everywhere, also in front
  have hempty : (RealPath.text s.home place).toList = [] := h.once [] _ (by simp)
  obtain ⟨entry, hentry, -⟩ := h.exists_entry
  obtain ⟨above, name, rfl⟩ := (List.eq_nil_or_concat' place).resolve_left h.inside
  have hname := hw.isName hentry name (by simp)
  have hlast := Workspace.getLast?_text_concat s.home above hname
  rw [hempty] at hlast
  exact hname.toList_ne_nil (List.getLast?_eq_none_iff.1 hlast.symm)

/-- The directory below a root gets its name from the root's identifier on. -/
theorem nameBelow?_text (h : IsRoot w s root place) (names : List String) :
    nameBelow? root (RealPath.text s.home (place ++ names)) = some (Path.below root names) := by
  obtain ⟨front, hfront⟩ := h.ends
  have honce : ∀ before after, front ++ root.toList = before ++ root.toList ++ after → after = [] := by
    rw [hfront]
    exact h.once
  rw [nameBelow?, Workspace.text_append s.home h.inside, Workspace.Path.toList_below, ← hfront,
    Text.suffixFrom?_append front _ honce, Option.map_some, ← Workspace.Path.toList_below,
    String.ofList_toList]

/-- The names of directories below a root lead to them. -/
theorem IsRoot.heldAt_below (hw : w.WellFormed) (hquotes : Unquoted w) (h : IsRoot w s root place)
    {names : List String} (hnames : w.isDirectory (place ++ names) = true) :
    Session.HeldAt w s.roots.order (Session.bareIdentifier (Path.below root names)) (place ++ names) := by
  have hname : ∀ name ∈ place ++ names, Workspace.IsName name :=
    hw.isName (Workspace.isDirectory_iff.1 hnames)
  have hroot := h.ne_empty hw
  -- the last character of the root is that of a directory's name
  have hlast : root.toList.getLast? ≠ some '"' := by
    obtain ⟨front, hfront⟩ := h.ends
    obtain ⟨above, name, rfl⟩ := (List.eq_nil_or_concat' place).resolve_left h.inside
    have hname' : Workspace.IsName name := hname name (by simp)
    have htext := Workspace.getLast?_text_concat s.home above hname'
    rw [← hfront, List.getLast?_append_of_ne_nil _ (by simpa using hroot)] at htext
    rw [htext]
    exact hquotes above name (hw.isDirectory_of_append hnames)
  have hlast' : (Path.below root names).toList.getLast? ≠ some '"' := by
    rcases List.eq_nil_or_concat' names with rfl | ⟨above, name, rfl⟩
    · rwa [Workspace.Path.below_nil]
    · rw [Workspace.getLast?_below_concat root above (hname name (by simp))]
      exact hquotes (place ++ above) name (by rwa [List.append_assoc])
  rw [Session.bareIdentifier_below hlast hroot hlast']
  exact h.held.below hw (Session.bareIdentifier_ne_empty hlast hroot) hnames

theorem isDirectory_of_mem_walked (hw : w.WellFormed) {names : List String}
    (hnames : names ∈ walked w place) : w.isDirectory place = true :=
  hw.isDirectory_of_append ((isTree_walked w place).mem_iff names |>.1 hnames).2.1

/-- The real paths that are walked for a root. -/
theorem directories_text (hw : w.WellFormed) (h : IsRoot w s root place) :
    directories w (RealPath.text s.home place) =
      .ok ((if w.isDirectory place = true then [RealPath.text s.home place] else []) ++
        (walked w place).map fun names => RealPath.text s.home (place ++ names)) := by
  obtain ⟨entry, hentry, hlink⟩ := h.exists_entry
  rw [directories, hw.locate_text s.home h.inside hentry hlink, except_ok_bind, hentry]
  cases entry with
  | link target => exact absurd rfl (hlink target)
  | file content =>
    have hfile : w.isDirectory place = false := by
      rw [← Bool.not_eq_true, Workspace.isDirectory_iff, hentry]
      simp
    have hnone : walked w place = [] := by
      rw [List.eq_nil_iff_forall_not_mem]
      intro names hnames
      rw [isDirectory_of_mem_walked hw hnames] at hfile
      cases hfile
    rw [hfile, hnone]
    rfl
  | directory =>
    rw [if_pos (Workspace.isDirectory_iff.2 hentry)]
    refine congrArg (fun paths => Except.ok (_ :: paths)) (List.map_congr_left fun names hnames => ?_)
    have hbelow := ((isTree_walked w place).mem_iff names).1 hnames
    exact Workspace.foldl_join_text h.inside (hw.isName (Workspace.isDirectory_iff.1 hbelow.2.1))

end Root

/-! ## Packages in the order in which they are first seen -/

section Seen

variable {seen more packages : List String} {package : String}

theorem eraseDups_concat (seen : List String) (package : String) :
    (seen ++ [package]).eraseDups =
      if package ∈ seen then seen.eraseDups else seen.eraseDups ++ [package] := by
  rw [List.eraseDups_append]
  by_cases h : package ∈ seen
  · simp [h, List.removeAll]
  · simp [h, List.removeAll, List.eraseDups_cons]

/-- What was seen before is not listed again. -/
theorem eraseDups_append_of_subset (h : more ⊆ seen) : (seen ++ more).eraseDups = seen.eraseDups := by
  have hnone : more.removeAll seen = [] := by
    rw [List.removeAll, List.filter_eq_nil_iff]
    intro package hpackage
    simpa using h hpackage
  rw [List.eraseDups_append, hnone, List.eraseDups_nil, List.append_nil]

theorem eraseDups_append_congr {seen' : List String} (h : seen.eraseDups = seen'.eraseDups)
    (more : List String) : (seen ++ more).eraseDups = (seen' ++ more).eraseDups := by
  have hmem : ∀ package, package ∈ seen ↔ package ∈ seen' := by
    intro package
    rw [← List.mem_eraseDups, h, List.mem_eraseDups]
  have hrest : more.removeAll seen = more.removeAll seen' :=
    List.filter_congr fun package _ => by simp [hmem]
  rw [List.eraseDups_append, List.eraseDups_append, h, hrest]

theorem nodup_eraseDups (packages : List String) : packages.eraseDups.Nodup := by
  induction packages using List.reverseRecOn with
  | nil => exact List.nodup_nil
  | append_singleton seen package ih =>
    rw [eraseDups_concat]
    split
    · exact ih
    · rename_i hnew
      rw [← List.mem_eraseDups] at hnew
      refine List.nodup_append.2 ⟨ih, by simp, fun other hother last hlast => ?_⟩
      rw [List.mem_singleton.1 hlast]
      exact fun heq => hnew (heq ▸ hother)

theorem addPackage_apply {s : Scan} (hs : s.packages = seen.eraseDups) (package : String) :
    addPackage package s = .ok ⟨⟩ { s with packages := (seen ++ [package]).eraseDups } := by
  rw [addPackage, modify_apply, eraseDups_concat, ← hs]
  have hmem : s.packages.contains package = true ↔ package ∈ seen := by
    rw [List.contains_iff_mem, hs, List.mem_eraseDups]
  by_cases h : package ∈ seen
  · rw [if_pos (hmem.2 h), if_pos h]
  · rw [if_neg (mt hmem.1 h), if_neg h]

theorem forM_addPackage {s : Scan} (hs : s.packages = seen.eraseDups) (packages : List String) :
    packages.forM addPackage s = .ok ⟨⟩ { s with packages := (seen ++ packages).eraseDups } := by
  induction packages generalizing seen s with
  | nil =>
    rw [List.append_nil, ← hs]
    rfl
  | cons package packages ih =>
    show (addPackage package >>= fun _ => packages.forM addPackage) s = _
    rw [bind_apply, addPackage_apply hs]
    dsimp only
    rw [ih rfl, List.append_assoc]
    rfl

end Seen

/-! ## Roots, one after the other -/

/-- What lies below a root: the root and the directories of its tree, by their names. -/
def found (w : Workspace) (root : String) (place : RealPath) : List String :=
  root :: (walked w place).map (Path.below root)

section Roots

variable {w : Workspace} {s : Session} {placeOf : String → RealPath} {root : String}
  {done : List String} {scan : Scan}

theorem mem_found {place : RealPath} {package : String} :
    package ∈ found w root place ↔
      ∃ names, (names = [] ∨ names ∈ walked w place) ∧ Path.below root names = package := by
  rw [found, List.mem_cons, List.mem_map]
  constructor
  · rintro (rfl | ⟨names, hnames, hpackage⟩)
    · exact ⟨[], .inl rfl, Workspace.Path.below_nil package⟩
    · exact ⟨names, .inr hnames, hpackage⟩
  · rintro ⟨names, rfl | hnames, rfl⟩
    · exact .inl (Workspace.Path.below_nil root)
    · exact .inr ⟨names, hnames, rfl⟩

/-- What lies below a root that lies below another one was found below that one. -/
theorem found_of_found (hw : w.WellFormed) (hquotes : Unquoted w) {other : String}
    {place place' : RealPath} (h : IsRoot w s root place) (h' : IsRoot w s other place')
    (hroot : root ∈ found w other place') : found w root place ⊆ found w other place' := by
  obtain ⟨above, habove, rfl⟩ := mem_found.1 hroot
  rcases habove with rfl | habove
  · rw [Workspace.Path.below_nil] at h ⊢
    rw [h.held.unique h'.held]
    exact List.Subset.refl _
  have hmem := ((isTree_walked w place').mem_iff above).1 habove
  -- the root lies where it was found
  obtain rfl : place = place' ++ above := h.held.unique (h'.heldAt_below hw hquotes hmem.2.1)
  intro package hpackage
  obtain ⟨names, hnames, rfl⟩ := mem_found.1 hpackage
  rw [Workspace.Path.below_below]
  refine mem_found.2 ⟨above ++ names, .inr ?_, rfl⟩
  rcases hnames with rfl | hnames
  · rwa [List.append_nil]
  · have hbelow := ((isTree_walked w (place' ++ above)).mem_iff names).1 hnames
    refine ((isTree_walked w place').mem_iff _).2 ⟨by simp [hmem.1], ?_, ?_⟩
    · rw [← List.append_assoc]
      exact hbelow.2.1
    · -- frozen dependencies of the inner root are left out there only
      obtain ⟨name, rest, rfl⟩ := List.exists_cons_of_ne_nil hmem.1
      have hkept := hmem.2.2
      rw [List.cons_prefix_cons] at hkept
      rw [List.cons_append, List.cons_prefix_cons]
      exact fun hfrozen => hkept ⟨hfrozen.1, List.nil_prefix⟩

/-- The scan so far: all that lies below the roots that are done, without any warning, and
packages lead where they led before. -/
structure Scanned (w : Workspace) (s : Session) (placeOf : String → RealPath) (done : List String)
    (scan : Scan) : Prop where
  packages : scan.packages = (done.flatMap fun root => found w root (placeOf root)).eraseDups
  warnings : scan.warnings = []
  whereIs : ∀ identifier, scan.session.whereIs w identifier = s.whereIs w identifier

theorem scanRoot_of_seen (hseen : root ∈ scan.packages) : scanRoot w root scan = .ok ⟨⟩ scan := by
  have hc : scan.packages.contains root = true := List.contains_iff_mem.2 hseen
  simp only [scanRoot, bind_apply, get_apply]
  rw [if_pos hc]
  rfl

/-- A root that was not met before is walked. -/
theorem scanRoot_of_new (hw : w.WellFormed) {place : RealPath} (h : IsRoot w s root place)
    (hwhere : scan.session.whereIs w root = some (RealPath.text s.home place)) {seen : List String}
    (hseen : scan.packages = seen.eraseDups) (hnew : root ∉ seen) :
    scanRoot w root scan =
      .ok ⟨⟩ { scan with
        session := scan.session.learn w root
        packages := (seen ++ found w root place).eraseDups } := by
  have hc : ¬ scan.packages.contains root = true := by
    rwa [List.contains_iff_mem, hseen, List.mem_eraseDups]
  have hlocate : Session.locate w root scan.session =
      .ok (RealPath.text s.home place) (scan.session.learn w root) := by
    rw [Session.locate_eq, hwhere]
    rfl
  have hnames : ((if w.isDirectory place = true then [RealPath.text s.home place] else []) ++
        (walked w place).map fun names => RealPath.text s.home (place ++ names)).filterMap
          (nameBelow? root) =
      (if w.isDirectory place = true then [root] else []) ++ (walked w place).map (Path.below root) := by
    have hself := nameBelow?_text h []
    rw [List.append_nil, Workspace.Path.below_nil] at hself
    rw [List.filterMap_append, List.filterMap_map]
    congr 1
    · split <;> simp [hself]
    · rw [← List.filterMap_eq_map]
      exact List.filterMap_congr fun names _ => nameBelow?_text h names
  -- the root itself is met again at the start of the walk
  have hagain : (if w.isDirectory place = true then [root] else []) ⊆ seen ++ [root] := by
    split <;> simp
  simp only [scanRoot, bind_apply, get_apply]
  rw [if_neg hc]
  simp only [bind_apply, addPackage_apply hseen, ask, Session.within, hlocate,
    directories_text hw h, hnames]
  rw [forM_addPackage rfl, ← List.append_assoc,
    eraseDups_append_congr (eraseDups_append_of_subset hagain)]
  simp only [found, List.append_assoc, List.singleton_append]

/-- One more root. If it was found below another one, nothing is left to be found. -/
theorem Scanned.scanRoot (hw : w.WellFormed) (hquotes : Unquoted w) (hfresh : s.located = ∅)
    (h : Scanned w s placeOf done scan) (hdone : ∀ other ∈ done, IsRoot w s other (placeOf other))
    (hroot : IsRoot w s root (placeOf root)) :
    ∃ scan', scanRoot w root scan = .ok ⟨⟩ scan' ∧ Scanned w s placeOf (done ++ [root]) scan' := by
  have hmore : (done ++ [root]).flatMap (fun root => found w root (placeOf root)) =
      (done.flatMap fun root => found w root (placeOf root)) ++ found w root (placeOf root) := by
    rw [List.flatMap_append, List.flatMap_singleton]
  by_cases hseen : root ∈ done.flatMap fun root => found w root (placeOf root)
  · -- the root is not walked, and need not be
    refine ⟨scan, scanRoot_of_seen ?_, ?_, h.warnings, h.whereIs⟩
    · rw [h.packages, List.mem_eraseDups]
      exact hseen
    · obtain ⟨other, hother, hbelow⟩ := List.mem_flatMap.1 hseen
      rw [hmore, eraseDups_append_of_subset, h.packages]
      intro package hpackage
      exact List.mem_flatMap.2 ⟨other, hother,
        found_of_found hw hquotes hroot (hdone other hother) hbelow hpackage⟩
  · have hwhere : scan.session.whereIs w root = some (RealPath.text s.home (placeOf root)) :=
      (h.whereIs root).trans (Session.whereIs_of_heldAt hfresh hroot.held)
    refine ⟨_, scanRoot_of_new hw hroot hwhere h.packages hseen, ?_, h.warnings, fun identifier => ?_⟩
    · rw [hmore]
    · rw [Session.whereIs_learn, h.whereIs]

theorem Scanned.scanAll (hw : w.WellFormed) (hquotes : Unquoted w) (hfresh : s.located = ∅)
    (h : Scanned w s placeOf done scan) (roots : List String)
    (hroots : ∀ root ∈ done ++ roots, IsRoot w s root (placeOf root)) :
    ∃ scan', scanAll w roots scan = .ok ⟨⟩ scan' ∧ Scanned w s placeOf (done ++ roots) scan' := by
  induction roots generalizing done scan with
  | nil =>
    rw [List.append_nil]
    exact ⟨scan, rfl, h⟩
  | cons root roots ih =>
    obtain ⟨scan₁, hscan₁, h₁⟩ := h.scanRoot hw hquotes hfresh
      (fun other hother => hroots other (by simp [hother])) (hroots root (by simp))
    rw [List.append_cons] at hroots ⊢
    obtain ⟨scan₂, hscan₂, h₂⟩ := ih h₁ hroots
    refine ⟨scan₂, ?_, h₂⟩
    show (Scan.scanRoot w root >>= fun _ => Scan.scanAll w roots) scan = _
    rw [bind_apply, hscan₁]
    exact hscan₂

end Roots

/-- **Scanning finds exactly the directory trees of its roots, under names that lead back to
them.** Let each root lie, in a workspace that stays as it is, at a place whose real path ends in
its identifier and has it nowhere earlier, and let no directory have a name that ends in a
quotation mark. Then a scan that starts without any known answers succeeds without warnings. In
the order in which they are first seen, and each only once, it lists each root and the
directories of its tree, however the roots overlap; and whichever way a listed name comes
about, it leads to the directory that it stands for, whichever search root that lies in. -/
theorem scanAll_finds_trees (w : Workspace) (hw : w.WellFormed) (hquotes : Unquoted w) (s : Session)
    (hfresh : s.located = ∅) (roots : List String) (placeOf : String → RealPath)
    (hroots : ∀ root ∈ roots, IsRoot w s root (placeOf root)) :
    ∃ (t : Scan) (treeOf : String → List (List String)),
      scanAll w roots { session := s } = .ok ⟨⟩ t ∧ t.warnings = [] ∧
      (∀ root ∈ roots, IsTree w (placeOf root) (treeOf root)) ∧
      t.packages =
        (roots.flatMap fun root => root :: (treeOf root).map (Path.below root)).eraseDups ∧
      t.packages.Nodup ∧
      ∀ root ∈ roots, ∀ names ∈ [] :: treeOf root,
        result? (Session.resolve w (Path.below root names) t.session) =
          some (some (RealPath.text s.home (placeOf root ++ names))) := by
  have hstart : Scanned w s placeOf [] { session := s } := ⟨rfl, rfl, fun _ => rfl⟩
  obtain ⟨t, hscan, ht⟩ := hstart.scanAll hw hquotes hfresh roots hroots
  refine ⟨t, fun root => walked w (placeOf root), hscan, ht.warnings,
    fun root _ => isTree_walked w (placeOf root), ht.packages, ?_, fun root hroot names hnames => ?_⟩
  · rw [ht.packages]
    exact nodup_eraseDups _
  · have hheld : Session.HeldAt w s.roots.order (Session.bareIdentifier (Path.below root names))
        (placeOf root ++ names) := by
      -- the root is held by assumption, and what lies below it by the same search root
      rcases List.mem_cons.1 hnames with rfl | hnames
      · rw [Workspace.Path.below_nil, List.append_nil]
        exact (hroots root hroot).held
      · exact (hroots root hroot).heldAt_below hw hquotes
          (((isTree_walked w (placeOf root)).mem_iff names).1 hnames).2.1
    rw [Session.resolve_eq, ht.whereIs, Session.whereIs_of_heldAt hfresh hheld]
    rfl

/-- Two search roots, of which the second one holds a shop with frozen dependencies at two
levels. -/
def twoRoots : Workspace :=
  [["one"], ["one", "lib"], ["two"], ["two", "shop"], ["two", "shop", "Godeps"],
    ["two", "shop", "Godeps", "old"], ["two", "shop", "web"], ["two", "shop", "web", "Godeps"],
    ["two", "shop", "web", "Godeps", "old"]].foldl (fun w place => w.put place .directory) .empty

/-- The frozen dependencies of the inner root are found below the outer one, and lead to where
they lie; those of the outer root are not found at all. -/
theorem scanAll_finds_trees_twoRoots :
    let s : Session := { roots := ⟨["one", "two"], none⟩ }
    let roots := ["shop/web", "shop", "shop/web", "lib"]
    let placeOf := fun root => (if root = "lib" then "one" else "two") :: Text.pieces '/' root
    twoRoots.WellFormed ∧ Unquoted twoRoots ∧ s.located = ∅ ∧
    (∀ root ∈ roots, IsRoot twoRoots s root (placeOf root)) ∧
    ∃ t, scanAll twoRoots roots { session := s } = .ok ⟨⟩ t ∧ t.warnings = [] ∧
      t.packages = ["shop/web", "shop", "shop/web/Godeps", "shop/web/Godeps/old", "lib"] ∧
      result? (Session.resolve twoRoots "shop/web/Godeps/old" t.session) =
        some (some "two/shop/web/Godeps/old") := by
  intro s roots placeOf
  have hw : twoRoots.WellFormed := by decide +kernel
  have hquotes : Unquoted twoRoots := by decide +kernel
  have hheld : ∀ root ∈ roots, (Session.probe twoRoots (Session.bareIdentifier root)
      s.roots.order).1 = some (placeOf root) := by
    decide +kernel
  have hends : ∀ root ∈ roots,
      root.toList.isSuffixOf (RealPath.text s.home (placeOf root)).toList = true := by
    decide +kernel
  have honce : ∀ root ∈ roots, ∀ rest ∈ (RealPath.text s.home (placeOf root)).toList.tails,
      root.toList.isPrefixOf rest = true → rest = root.toList := by
    decide +kernel
  have hroots : ∀ root ∈ roots, IsRoot twoRoots s root (placeOf root) := by
    refine fun root hroot => ⟨Session.probe_eq_some_iff.1 (hheld root hroot), by simp [placeOf],
      List.isSuffixOf_iff_suffix.1 (hends root hroot), fun before after h => ?_⟩
    rw [List.append_assoc] at h
    have hrest := honce root hroot (root.toList ++ after) ((List.mem_tails _ _).2 ⟨before, h.symm⟩)
      (List.isPrefixOf_iff_prefix.2 (List.prefix_append root.toList after))
    simpa using hrest
  obtain ⟨t, treeOf, hscan, hwarnings, htrees, -, -, hresolved⟩ :=
    scanAll_finds_trees twoRoots hw hquotes s rfl roots placeOf hroots
  have hpackages : (finalState (scanAll twoRoots roots { session := s })).packages =
      ["shop/web", "shop", "shop/web/Godeps", "shop/web/Godeps/old", "lib"] := by
    decide +kernel
  rw [hscan, finalState_ok] at hpackages
  have hold : ["web", "Godeps", "old"] ∈ treeOf "shop" := by
    rw [(htrees "shop" (by decide)).mem_iff]
    decide +kernel
  have hplace := hresolved "shop" (by decide) _ (List.mem_cons_of_mem _ hold)
  exact ⟨hw, hquotes, rfl, hroots, t, hscan, hwarnings, hpackages, hplace⟩

end Scan
end ApiDocs
