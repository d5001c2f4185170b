/-
  ApiDocs.Proofs.DocumentFiles

  The files of a documentation. Their names stand for entries of the output directory
  (`locate_join`), so their paths are distinct exactly if their stems are. Stems need not be: the
  listing has the stem of the resource `index`, and resources that differ in slashes, backslashes
  or pairs of points can share one. Then the last document written is the one that stays
  (`writeDocuments_last_write`).
-/

import ApiDocs.Proofs.Dict
import ApiDocs.Proofs.Directories
import Mathlib.Data.List.Nodup

namespace ApiDocs

open Workspace (RealPath Walks Passes isDots)
open Session (IsLast)

/-! ## Stems -/

theorem not_mem_resourceStem {c : Char} (hc : c = '/' ∨ c = '\\') (resource : String) :
    c ∉ (resourceStem resource).toList := by
  unfold resourceStem
  split
  · rcases hc with rfl | rfl <;> decide
  · rw [String.toList_ofList]
    intro h
    rcases Text.mem_or_mem_of_mem_replacePair h with h | h
    · rcases hc with rfl | rfl <;> exact absurd h (by decide)
    · obtain ⟨d, -, hd⟩ := List.mem_map.1 h
      split at hd
      · rcases hc with rfl | rfl <;> exact absurd hd (by decide)
      · rename_i hslash
        simp [hd, hc] at hslash

theorem slash_not_mem_resourceStem (resource : String) : '/' ∉ (resourceStem resource).toList :=
  not_mem_resourceStem (.inl rfl) resource

/-- Whatever is replaced in the name of a resource leaves an underscore. -/
theorem resourceStem_eq_self {resource : String} (h : '_' ∉ (resourceStem resource).toList) :
    resourceStem resource = resource := by
  unfold resourceStem at h ⊢
  split at h
  · exact absurd h (by decide)
  rename_i hne
  rw [if_neg hne]
  dsimp only
  rw [String.toList_ofList] at h
  have hpairs := Text.replacePair_eq_self (by decide) h
  rw [hpairs] at h
  rw [← String.toList_inj, String.toList_ofList, hpairs]
  refine (List.map_congr_left fun c hc => ?_).trans (List.map_id' _)
  split
  · rename_i hslash
    exact (h (List.mem_map.2 ⟨c, hc, by rw [if_pos hslash]⟩)).elim
  · rfl

theorem resourceStem_eq_listingStem_iff {resource : String} :
    resourceStem resource = listingStem ↔ resource = listingStem := by
  constructor
  · intro h
    have hplain : '_' ∉ (resourceStem resource).toList := by
      rw [h]
      decide
    exact (resourceStem_eq_self hplain).symm.trans h
  · rintro rfl
    decide

/-- The stems of the files, the listing's first. -/
def stems (docs : Swagger.Documentation) : List String :=
  listingStem :: docs.resources.keys.map resourceStem

theorem slash_not_mem_stems {docs : Swagger.Documentation} {stem : String} (h : stem ∈ stems docs) :
    '/' ∉ stem.toList := by
  rcases List.mem_cons.1 h with rfl | h
  · decide
  · obtain ⟨resource, -, rfl⟩ := List.mem_map.1 h
    exact slash_not_mem_resourceStem resource

theorem nodup_stems_iff {docs : Swagger.Documentation} :
    (stems docs).Nodup ↔ listingStem ∉ docs.resources ∧
      ∀ resource ∈ docs.resources, ∀ resource' ∈ docs.resources,
        resourceStem resource = resourceStem resource' → resource = resource' := by
  have hkeys : docs.resources.keys.Nodup := Std.ExtTreeMap.nodup_keys
  rw [stems, List.nodup_cons, List.nodup_map_iff_inj_on hkeys, List.mem_map]
  simp only [Std.ExtTreeMap.mem_keys, resourceStem_eq_listingStem_iff, exists_eq_right]

theorem documentFiles_names (docs : Swagger.Documentation) (format : OutputFormat) :
    (documentFiles docs format).map (·.1) = (stems docs).map (· ++ "." ++ format.name) := by
  rw [documentFiles, stems, ← Std.ExtTreeMap.map_fst_toList_eq_keys, List.map_cons, List.map_cons,
    List.map_map, List.map_map, List.map_map]
  rfl

theorem listing_mem_documentFiles (docs : Swagger.Documentation) (format : OutputFormat) :
    (listingStem ++ "." ++ format.name, format.render docs.listing.toJson) ∈
      documentFiles docs format :=
  List.mem_cons_self

theorem mem_documentFiles_of_getElem? {docs : Swagger.Documentation} {resource : String}
    {declaration : Swagger.ApiDeclaration} (h : docs.resources[resource]? = some declaration)
    (format : OutputFormat) :
    (resourceStem resource ++ "." ++ format.name, format.render declaration.toJson) ∈
      documentFiles docs format :=
  List.mem_cons_of_mem _ (List.mem_map.2
    ⟨(resource, declaration), Std.ExtTreeMap.mem_toList_iff_getElem?_eq_some.2 h, rfl⟩)

/-! ## Names and paths -/

/-- The name of an entry: it has no slashes and is not one of the names that lead elsewhere. -/
structure IsFileName (name : String) : Prop where
  slash : '/' ∉ name.toList
  plain : isDots name = false

theorem isFileName_of_stem {stem : String} (h : '/' ∉ stem.toList) (format : OutputFormat) :
    IsFileName (stem ++ "." ++ format.name) := by
  have hformat : '/' ∉ format.name.toList ∧ format.name.length = 4 := by
    cases format <;> decide
  constructor
  · simp [h, hformat.1]
  · -- the extension makes the name too long
    have hshort : ∀ {name}, isDots name = true → name.length ≤ 2 := by
      intro name hdots
      rcases Workspace.isDots_iff.1 hdots with (rfl | rfl) | rfl <;> decide
    have hlength : (stem ++ "." ++ format.name).length = stem.length + 1 + 4 := by
      rw [String.length_append, String.length_append, hformat.2]
      rfl
    rw [← Bool.not_eq_true]
    intro hdots
    have := hshort hdots
    omega

section Join

variable {name name' : String} (hname : IsFileName name) (hname' : IsFileName name')
include hname

theorem isAbsolute_eq_false : Workspace.Path.isAbsolute name = false := by
  rw [Workspace.Path.isAbsolute, decide_eq_false_iff_not]
  exact fun h => hname.slash (List.mem_of_mem_head? h)

theorem isAbsolute_join (directory : String) :
    Workspace.Path.isAbsolute (Workspace.Path.join directory name) =
      Workspace.Path.isAbsolute directory := by
  rw [Workspace.Path.join, isAbsolute_eq_false hname, Bool.false_or]
  split
  · rename_i hempty
    obtain rfl : directory = "" := by simpa using hempty
    exact isAbsolute_eq_false hname
  · rename_i hne
    have hcons : directory.toList ≠ [] := by simpa using hne
    unfold Workspace.Path.isAbsolute
    split
    · rw [String.toList_append, List.head?_append_of_ne_nil _ hcons]
    · rw [String.toList_append, String.toList_append, List.append_assoc,
        List.head?_append_of_ne_nil _ hcons]

/-- A name that is joined to a directory stands behind the names of the directory. -/
theorem pieces_join (directory : String) :
    ∃ front idle, Text.pieces '/' (Workspace.Path.join directory name) = front ++ [name] ∧
      Text.pieces '/' directory = front ++ idle ∧ (idle = [] ∨ idle = [""]) := by
  have hslash : ∀ {path : String} (front : List Char), path.toList = front ++ '/' :: name.toList →
      Text.pieces '/' path = Text.pieces '/' (String.ofList front) ++ [name] := by
    intro path front hpath
    rw [Text.pieces, hpath, Text.splitOn_append_sep hname.slash, List.map_append, Text.pieces,
      String.toList_ofList]
    simp
  rw [Workspace.Path.join, isAbsolute_eq_false hname, Bool.false_or]
  split
  · rename_i hempty
    obtain rfl : directory = "" := by simpa using hempty
    refine ⟨[], [""], ?_, rfl, .inr rfl⟩
    rw [Text.pieces, Text.splitOn_of_not_mem hname.slash]
    simp
  split
  · rename_i hlast
    obtain ⟨front, hfront⟩ := List.getLast?_eq_some_iff.1 hlast
    refine ⟨Text.pieces '/' (String.ofList front), [""], hslash front ?_, ?_, .inr rfl⟩
    · rw [String.toList_append, hfront, List.append_assoc]
      rfl
    · rw [Text.pieces, hfront, Text.splitOn_append_sep (by simp), List.map_append, Text.pieces,
        String.toList_ofList]
      rfl
  · refine ⟨Text.pieces '/' directory, [], ?_, (List.append_nil _).symm, .inl rfl⟩
    rw [hslash directory.toList (by simp), String.ofList_toList]

/-- The name of an entry is the last piece of its path. -/
theorem getLast?_pieces_join (directory : String) :
    (Text.pieces '/' (Workspace.Path.join directory name)).getLast? = some name := by
  obtain ⟨front, -, hpath, -⟩ := pieces_join hname directory
  rw [hpath, List.getLast?_concat]

theorem join_ne_empty (directory : String) : Workspace.Path.join directory name ≠ "" := by
  intro h
  have hlast := getLast?_pieces_join hname directory
  rw [h] at hlast
  obtain rfl : "" = name := Option.some.inj hlast
  exact absurd hname.plain (by decide)

include hname' in
theorem join_injective {directory : String}
    (h : Workspace.Path.join directory name = Workspace.Path.join directory name') : name = name' := by
  have hlast := getLast?_pieces_join hname directory
  rw [h, getLast?_pieces_join hname' directory] at hlast
  exact (Option.some.inj hlast).symm

end Join

/-! ## Where files lie -/

/-- A link stands at the path itself. -/
def IsLink (w : Workspace) (path : String) : Prop :=
  ∃ place target, w.locate .entry path = .ok place ∧ w.entry? place = some (.link target)

instance (w : Workspace) (path : String) : Decidable (IsLink w path) :=
  match hlocate : w.locate .entry path with
  | .error _ => isFalse fun h => by
    obtain ⟨place, target, hplace, -⟩ := h
    cases hlocate.symm.trans hplace
  | .ok place =>
    match hentry : w.entry? place with
    | some (.link target) => isTrue ⟨place, target, hlocate, hentry⟩
    | some .directory | some (.file _) | none => isFalse fun h => by
      obtain ⟨place', target, hplace, hlink⟩ := h
      cases hlocate.symm.trans hplace
      cases hentry.symm.trans hlink

/-- The names lead to a link. -/
def LeadsToLink (w : Workspace) (links : Nat) (start : RealPath) (names : List String) : Prop :=
  ∃ place target, Walks w .entry links start names (.occupied place) ∧
    w.entry? place = some (.link target)

theorem LeadsToLink.imp {w : Workspace} {links links' : Nat} {start start' : RealPath}
    {names names' : List String} (h : LeadsToLink w links start names)
    (hwalks : ∀ {place}, Walks w .entry links start names (.occupied place) →
      Walks w .entry links' start' names' (.occupied place)) :
    LeadsToLink w links' start' names' := by
  obtain ⟨place, target, hplace, hlink⟩ := h
  exact ⟨place, target, hwalks hplace, hlink⟩

theorem isLink_iff {w : Workspace} {path : String} :
    IsLink w path ↔ Workspace.Path.isAbsolute path = false ∧
      LeadsToLink w Workspace.maxLinks [] (Text.pieces '/' path) := by
  simp only [IsLink, LeadsToLink, Workspace.locate_eq_ok_iff, Workspace.target_eq_ok_iff, and_assoc,
    exists_and_left]

/-- A path that ends in the name of an entry leads to an entry of this name where the names before
it lead, unless it leads on from a link. -/
theorem of_walks_concat {w : Workspace} {links : Nat} {start found : RealPath}
    {names : List String} {name : String} (hname : isDots name = false)
    (h : Walks w .reading links start (names ++ [name]) (.occupied found)) :
    (∃ above, Walks w .reading links start names (.occupied above) ∧ w.isDirectory above = true ∧
        found = above ++ [name]) ∨
      LeadsToLink w links start (names ++ [name]) := by
  have hentry : ∀ {place name rest}, Passes w .reading place name rest →
      Passes w .entry place name rest :=
    fun h => ⟨h.directory, h.plain, rfl, h.size⟩
  generalize hall : names ++ [name] = all at h ⊢
  generalize htarget : Workspace.Target.occupied found = target at h
  -- on the way nothing depends on the purpose; the last name has to be looked at
  induction h generalizing names with
  | done => simp at hall
  | vacant => cases htarget
  | link _ hpurpose => cases hpurpose
  | stay hdirectory hdots _ ih =>
    cases names with
    | nil =>
      obtain ⟨rfl, -⟩ := List.cons.inj hall
      rw [← Bool.not_eq_true, Workspace.isDots_iff] at hname
      exact absurd (.inl hdots) hname
    | cons first names =>
      obtain ⟨rfl, htail⟩ := List.cons.inj hall
      refine (ih htail htarget).imp ?_ (·.imp (.stay hdirectory hdots))
      rintro ⟨above, habove, hfound⟩
      exact ⟨above, .stay hdirectory hdots habove, hfound⟩
  | up hdirectory hplace _ ih =>
    cases names with
    | nil =>
      obtain ⟨rfl, -⟩ := List.cons.inj hall
      exact absurd hname (by decide)
    | cons first names =>
      obtain ⟨rfl, htail⟩ := List.cons.inj hall
      refine (ih htail htarget).imp ?_ (·.imp (.up hdirectory hplace))
      rintro ⟨above, habove, hfound⟩
      exact ⟨above, .up hdirectory hplace habove, hfound⟩
  | enter hpasses hthere hplain hwalks ih =>
    cases names with
    | nil =>
      obtain ⟨rfl, rfl⟩ := List.cons.inj hall
      cases htarget
      cases hwalks
      exact .inl ⟨_, .done .., hpasses.directory, rfl⟩
    | cons first names =>
      obtain ⟨rfl, htail⟩ := List.cons.inj hall
      refine (ih htail htarget).imp ?_ (·.imp (.enter (hentry hpasses) hthere hplain))
      rintro ⟨above, habove, hfound⟩
      exact ⟨above, .enter (hpasses.with_rest _) hthere hplain habove, hfound⟩
  | @through _ _ _ linkTarget _ _ hpasses _ hthere habsolute _ ih =>
    cases names with
    | nil =>
      obtain ⟨rfl, rfl⟩ := List.cons.inj hall
      exact .inr ⟨_, linkTarget, .link (hentry hpasses) rfl hthere, hthere⟩
    | cons first names =>
      obtain ⟨rfl, rfl⟩ := List.cons.inj hall
      have hbehind : Text.pieces '/' linkTarget ++ names ++ [name] = _ := List.append_assoc _ _ _
      refine (ih hbehind htarget).imp ?_
        (·.imp (.through (hentry hpasses) (fun _ => by simp) hthere habsolute))
      rintro ⟨above, habove, hfound⟩
      exact ⟨above, .through (hpasses.with_rest _) (by simp) hthere habsolute habove, hfound⟩

/-- The path of a file leads to an entry of its name where the directory leads, unless a link
stands there. -/
theorem locate_join {w : Workspace} {directory name : String} {place : RealPath}
    (hname : IsFileName name)
    (h : w.locate .reading (Workspace.Path.join directory name) = .ok place)
    (hlink : ¬ IsLink w (Workspace.Path.join directory name)) :
    ∃ above, w.locate .reading directory = .ok above ∧ place = above ++ [name] := by
  obtain ⟨front, idle, hpath, hdirectory, hidle⟩ := pieces_join hname directory
  rw [Workspace.locate_eq_ok_iff, Workspace.target_eq_ok_iff, hpath] at h
  obtain ⟨above, hwalks, habove, rfl⟩ :=
    (of_walks_concat hname.plain h.2).resolve_right fun hleads => hlink (by
      rw [isLink_iff, hpath]
      exact ⟨h.1, hleads⟩)
  refine ⟨above, ?_, rfl⟩
  rw [Workspace.locate_eq_ok_iff, Workspace.target_eq_ok_iff, hdirectory]
  refine ⟨?_, hwalks.append fun links => ?_⟩
  · rw [← h.1, isAbsolute_join hname]
  · rcases hidle with rfl | rfl
    · exact .done links above
    · exact .stay habove (.inl rfl) (.done links above)

/-! ## Writing a documentation -/

theorem writeDocuments_eq_mapM (docs : Swagger.Documentation) (directory : String)
    (format : OutputFormat) :
    writeDocuments docs directory format =
      (documentFiles docs format).mapM (writeInto directory) := rfl

theorem isFileName_of_mem {docs : Swagger.Documentation} {format : OutputFormat}
    {file : String × String} (h : file ∈ documentFiles docs format) : IsFileName file.1 := by
  have hmem : file.1 ∈ (documentFiles docs format).map (·.1) := List.mem_map.2 ⟨file, h, rfl⟩
  rw [documentFiles_names] at hmem
  obtain ⟨stem, hstem, hname⟩ := List.mem_map.1 hmem
  rw [← hname]
  exact isFileName_of_stem (slash_not_mem_stems hstem) format

theorem nodup_paths_iff (docs : Swagger.Documentation) (directory : String) (format : OutputFormat) :
    ((documentFiles docs format).map fun file => Workspace.Path.join directory file.1).Nodup ↔
      (stems docs).Nodup := by
  have hpaths : ((documentFiles docs format).map fun file => Workspace.Path.join directory file.1) =
      (stems docs).map fun stem => Workspace.Path.join directory (stem ++ "." ++ format.name) := by
    have hnames := congrArg (List.map (Workspace.Path.join directory)) (documentFiles_names docs format)
    rwa [List.map_map, List.map_map] at hnames
  rw [hpaths]
  refine ⟨List.Nodup.of_map _, fun h => h.map_on fun stem hstem stem' hstem' heq => ?_⟩
  have hname : stem ++ "." ++ format.name = stem' ++ "." ++ format.name :=
    join_injective (isFileName_of_stem (slash_not_mem_stems hstem) format)
      (isFileName_of_stem (slash_not_mem_stems hstem') format) heq
  rw [← String.toList_inj] at hname ⊢
  simpa using hname

/-- Where no links stand at the paths, documents lie in one place only if they have one name. -/
theorem leadsTo_iff_name_eq {docs : Swagger.Documentation} {directory : String}
    {format : OutputFormat} {w : Workspace} {place : RealPath} {file other : String × String}
    (hlinks : ∀ file ∈ documentFiles docs format, ¬ IsLink w (Workspace.Path.join directory file.1))
    (hfile : file ∈ documentFiles docs format) (hother : other ∈ documentFiles docs format)
    (hplace : LeadsTo w directory place file) :
    LeadsTo w directory place other ↔ other.1 = file.1 := by
  constructor
  · intro hthere
    obtain ⟨above, -, habove⟩ := locate_join (isFileName_of_mem hfile) hplace (hlinks file hfile)
    obtain ⟨above', -, habove'⟩ := locate_join (isFileName_of_mem hother) hthere (hlinks other hother)
    exact List.singleton_inj.1 (List.append_inj_right' (habove'.symm.trans habove) rfl)
  · intro hname
    rw [LeadsTo, hname]
    exact hplace

/-- **Of documents written to one place, the last one stays.** The paths of the files are distinct
exactly if no resource has the name of the listing and no two resources have one stem. Whatever the
names, each path can be read afterwards and gives the text of the last document whose path leads to
the same place; where no links stand at the paths, these are the documents of the same name. So with
distinct paths and no links no document is lost. -/
theorem writeDocuments_last_write {docs : Swagger.Documentation} {directory : String}
    {format : OutputFormat} {w w' : Workspace} {paths : List String}
    (h : writeDocuments docs directory format w = .ok paths w') :
    let path (name : String) : String := Workspace.Path.join directory name
    let files := documentFiles docs format
    paths = files.map (fun file => path file.1) ∧
    (paths.Nodup ↔ listingStem ∉ docs.resources ∧
      ∀ resource ∈ docs.resources, ∀ resource' ∈ docs.resources,
        resourceStem resource = resourceStem resource' → resource = resource') ∧
    (∀ file ∈ files, ∃ place last, LeadsTo w' directory place file ∧
      IsLast (LeadsTo w' directory place) files last ∧ w'.readText (path file.1) = .ok last.2) ∧
    ((∀ path ∈ paths, ¬ IsLink w' path) →
      (∀ file ∈ files, ∃ last, IsLast (fun other => other.1 = file.1) files last ∧
        w'.readText (path file.1) = .ok last.2) ∧
      (paths.Nodup →
        w'.readText (path (listingStem ++ "." ++ format.name)) =
          .ok (format.render docs.listing.toJson) ∧
        ∀ resource declaration, docs.resources[resource]? = some declaration →
          w'.readText (path (resourceStem resource ++ "." ++ format.name)) =
            .ok (format.render declaration.toJson))) := by
  intro path files
  rw [writeDocuments_eq_mapM] at h
  obtain ⟨hpaths, hwrote⟩ : paths = files.map (fun file => path file.1) ∧
      WroteAll w directory files w' :=
    (ensures_writeInto directory files w).of_ok h
  have hread : ∀ file ∈ files, ∃ place last, LeadsTo w' directory place file ∧
      IsLast (LeadsTo w' directory place) files last ∧ w'.readText (path file.1) = .ok last.2 :=
    fun file hfile => hwrote.readText hfile (join_ne_empty (isFileName_of_mem hfile) directory)
  refine ⟨hpaths, ?_, hread, fun hlinks => ?_⟩
  · rw [hpaths, nodup_paths_iff, nodup_stems_iff]
  have hlinks : ∀ file ∈ files, ¬ IsLink w' (path file.1) := fun file hfile =>
    hlinks _ (hpaths ▸ List.mem_map.2 ⟨file, hfile, rfl⟩)
  have hnamed : ∀ file ∈ files, ∃ last, IsLast (fun other => other.1 = file.1) files last ∧
      w'.readText (path file.1) = .ok last.2 := by
    intro file hfile
    obtain ⟨place, last, hplace, hlast, htext⟩ := hread file hfile
    refine ⟨last, hlast.congr fun other hother => ?_, htext⟩
    exact leadsTo_iff_name_eq hlinks hfile hother hplace
  refine ⟨hnamed, fun hdistinct => ?_⟩
  have hown : ∀ file ∈ files, w'.readText (path file.1) = .ok file.2 := by
    intro file hfile
    obtain ⟨last, hlast, htext⟩ := hnamed file hfile
    rw [hpaths] at hdistinct
    have hsame : last = file :=
      List.inj_on_of_nodup_map hdistinct hlast.mem hfile (congrArg path hlast.holds)
    rw [htext, hsame]
  refine ⟨(hown _ (listing_mem_documentFiles docs format) :), ?_⟩
  intro resource declaration hresource
  exact (hown _ (mem_documentFiles_of_getElem? hresource format) :)

/-- The declaration of a resource without operations. -/
def bare (resource : String) : Swagger.ApiDeclaration where
  apiVersion := ""
  swaggerVersion := Swagger.swaggerVersion
  basePath := ""
  resourcePath := "/" ++ resource
  apis := []
  models := ∅

/-- A listing with these resources, none of which has operations. -/
def sketch (resources : List String) : Swagger.Documentation where
  listing := {}
  resources := Dict.ofEntries (resources.map fun resource => (resource, bare resource))

/-- A resource `index` takes the place of the listing, and `a_b` that of `a\b`; two resources of
other names are written beside the listing. -/
theorem writeDocuments_last_write_sketch :
    (∃ paths w', writeDocuments (sketch ["index", "a\\b", "a_b"]) "out" .json Workspace.empty =
        .ok paths w' ∧ ¬ paths.Nodup ∧
      w'.readText "out/index.json" = .ok (Json.render (bare "index").toJson) ∧
      w'.readText "out/a_b.json" = .ok (Json.render (bare "a_b").toJson)) ∧
    ∃ paths w', writeDocuments (sketch ["users", "a\\b"]) "out" .json Workspace.empty =
        .ok paths w' ∧ paths.Nodup ∧
      w'.readText "out/index.json" = .ok (Json.render (sketch []).listing.toJson) ∧
      w'.readText "out/users.json" = .ok (Json.render (bare "users").toJson) ∧
      w'.readText "out/a_b.json" = .ok (Json.render (bare "a\\b").toJson) := by
  constructor
  · have hresult : result? (writeDocuments (sketch ["index", "a\\b", "a_b"]) "out" .json
        Workspace.empty) =
        some ["out/index.json", "out/a_b.json", "out/a_b.json", "out/index.json"] := by
      decide +kernel
    have hok := eq_ok_of_result? hresult
    obtain ⟨-, hdistinct, -, hlast⟩ := writeDocuments_last_write hok
    obtain ⟨hnamed, -⟩ := hlast (by decide +kernel)
    obtain ⟨index, hindex, hindexText⟩ := hnamed _ (listing_mem_documentFiles _ _)
    obtain rfl : index = ("index.json", Json.render (bare "index").toJson) :=
      Option.some.inj ((Session.find?_reverse_eq_some.2 hindex).symm.trans (by decide +kernel))
    obtain ⟨other, hother, hotherText⟩ :=
      hnamed ("a_b.json", Json.render (bare "a\\b").toJson) (by decide +kernel)
    obtain rfl : other = ("a_b.json", Json.render (bare "a_b").toJson) :=
      Option.some.inj ((Session.find?_reverse_eq_some.2 hother).symm.trans (by decide +kernel))
    exact ⟨_, _, hok, fun h => (hdistinct.1 h).1 (by decide +kernel), hindexText, hotherText⟩
  · have hresult : result? (writeDocuments (sketch ["users", "a\\b"]) "out" .json Workspace.empty) =
        some ["out/index.json", "out/a_b.json", "out/users.json"] := by
      decide +kernel
    have hok := eq_ok_of_result? hresult
    obtain ⟨-, -, -, hlast⟩ := writeDocuments_last_write hok
    obtain ⟨-, hkept⟩ := hlast (by decide +kernel)
    obtain ⟨hlisting, hresources⟩ := hkept (by decide)
    refine ⟨_, _, hok, by decide, hlisting, ?_, ?_⟩
    · exact hresources "users" (bare "users") (by decide +kernel)
    · exact hresources "a\\b" (bare "a\\b") (by decide +kernel)

end ApiDocs
