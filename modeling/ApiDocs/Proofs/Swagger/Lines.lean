/-
  ApiDocs.Proofs.Swagger.Lines

  What a line says about an API as a whole. A line of general information gives one field its
  value (`Sets`): the first word is the directive of the field, whatever its case. A line that
  describes a resource is matched from the left (`Captures`): the description is the first
  nonempty stretch without an opening bracket that is followed by one and by a path, and the
  path is as long as it can be. The listing after a line is then given by two equations each,
  one for lines that say something and one for those that do not.
-/

import ApiDocs.Proofs.Text
import ApiDocs.Swagger.Metadata
import Mathlib.Data.List.Basic

namespace ApiDocs.Swagger

/-! ## General information -/

/-- The fields that lines of general information set. -/
inductive GeneralField where
  | apiVersion
  | title
  | description
  | termsOfServiceUrl
  | contact
  | licenseUrl
  | license
  deriving DecidableEq, Repr

/-- The directive of a field, as it is usually written. -/
def GeneralField.directive : GeneralField → String
  | apiVersion => "@APIVersion"
  | title => "@ApiTitle"
  | description => "@ApiDescription"
  | termsOfServiceUrl => "@TermsOfServiceUrl"
  | contact => "@Contact"
  | licenseUrl => "@LicenseUrl"
  | license => "@License"

/-- No two fields have one directive, even if case does not matter. -/
theorem GeneralField.lowered_directive_inj {field other : GeneralField}
    (h : Text.lowered field.directive = Text.lowered other.directive) : field = other := by
  revert h
  cases field <;> cases other <;> decide

namespace ResourceListing

/-- The value of a field. -/
def value (listing : ResourceListing) : GeneralField → String
  | .apiVersion => listing.apiVersion
  | .title => listing.info.title
  | .description => listing.info.description
  | .termsOfServiceUrl => listing.info.termsOfServiceUrl
  | .contact => listing.info.contact
  | .licenseUrl => listing.info.licenseUrl
  | .license => listing.info.license

/-- The listing with another value for a field. -/
def setValue (listing : ResourceListing) (value : String) : GeneralField → ResourceListing
  | .apiVersion => { listing with apiVersion := value }
  | .title => { listing with info := { listing.info with title := value } }
  | .description => { listing with info := { listing.info with description := value } }
  | .termsOfServiceUrl => { listing with info := { listing.info with termsOfServiceUrl := value } }
  | .contact => { listing with info := { listing.info with contact := value } }
  | .licenseUrl => { listing with info := { listing.info with licenseUrl := value } }
  | .license => { listing with info := { listing.info with license := value } }

theorem value_setValue (listing : ResourceListing) (value : String) (field other : GeneralField) :
    (listing.setValue value field).value other = if field = other then value else listing.value other := by
  cases field <;> cases other <;> rfl

@[simp] theorem apis_setValue (listing : ResourceListing) (value : String) (field : GeneralField) :
    (listing.setValue value field).apis = listing.apis := by
  cases field <;> rfl

@[simp] theorem swaggerVersion_setValue (listing : ResourceListing) (value : String)
    (field : GeneralField) : (listing.setValue value field).swaggerVersion = listing.swaggerVersion := by
  cases field <;> rfl

theorem set?_directive (listing : ResourceListing) (field : GeneralField) (value : String) :
    listing.set? (Text.lowered field.directive) value = some (listing.setValue value field) := by
  cases field <;> rfl

theorem set?_eq_none (listing : ResourceListing) {word : String} (value : String)
    (h : ∀ field : GeneralField, word ≠ Text.lowered field.directive) :
    listing.set? word value = none := by
  unfold set?
  dsimp only
  split
  · exact absurd (by decide) (h .apiVersion)
  · exact absurd (by decide) (h .title)
  · exact absurd (by decide) (h .description)
  · exact absurd (by decide) (h .termsOfServiceUrl)
  · exact absurd (by decide) (h .contact)
  · exact absurd (by decide) (h .licenseUrl)
  · exact absurd (by decide) (h .license)
  · rfl

end ResourceListing

/-- The first word of a text, and the trimmed text behind it. -/
theorem splitDirective_eq (cs : List Char) :
    splitDirective cs =
      (cs.takeWhile fun c => !Text.isBlank c, Text.trim (cs.dropWhile fun c => !Text.isBlank c)) := by
  rw [splitDirective, Text.splitFirst_eq]
  cases hd : cs.dropWhile fun c => !Text.isBlank c with
  | nil =>
    have hall : cs.takeWhile (fun c => !Text.isBlank c) = cs := by
      have h := List.takeWhile_append_dropWhile (p := fun c => !Text.isBlank c) (l := cs)
      rwa [hd, List.append_nil] at h
    simp [hall, Text.trim, Text.trimStart, Text.trimEnd]
  | cons c after =>
    have hblank : Text.isBlank c = true := by
      have h := List.head?_dropWhile_not (fun c => !Text.isBlank c) cs
      rw [hd] at h
      simpa using h
    simp [Text.trim_cons_of_blank hblank]

/-- The line gives a field this value: its first word is the directive of the field, whatever
the case of its letters, and the value is what follows, without white space around it. -/
def Sets (line : String) (field : GeneralField) (value : String) : Prop :=
  let text := Text.trimStart line.toList
  Text.lowered (String.ofList (text.takeWhile fun c => !Text.isBlank c)) =
      Text.lowered field.directive ∧
    value = String.ofList (Text.trim (text.dropWhile fun c => !Text.isBlank c))

theorem ResourceListing.applyGlobal?_of_sets (listing : ResourceListing) {line value : String}
    {field : GeneralField} (h : Sets line field value) :
    listing.applyGlobal? line = some (listing.setValue value field) := by
  rw [applyGlobal?, splitDirective_eq, h.2]
  dsimp only
  rw [h.1, set?_directive]

theorem ResourceListing.applyGlobal?_of_silent (listing : ResourceListing) {line : String}
    (h : ∀ field value, ¬ Sets line field value) : listing.applyGlobal? line = none := by
  rw [applyGlobal?, splitDirective_eq]
  exact set?_eq_none listing _ fun field heq => h field _ ⟨heq, rfl⟩

/-- A line of general information sets a field, and nothing else, or it changes nothing. -/
theorem ResourceListing.applyGlobal?_cases (listing : ResourceListing) (line : String) :
    (∃ field value, Sets line field value ∧
      (listing.applyGlobal? line).getD listing = listing.setValue value field) ∨
    ((∀ field value, ¬ Sets line field value) ∧
      (listing.applyGlobal? line).getD listing = listing) := by
  by_cases h : ∃ field value, Sets line field value
  · obtain ⟨field, value, hsets⟩ := h
    exact .inl ⟨field, value, hsets, by rw [applyGlobal?_of_sets listing hsets]; rfl⟩
  · have hsilent : ∀ field value, ¬ Sets line field value :=
      fun field value hsets => h ⟨field, value, hsets⟩
    exact .inr ⟨hsilent, by rw [applyGlobal?_of_silent listing hsilent]; rfl⟩

/-! ## Descriptions of resources -/

/-- Behind `before`, the text has a nonempty description without an opening bracket, then an
opening bracket, and then a path that is not empty and goes as far as it can. -/
def Matches (text before description path : List Char) : Prop :=
  ∃ behind, text = before ++ (description ++ '[' :: (path ++ behind)) ∧
    description ≠ [] ∧ '[' ∉ description ∧
    path ≠ [] ∧ (∀ c ∈ path, isPathChar c = true) ∧ ∀ c ∈ behind.head?, isPathChar c = false

/-- The description and the path of the leftmost match. -/
def Captures (text description path : List Char) : Prop :=
  ∃ before, Matches text before description path ∧
    ∀ before' description' path', Matches text before' description' path' →
      before.length ≤ before'.length

/-- Two texts that are cut at their first opening brackets. -/
theorem append_bracket_inj {d d' u u' : List Char} (hd : '[' ∉ d) (hd' : '[' ∉ d')
    (h : d ++ '[' :: u = d' ++ '[' :: u') : d = d' ∧ u = u' := by
  rcases List.append_eq_append_iff.1 h with ⟨rest, rfl, hrest⟩ | ⟨rest, rfl, hrest⟩
  · cases rest with
    | nil => simpa using hrest
    | cons c rest =>
      obtain rfl : '[' = c := (List.cons.inj hrest).1
      simp at hd'
  · cases rest with
    | nil => simpa using hrest.symm
    | cons c rest =>
      obtain rfl : '[' = c := (List.cons.inj hrest).1
      simp at hd

theorem Captures.unique {text description path description' path' : List Char}
    (h : Captures text description path) (h' : Captures text description' path') :
    description = description' ∧ path = path' := by
  obtain ⟨before, hm, hleft⟩ := h
  obtain ⟨before', hm', hleft'⟩ := h'
  have hlength := Nat.le_antisymm (hleft _ _ _ hm') (hleft' _ _ _ hm)
  obtain ⟨behind, htext, -, hd, -, hp, hb⟩ := hm
  obtain ⟨behind', htext', -, hd', -, hp', hb'⟩ := hm'
  -- both matches start at the same place, so their descriptions end at the same bracket
  obtain rfl : before = before' := List.append_inj_left (htext.symm.trans htext') hlength
  have hrest := List.append_cancel_left (htext.symm.trans htext')
  obtain ⟨rfl, hpaths⟩ := append_bracket_inj hd hd' hrest
  exact ⟨rfl, by rw [← Text.takeWhile_append_stop hp hb, hpaths, Text.takeWhile_append_stop hp' hb']⟩

/-- A text without an opening bracket has no match. -/
theorem not_matches_of_not_mem {text before description path : List Char} (h : '[' ∉ text) :
    ¬ Matches text before description path := by
  rintro ⟨behind, rfl, -⟩
  simp at h

section FirstBracket

variable {piece text before description path : List Char}

/-- A match behind the first opening bracket. -/
theorem Matches.shift (h : Matches text before description path) :
    Matches (piece ++ '[' :: text) (piece ++ '[' :: before) description path := by
  obtain ⟨behind, rfl, hrest⟩ := h
  exact ⟨behind, by simp, hrest⟩

/-- A match starts before the first opening bracket, and then what follows the bracket starts
with a path, or behind it. -/
theorem Matches.cases_bracket (hpiece : '[' ∉ piece)
    (h : Matches (piece ++ '[' :: text) before description path) :
    (piece ≠ [] ∧ text.takeWhile isPathChar ≠ []) ∨
      ∃ before', before = piece ++ '[' :: before' ∧ Matches text before' description path := by
  obtain ⟨behind, htext, hd, hbracket, hp, hpath, hbehind⟩ := h
  rcases List.append_eq_append_iff.1 htext with ⟨rest, rfl, hrest⟩ | ⟨rest, rfl, hrest⟩
  · cases rest with
    | nil =>
      -- the description would have to start with the bracket
      obtain ⟨c, description, rfl⟩ := List.exists_cons_of_ne_nil hd
      obtain rfl : '[' = c := (List.cons.inj hrest).1
      simp at hbracket
    | cons c before' =>
      obtain ⟨rfl, rfl⟩ := List.cons.inj hrest
      exact .inr ⟨before', rfl, behind, rfl, hd, hbracket, hp, hpath, hbehind⟩
  · have hrest' : '[' ∉ rest := fun hmem => hpiece (List.mem_append_right before hmem)
    obtain ⟨rfl, rfl⟩ := append_bracket_inj hbracket hrest' hrest
    exact .inl ⟨by simp [hd], by rw [Text.takeWhile_append_stop hpath hbehind]; exact hp⟩

end FirstBracket

/-- Pieces that are joined by opening brackets start with the first one and a bracket. -/
theorem join_cons_cons (piece next : List Char) (rest : List (List Char)) :
    ['['].intercalate (piece :: next :: rest) = piece ++ '[' :: ['['].intercalate (next :: rest) := by
  simp [List.intercalate, List.intersperse]

/-- Joined pieces start with the path characters of the first one, and with no more of them. -/
theorem takeWhile_join (piece : List Char) (rest : List (List Char)) :
    ∃ behind, ['['].intercalate (piece :: rest) = piece.takeWhile isPathChar ++ behind ∧
      ∀ c ∈ behind.head?, isPathChar c = false := by
  have hpiece := List.takeWhile_append_dropWhile (p := isPathChar) (l := piece)
  cases rest with
  | nil =>
    refine ⟨piece.dropWhile isPathChar, ?_, fun c hc => Text.head?_dropWhile_stop isPathChar piece hc⟩
    rw [hpiece]
    simp [List.intercalate]
  | cons next rest =>
    refine ⟨piece.dropWhile isPathChar ++ '[' :: ['['].intercalate (next :: rest), ?_, fun c hc => ?_⟩
    · rw [join_cons_cons, ← List.append_assoc, hpiece]
    · cases hd : piece.dropWhile isPathChar with
      | nil =>
        obtain rfl : '[' = c := by simpa [hd] using hc
        decide
      | cons first behind =>
        rw [hd] at hc
        exact Text.head?_dropWhile_stop isPathChar piece (by rw [hd]; exact hc)

/-- No match starts in a piece that is empty or is not followed by a path. -/
theorem Matches.behind_skipped {piece next before description path : List Char}
    {rest : List (List Char)} (hpiece : '[' ∉ piece)
    (hskip : (piece.isEmpty || (next.takeWhile isPathChar).isEmpty) = true)
    (h : Matches (['['].intercalate (piece :: next :: rest)) before description path) :
    ∃ before', before = piece ++ '[' :: before' ∧
      Matches (['['].intercalate (next :: rest)) before' description path := by
  rw [join_cons_cons] at h
  rcases h.cases_bracket hpiece with ⟨hne, hpath⟩ | hbehind
  · obtain ⟨behind, hjoin, hstop⟩ := takeWhile_join next rest
    have hall : ∀ c ∈ next.takeWhile isPathChar, isPathChar c = true :=
      List.all_eq_true.1 List.all_takeWhile
    rw [hjoin, Text.takeWhile_append_stop hall hstop] at hpath
    rw [Bool.or_eq_true, List.isEmpty_iff, List.isEmpty_iff] at hskip
    rcases hskip with hempty | hempty
    · exact absurd hempty hne
    · exact absurd hempty hpath
  · exact hbehind

/-- What is read from the pieces between opening brackets is the leftmost match. -/
theorem captures_of_describedPath? {pieces : List (List Char)} (h : ∀ piece ∈ pieces, '[' ∉ piece)
    {description path : List Char} (hread : describedPath? pieces = some (description, path)) :
    Captures (['['].intercalate pieces) description path := by
  fun_induction describedPath? pieces with
  | case1 piece next rest nextPath hskip ih =>
    have hrest : ∀ other ∈ next :: rest, '[' ∉ other :=
      fun other hother => h other (List.mem_cons_of_mem piece hother)
    obtain ⟨before, hmatch, hleft⟩ := ih hrest hread
    -- every match of the whole text starts behind the piece that was skipped
    refine ⟨piece ++ '[' :: before, by rw [join_cons_cons]; exact hmatch.shift, ?_⟩
    intro before' description' path' hmatch'
    obtain ⟨before'', rfl, hmatch''⟩ := hmatch'.behind_skipped (h piece List.mem_cons_self) hskip
    have := hleft before'' description' path' hmatch''
    simp only [List.length_append, List.length_cons]
    omega
  | case2 piece next rest nextPath htake =>
    obtain ⟨rfl, rfl⟩ : piece = description ∧ nextPath = path := by simpa using hread
    obtain ⟨behind, hjoin, hbehind⟩ := takeWhile_join next rest
    simp only [Bool.or_eq_true, List.isEmpty_iff, not_or] at htake
    refine ⟨[], ⟨behind, ?_, htake.1, h piece List.mem_cons_self, htake.2,
      List.all_eq_true.1 List.all_takeWhile, hbehind⟩, fun _ _ _ _ => Nat.zero_le _⟩
    rw [join_cons_cons, hjoin]
    rfl
  | case3 => cases hread

/-- If nothing is read, there is no match. -/
theorem not_matches_of_describedPath? {pieces : List (List Char)}
    (h : ∀ piece ∈ pieces, '[' ∉ piece) (hread : describedPath? pieces = none)
    (before description path : List Char) :
    ¬ Matches (['['].intercalate pieces) before description path := by
  fun_induction describedPath? pieces generalizing before with
  | case1 piece next rest nextPath hskip ih =>
    intro hmatch
    obtain ⟨before', rfl, hmatch'⟩ := hmatch.behind_skipped (h piece List.mem_cons_self) hskip
    exact ih (fun other hother => h other (List.mem_cons_of_mem piece hother)) hread before' hmatch'
  | case2 piece next rest nextPath htake => cases hread
  | case3 pieces hshort =>
    -- a text of one piece has no bracket
    cases pieces with
    | nil => exact not_matches_of_not_mem (by simp [List.intercalate])
    | cons piece rest =>
      cases rest with
      | nil => exact not_matches_of_not_mem (by simpa [List.intercalate] using h)
      | cons next rest => exact absurd rfl (hshort piece next rest)

/-- What is read from a text is its leftmost match. -/
theorem describedPath?_eq_some_iff {text description path : List Char} :
    describedPath? (Text.splitOn '[' text) = some (description, path) ↔
      Captures text description path := by
  have hpieces : ∀ piece ∈ Text.splitOn '[' text, '[' ∉ piece := fun _ => Text.not_mem_of_mem_splitOn
  have hjoin := Text.intercalate_splitOn '[' text
  constructor
  · intro hread
    rw [← hjoin]
    exact captures_of_describedPath? hpieces hread
  · intro hcaptures
    cases hread : describedPath? (Text.splitOn '[' text) with
    | none =>
      obtain ⟨before, hmatch, -⟩ := hcaptures
      rw [← hjoin] at hmatch
      exact absurd hmatch (not_matches_of_describedPath? hpieces hread before description path)
    | some found =>
      -- what is read is a leftmost match, and there is only one
      have hfound := captures_of_describedPath? hpieces hread
      rw [hjoin] at hfound
      obtain ⟨hdescription, hpath⟩ := hfound.unique hcaptures
      rw [← hdescription, ← hpath]

/-- The line describes the resource with this path: behind its marker, without white space
around it, the leftmost match captures the path and, before it is trimmed, the description. -/
def Describes (line path description : String) : Prop :=
  ∃ rest captured, line.toList = subApiMarker.toList ++ rest ∧
    Captures (Text.trim rest) captured path.toList ∧ description = String.ofList (Text.trim captured)

/-- The references after one resource has been described. -/
def describeResource (path description : String) (references : List ResourceRef) : List ResourceRef :=
  references.map fun reference =>
    if reference.path = path then { reference with description } else reference

@[simp] theorem map_path_describeResource (path description : String)
    (references : List ResourceRef) :
    (describeResource path description references).map (·.path) = references.map (·.path) := by
  rw [describeResource, List.map_map]
  refine List.map_congr_left fun reference _ => ?_
  by_cases h : reference.path = path <;> simp [h]

theorem ResourceListing.applySubApi_of_describes (listing : ResourceListing)
    {line path description : String} (h : Describes line path description) :
    (listing.applySubApi line).1 =
      { listing with apis := describeResource path description listing.apis } := by
  obtain ⟨rest, captured, hline, hcaptures, rfl⟩ := h
  have hmarker : subApiMarker.toList.isPrefixOf? line.toList = some rest :=
    List.isPrefixOf?_eq_some_iff_append_eq.2 hline.symm
  have hread := describedPath?_eq_some_iff.2 hcaptures
  simp only [applySubApi, hmarker, hread, String.ofList_toList]
  rfl

theorem ResourceListing.applySubApi_of_silent (listing : ResourceListing) {line : String}
    (h : ∀ path description, ¬ Describes line path description) :
    (listing.applySubApi line).1 = listing := by
  cases hmarker : subApiMarker.toList.isPrefixOf? line.toList with
  | none => simp only [applySubApi, hmarker]
  | some rest =>
    have hline := List.isPrefixOf?_eq_some_iff_append_eq.1 hmarker
    cases hread : describedPath? (Text.splitOn '[' (Text.trim rest)) with
    | none => simp only [applySubApi, hmarker, hread]
    | some found =>
      have hcaptures : Captures (Text.trim rest) found.1 (String.ofList found.2).toList := by
        rw [String.toList_ofList]
        exact describedPath?_eq_some_iff.1 hread
      exact absurd ⟨rest, found.1, hline.symm, hcaptures, rfl⟩ (h (String.ofList found.2) _)

/-- A line that describes a resource changes the references to it, and nothing else; any other
line changes nothing. -/
theorem ResourceListing.applySubApi_cases (listing : ResourceListing) (line : String) :
    (∃ path description, Describes line path description ∧
      (listing.applySubApi line).1 =
        { listing with apis := describeResource path description listing.apis }) ∨
    ((∀ path description, ¬ Describes line path description) ∧
      (listing.applySubApi line).1 = listing) := by
  by_cases h : ∃ path description, Describes line path description
  · obtain ⟨path, description, hdescribes⟩ := h
    exact .inl ⟨path, description, hdescribes, applySubApi_of_describes listing hdescribes⟩
  · have hsilent : ∀ path description, ¬ Describes line path description :=
      fun path description hdescribes => h ⟨path, description, hdescribes⟩
    exact .inr ⟨hsilent, applySubApi_of_silent listing hsilent⟩

end ApiDocs.Swagger
