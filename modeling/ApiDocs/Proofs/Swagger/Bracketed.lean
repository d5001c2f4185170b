/-
  ApiDocs.Proofs.Swagger.Bracketed

  The resource that a line names in brackets, and the resource that it describes. The path is
  read from the bracketed text up to the first character that no path has, and if the text does
  not start with a path at all, it is looked for behind later brackets (`ReadsAs`). So the line
  describes the resource that it names only if the whole text is a path
  (`applySubApi_frame_iff`): `[/users.v2]` describes `/users`.
-/

import ApiDocs.Proofs.Swagger.Lines

namespace ApiDocs.Swagger

/-! ## Texts in brackets -/

/-- What is read from a description and a text in brackets behind it. A text that starts with a
path gives its longest one; any other is searched for a description and a path of its own. -/
inductive ReadsAs (description bracketed : List Char) : List Char → List Char → Prop where
  | start {path behind : List Char} (htext : bracketed = path ++ behind) (hne : path ≠ [])
      (hpath : ∀ c ∈ path, isPathChar c = true) (hbehind : ∀ c ∈ behind.head?, isPathChar c = false) :
      ReadsAs description bracketed description path
  | within {captured path : List Char} (hstart : ∀ c ∈ bracketed.head?, isPathChar c = false)
      (hcaptures : Captures bracketed captured path) : ReadsAs description bracketed captured path

section Closing

variable {text before description path : List Char}

/-- A closing bracket behind the text does not touch a match. -/
theorem Matches.concat (h : Matches text before description path) :
    Matches (text ++ [']']) before description path := by
  obtain ⟨behind, rfl, hd, hbracket, hp, hpath, hbehind⟩ := h
  refine ⟨behind ++ [']'], by simp, hd, hbracket, hp, hpath, fun c hc => ?_⟩
  cases behind with
  | nil =>
    obtain rfl : ']' = c := by simpa using hc
    decide
  | cons first behind => exact hbehind c hc

/-- Nor does a match reach up to it. -/
theorem Matches.of_concat (h : Matches (text ++ [']']) before description path) :
    Matches text before description path := by
  obtain ⟨behind, htext, hd, hbracket, hp, hpath, hbehind⟩ := h
  -- the bracket is no character of the path, so it stands behind it
  obtain ⟨behind, rfl⟩ : ∃ front, behind = front ++ [']'] := by
    rcases List.eq_nil_or_concat behind with rfl | ⟨front, last, rfl⟩
    · have hlast : (text ++ [']']).getLast? = path.getLast? := by
        obtain ⟨front, last, rfl⟩ := (List.eq_nil_or_concat path).resolve_left hp
        rw [htext, List.append_nil]
        simp [List.getLast?_append, List.getLast?_cons]
      rw [List.getLast?_concat] at hlast
      have := hpath ']' (List.mem_of_getLast? hlast.symm)
      exact absurd this (by decide)
    · have hlast := congrArg List.getLast? htext
      simp [List.getLast?_append, List.getLast?_cons] at hlast
      exact ⟨front, by rw [List.concat_eq_append, hlast]⟩
  refine ⟨behind, ?_, hd, hbracket, hp, hpath, fun c hc => ?_⟩
  · have hconcat : text ++ [']'] = before ++ (description ++ '[' :: (path ++ behind)) ++ [']'] := by
      simpa using htext
    exact List.append_cancel_right hconcat
  · cases behind with
    | nil => cases hc
    | cons first behind => exact hbehind c hc

end Closing

/-- The leftmost match of a description with a text in brackets behind it. -/
theorem captures_bracketed_iff {piece bracketed captured path : List Char} (hne : piece ≠ [])
    (hpiece : '[' ∉ piece) :
    Captures (piece ++ '[' :: (bracketed ++ [']'])) captured path ↔
      ReadsAs piece bracketed captured path := by
  have hstart : ∀ {path behind : List Char}, bracketed = path ++ behind → path ≠ [] →
      (∀ c ∈ path, isPathChar c = true) → (∀ c ∈ behind.head?, isPathChar c = false) →
      Captures (piece ++ '[' :: (bracketed ++ [']'])) piece path := by
    intro path behind htext hp hpath hbehind
    have hmatch : Matches (piece ++ '[' :: bracketed) [] piece path :=
      ⟨behind, by simp [htext], hne, hpiece, hp, hpath, hbehind⟩
    exact ⟨[], by simpa using hmatch.concat, fun _ _ _ _ => Nat.zero_le _⟩
  -- where the text does not start with a path, matches of the whole are matches of the text
  have hlater : (∀ c ∈ bracketed.head?, isPathChar c = false) →
      ∀ {before description path : List Char},
      Matches (piece ++ '[' :: (bracketed ++ [']'])) before description path →
      ∃ before', before = piece ++ '[' :: before' ∧ Matches bracketed before' description path := by
    intro hhead before description path hmatch
    rcases hmatch.cases_bracket hpiece with ⟨-, htake⟩ | ⟨before', hbefore, hmatch⟩
    · refine absurd ?_ htake
      cases bracketed with
      | nil => rfl
      | cons first rest => simp [hhead first rfl]
    · exact ⟨before', hbefore, hmatch.of_concat⟩
  constructor
  · intro h
    by_cases hhead : ∀ c ∈ bracketed.head?, isPathChar c = false
    · obtain ⟨before, hmatch, hleft⟩ := h
      obtain ⟨within, rfl, hwithin⟩ := hlater hhead hmatch
      refine .within hhead ⟨within, hwithin, fun before' description' path' hmatch' => ?_⟩
      have hshift : Matches (piece ++ '[' :: (bracketed ++ [']'])) (piece ++ '[' :: before')
          description' path' := hmatch'.concat.shift
      have hlength := hleft _ _ _ hshift
      simp only [List.length_append, List.length_cons] at hlength
      omega
    · have htake : bracketed.takeWhile isPathChar ≠ [] := by
        cases bracketed with
        | nil => simp at hhead
        | cons first rest =>
          have hfirst : isPathChar first = true := by simpa using hhead
          simp [hfirst]
      have hall : ∀ c ∈ bracketed.takeWhile isPathChar, isPathChar c = true :=
        List.all_eq_true.1 List.all_takeWhile
      have htext := (List.takeWhile_append_dropWhile (p := isPathChar) (l := bracketed)).symm
      have hstop : ∀ c ∈ (bracketed.dropWhile isPathChar).head?, isPathChar c = false :=
        fun c hc => Text.head?_dropWhile_stop isPathChar bracketed hc
      obtain ⟨rfl, rfl⟩ := h.unique (hstart htext htake hall hstop)
      exact .start htext htake hall hstop
  · intro h
    cases h with
    | start htext hp hpath hbehind => exact hstart htext hp hpath hbehind
    | within hhead hcaptures =>
      obtain ⟨before, hmatch, hleft⟩ := hcaptures
      refine ⟨piece ++ '[' :: before, hmatch.concat.shift, fun before' description' path' hmatch' => ?_⟩
      obtain ⟨before'', rfl, hmatch''⟩ := hlater hhead hmatch'
      have hlength := hleft _ _ _ hmatch''
      simp only [List.length_append, List.length_cons]
      omega

/-- A text that is a path is not read as anything else. -/
theorem eq_of_readsAs_path {description bracketed captured path : List Char}
    (hpath : ∀ c ∈ bracketed, isPathChar c = true) (h : ReadsAs description bracketed captured path) :
    path = bracketed := by
  cases h with
  | @start path behind htext _ _ hbehind =>
    cases behind with
    | nil => rw [htext, List.append_nil]
    | cons first behind =>
      have hfirst := hpath first (by simp [htext])
      rw [hbehind first rfl] at hfirst
      cases hfirst
  | within hstart hcaptures =>
    cases bracketed with
    | nil =>
      obtain ⟨before, hmatch, -⟩ := hcaptures
      exact absurd hmatch (not_matches_of_not_mem (by simp))
    | cons first rest =>
      have hfirst := hpath first List.mem_cons_self
      rw [hstart first rfl] at hfirst
      cases hfirst

/-- Only a path is read as it stands. -/
theorem isPathChar_of_readsAs {description bracketed captured : List Char}
    (h : ReadsAs description bracketed captured bracketed) : ∀ c ∈ bracketed, isPathChar c = true := by
  cases h with
  | start _ _ hpath _ => exact hpath
  | within _ hcaptures =>
    obtain ⟨-, ⟨-, -, -, -, -, hpath, -⟩, -⟩ := hcaptures
    exact hpath

/-! ## Lines -/

/-- Behind the marker of a line that describes a resource: white space in front is dropped, and the
bracket ends the text. -/
theorem trim_bracketed {description : List Char} (bracketed : List Char)
    (h : ∃ c ∈ description, Text.isBlank c = false) :
    Text.trim (' ' :: (description ++ ' ' :: '[' :: (bracketed ++ [']']))) =
      (Text.trimStart description ++ [' ']) ++ '[' :: (bracketed ++ [']']) := by
  have hstart : Text.trimStart description ≠ [] := by
    obtain ⟨c, hc, hblank⟩ := h
    intro hnil
    have := List.dropWhile_eq_nil_iff.1 hnil c hc
    rw [hblank] at this
    cases this
  have hend : ∀ front : List Char, Text.trimEnd (front ++ [']']) = front ++ [']'] := by
    intro front
    simp [Text.trimEnd, show Text.isBlank ']' = false by decide]
  rw [Text.trim_cons_of_blank (by decide), Text.trim, Text.trimStart, List.dropWhile_append,
    if_neg (by simpa [Text.trimStart] using hstart)]
  simpa [Text.trimStart] using hend (Text.trimStart description ++ ' ' :: '[' :: bracketed)

/-- White space around a description does not matter. -/
theorem trim_trimStart_concat (description : List Char) :
    Text.trim (Text.trimStart description ++ [' ']) = Text.trim description := by
  rw [Text.trim, Text.trim]
  cases hstart : Text.trimStart description with
  | nil => decide
  | cons first rest =>
    have hfirst : Text.isBlank first = false :=
      Text.head?_dropWhile_stop Text.isBlank description (by rw [← Text.trimStart, hstart]; rfl)
    simp [Text.trimStart, Text.trimEnd, hfirst, show Text.isBlank ' ' = true by decide]

/-- A line with a description and a text in brackets says what is read from them. -/
theorem describes_bracketed_iff {description bracketed path said : String}
    (hbracket : '[' ∉ description.toList)
    (hblank : ∃ c ∈ description.toList, Text.isBlank c = false) :
    Describes (subApiMarker ++ " " ++ description ++ " [" ++ bracketed ++ "]") path said ↔
      ∃ captured, ReadsAs description.toList bracketed.toList captured path.toList ∧
        said = String.ofList (Text.trim captured) := by
  have hpiece : '[' ∉ Text.trimStart description.toList ++ [' '] := by
    intro hmem
    rcases List.mem_append.1 hmem with hmem | hmem
    · exact hbracket ((List.dropWhile_sublist _).subset hmem)
    · simp at hmem
  have hcaptures : ∀ captured, Captures (Text.trim (' ' :: (description.toList ++
      ' ' :: '[' :: (bracketed.toList ++ [']'])))) captured path.toList ↔
      ReadsAs (Text.trimStart description.toList ++ [' ']) bracketed.toList captured path.toList := by
    intro captured
    rw [trim_bracketed _ hblank, captures_bracketed_iff (by simp) hpiece]
  constructor
  · rintro ⟨rest, captured, hline, hcaptured, rfl⟩
    obtain rfl : ' ' :: (description.toList ++ ' ' :: '[' :: (bracketed.toList ++ [']'])) = rest := by
      simpa [String.toList_append] using hline
    cases (hcaptures captured).1 hcaptured with
    | start htext hne hpath hbehind =>
      exact ⟨_, .start htext hne hpath hbehind, by rw [trim_trimStart_concat]⟩
    | within hhead hwithin => exact ⟨captured, .within hhead hwithin, rfl⟩
  · rintro ⟨captured, hreads, rfl⟩
    have hline : (subApiMarker ++ " " ++ description ++ " [" ++ bracketed ++ "]").toList =
        subApiMarker.toList ++ ' ' :: (description.toList ++
          ' ' :: '[' :: (bracketed.toList ++ [']'])) := by
      simp [String.toList_append]
    cases hreads with
    | start htext hne hpath hbehind =>
      exact ⟨_, _, hline, (hcaptures _).2 (.start htext hne hpath hbehind),
        by rw [trim_trimStart_concat]⟩
    | within hhead hwithin =>
      exact ⟨_, captured, hline, (hcaptures captured).2 (.within hhead hwithin), rfl⟩

namespace ResourceListing

/-- **A line describes the resource that it names exactly if its brackets hold a path, or nothing
that can be read as one.** What is read from the description and the brackets decides which
references get which description, and nothing else changes. References whose path is not the text
in the brackets are left alone in every listing if and only if that text is a path from its first
character to its last, or no path is read at all. -/
theorem applySubApi_frame_iff (description bracketed : String)
    (hbracket : '[' ∉ description.toList)
    (hblank : ∃ c ∈ description.toList, Text.isBlank c = false) :
    let line := subApiMarker ++ " " ++ description ++ " [" ++ bracketed ++ "]"
    (∀ captured path, ReadsAs description.toList bracketed.toList captured path →
      ∀ listing : ResourceListing, (listing.applySubApi line).1 = { listing with
        apis := describeResource (String.ofList path) (String.ofList (Text.trim captured)) listing.apis }) ∧
    ((∀ captured path, ¬ ReadsAs description.toList bracketed.toList captured path) →
      ∀ listing : ResourceListing, (listing.applySubApi line).1 = listing) ∧
    ((∀ (listing : ResourceListing) (i : Nat) (reference : ResourceRef),
        listing.apis[i]? = some reference → reference.path ≠ bracketed →
        (listing.applySubApi line).1.apis[i]? = some reference) ↔
      (∀ c ∈ bracketed.toList, isPathChar c = true) ∨
        ∀ captured path, ¬ ReadsAs description.toList bracketed.toList captured path) := by
  intro line
  have hreads : ∀ captured path, ReadsAs description.toList bracketed.toList captured path →
      ∀ listing : ResourceListing, (listing.applySubApi line).1 = { listing with
        apis := describeResource (String.ofList path) (String.ofList (Text.trim captured)) listing.apis } := by
    intro captured path h listing
    refine applySubApi_of_describes listing ((describes_bracketed_iff hbracket hblank).2 ⟨captured, ?_, rfl⟩)
    rwa [String.toList_ofList]
  have hsilent : (∀ captured path, ¬ ReadsAs description.toList bracketed.toList captured path) →
      ∀ listing : ResourceListing, (listing.applySubApi line).1 = listing := by
    intro h listing
    refine applySubApi_of_silent listing fun path said hdescribes => ?_
    obtain ⟨captured, hcaptured, -⟩ := (describes_bracketed_iff hbracket hblank).1 hdescribes
    exact h captured path.toList hcaptured
  refine ⟨hreads, hsilent, fun hframe => ?_, fun h listing i reference href hpath => ?_⟩
  · rw [or_iff_not_imp_right]
    intro hread
    obtain ⟨captured, path, h⟩ : ∃ captured path,
        ReadsAs description.toList bracketed.toList captured path := by
      simpa using hread
    -- a reference to what is read, with another description, would be changed
    have hpath : String.ofList path = bracketed := by
      by_contra hpath
      let reference : ResourceRef :=
        { path := String.ofList path, description := String.ofList (Text.trim captured) ++ "!" }
      have := hframe { apis := [reference] } 0 reference rfl hpath
      rw [hreads captured path h] at this
      have hsaid : String.ofList (Text.trim captured) = String.ofList (Text.trim captured) ++ "!" := by
        simpa [describeResource, reference] using this
      have := congrArg String.length hsaid
      simp at this
    rw [← hpath, String.toList_ofList] at h ⊢
    exact isPathChar_of_readsAs h
  · by_cases hread : ∀ captured path, ¬ ReadsAs description.toList bracketed.toList captured path
    · rw [hsilent hread]
      exact href
    · obtain ⟨captured, path, hsaid⟩ : ∃ captured path,
          ReadsAs description.toList bracketed.toList captured path := by
        simpa using hread
      obtain rfl := eq_of_readsAs_path (h.resolve_right hread) hsaid
      rw [hreads _ _ hsaid, String.ofList_toList]
      simp [describeResource, href, hpath]

/-- The version in the brackets is no part of a path, so the line describes the resource in front of
the version, and the one with the version keeps its description. -/
theorem applySubApi_frame_iff_versioned :
    let line := "@SubApi The second version [/users.v2]"
    let listing : ResourceListing := { apis := [⟨"/users", "All users"⟩, ⟨"/users.v2", "Users"⟩] }
    (listing.applySubApi line).1.apis =
        [⟨"/users", "The second version"⟩, ⟨"/users.v2", "Users"⟩] ∧
      ¬ ∀ (listing : ResourceListing) (i : Nat) (reference : ResourceRef),
        listing.apis[i]? = some reference → reference.path ≠ "/users.v2" →
        (listing.applySubApi line).1.apis[i]? = some reference := by
  intro line listing
  have hline : subApiMarker ++ " " ++ "The second version" ++ " [" ++ "/users.v2" ++ "]" = line := by
    decide
  have hpath : "/users".toList.all isPathChar = true := by decide
  have hversion : ".v2".toList.head? = some '.' := by decide
  have hreads : ReadsAs "The second version".toList "/users.v2".toList "The second version".toList
      "/users".toList := by
    refine .start (show "/users.v2".toList = "/users".toList ++ ".v2".toList by decide) (by decide)
      (List.all_eq_true.1 hpath) fun c hc => ?_
    obtain rfl := Option.some.inj (hversion.symm.trans hc)
    decide
  obtain ⟨hread, -, hframe⟩ := applySubApi_frame_iff "The second version" "/users.v2" (by decide)
    ⟨'T', by decide, by decide⟩
  rw [hline] at hframe
  refine ⟨?_, fun h => ?_⟩
  · rw [← hline, hread _ _ hreads listing]
    decide
  · rcases hframe.1 h with hpath | hsilent
    · exact absurd (hpath '.' (by decide)) (by decide)
    · exact hsilent _ _ hreads

end ResourceListing
end ApiDocs.Swagger
