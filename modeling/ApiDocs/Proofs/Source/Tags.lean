/-
  ApiDocs.Proofs.Source.Tags

  Looking up the keys of a struct tag. A tag spells entries if it consists of them, in order, with
  any white space around them or none (`Tag.Spells`). A search goes through a tag turn by turn
  (`Tag.Search.turn`): it ends at an entry with the key, at the end of the tag and where no entry
  stands, and else it goes on behind the entry, where less of the tag is left.

  Main statement: of the entries that a tag spells, the first one with a key gives its value, and
  in any tag the search comes to an end (`FieldOf.tagValue_first_entry`).
-/

import ApiDocs.Proofs.Text
import ApiDocs.Source.TypeExpr
import Mathlib.Logic.Function.Iterate

namespace ApiDocs.Source
namespace Tag

/-- An entry that can be told apart from what stands around it. -/
structure Entry where
  key : String
  value : String
  /-- The first colon is the one behind the key. -/
  colon_not_mem : ':' ∉ key.toList
  /-- White space before the entry is not of the key. -/
  head_not_blank : ∀ c ∈ key.toList.head?, Text.isBlank c = false
  /-- The first quote behind the opening one closes the value. -/
  quote_not_mem : '"' ∉ value.toList

/-- The entry as written, `key:"value"`. -/
def Entry.text (entry : Entry) : List Char :=
  entry.key.toList ++ ':' :: '"' :: (entry.value.toList ++ ['"'])

/-- The tag spells the entries, with white space around them. -/
inductive Spells : List Entry → List Char → Prop where
  | nil {blanks : List Char} (h : ∀ c ∈ blanks, Text.isBlank c = true) : Spells [] blanks
  | cons {entry : Entry} {entries : List Entry} {blanks rest : List Char}
      (hblanks : ∀ c ∈ blanks, Text.isBlank c = true) (h : Spells entries rest) :
      Spells (entry :: entries) (blanks ++ (entry.text ++ rest))

/-- Where a search in a tag stands. -/
inductive Search where
  /-- This is left of the tag. -/
  | going (rest : List Char)
  /-- The search has come to an answer. -/
  | ended (answer : Option (List Char))

/-- One turn of the search for a key. -/
def Search.turn (key : List Char) : Search → Search
  | going [] => ended none
  | going (c :: cs) =>
    match entry? (c :: cs) with
    | none => ended none
    | some (name, value, rest) =>
      if name = key then ended (some value) else going (Text.trimStart rest)
  | ended answer => ended answer

/-! ## Entries -/

/-- The entry at the head of a tag is read as it was written, whatever follows it. -/
theorem entry?_text (entry : Entry) (rest : List Char) :
    entry? (entry.text ++ rest) = some (entry.key.toList, entry.value.toList, rest) := by
  have hkey : Text.splitFirst (· = ':') (entry.text ++ rest) =
      some (entry.key.toList, '"' :: (entry.value.toList ++ '"' :: rest)) := by
    refine Text.splitFirst_eq_some_iff.2 ⟨':', by decide, fun c hc => ?_, by simp [Entry.text]⟩
    exact decide_eq_false fun hcolon => entry.colon_not_mem (hcolon ▸ hc)
  have hvalue : Text.splitFirst (· = '"') (entry.value.toList ++ '"' :: rest) =
      some (entry.value.toList, rest) := by
    refine Text.splitFirst_eq_some_iff.2 ⟨'"', by decide, fun c hc => ?_, rfl⟩
    exact decide_eq_false fun hquote => entry.quote_not_mem (hquote ▸ hc)
  unfold entry?
  simp [hkey, hvalue]

theorem trimStart_text (entry : Entry) {blanks : List Char}
    (hblanks : ∀ c ∈ blanks, Text.isBlank c = true) (rest : List Char) :
    Text.trimStart (blanks ++ (entry.text ++ rest)) = entry.text ++ rest := by
  refine Text.dropWhile_append_stop hblanks fun c hc => ?_
  -- the entry starts with its key, or with the colon behind an empty key
  rw [Entry.text] at hc
  cases hkey : entry.key.toList with
  | nil =>
    rw [hkey] at hc
    obtain rfl : ':' = c := Option.some.inj hc
    decide
  | cons first key =>
    rw [hkey] at hc
    obtain rfl : first = c := Option.some.inj hc
    exact entry.head_not_blank first (by rw [hkey]; rfl)

/-! ## Lookup -/

section Lookup

variable {key tag : List Char}

theorem lookup_of_none (h : entry? (Text.trimStart tag) = none) : lookup key tag = none := by
  rw [lookup]
  split
  · rfl
  · rename_i hentry
    rw [h] at hentry
    cases hentry

theorem lookup_of_some {name value rest : List Char}
    (h : entry? (Text.trimStart tag) = some (name, value, rest)) :
    lookup key tag = if name = key then some value else lookup key rest := by
  rw [lookup]
  split
  · rename_i hentry
    rw [h] at hentry
    cases hentry
  · rename_i hentry
    rw [h] at hentry
    cases hentry
    rfl

end Lookup

/-- The first entry with the key gives its value. -/
theorem lookup_of_spells {entries : List Entry} {tag : List Char} (h : Spells entries tag)
    (key : String) :
    lookup key.toList tag =
      (entries.find? fun entry => entry.key = key).map fun entry => entry.value.toList := by
  induction h with
  | @nil blanks hblanks =>
    have hnothing : Text.trimStart blanks = [] := List.dropWhile_eq_nil_iff.2 hblanks
    rw [lookup_of_none (by rw [hnothing]; rfl)]
    rfl
  | @cons entry entries blanks rest hblanks _ ih =>
    have hentry := entry?_text entry rest
    rw [← trimStart_text entry hblanks] at hentry
    rw [lookup_of_some hentry, ih, List.find?_cons]
    by_cases hkey : entry.key = key
    · simp [hkey]
    · simp [hkey, String.toList_inj]

/-! ## The search comes to an end -/

section Turn

variable {key rest : List Char}

theorem turn_of_none (h : entry? rest = none) :
    Search.turn key (.going rest) = .ended none := by
  cases rest with
  | nil => rfl
  | cons c cs => rw [Search.turn, h]

theorem turn_of_some {name value behind : List Char} (h : entry? rest = some (name, value, behind)) :
    Search.turn key (.going rest) =
      if name = key then .ended (some value) else .going (Text.trimStart behind) := by
  cases rest with
  | nil => cases h
  | cons c cs => rw [Search.turn, h]

end Turn

/-- The search has the answer of the lookup after no more turns than the tag has characters, and
one. Each turn but the last one takes an entry off the tag. -/
theorem exists_turns (key tag : List Char) :
    ∃ n ≤ tag.length + 1,
      (Search.turn key)^[n] (.going (Text.trimStart tag)) = .ended (lookup key tag) := by
  fun_induction lookup key tag with
  | case1 tag hentry => exact ⟨1, by omega, turn_of_none hentry⟩
  | case2 tag value rest hentry =>
    refine ⟨1, by omega, ?_⟩
    rw [Function.iterate_one, turn_of_some hentry, if_pos rfl]
  | case3 tag name value rest hentry hname ih =>
    obtain ⟨n, hn, hturns⟩ := ih
    have hshorter := length_of_entry? hentry
    have htrim : (Text.trimStart tag).length ≤ tag.length :=
      (List.dropWhile_suffix Text.isBlank).length_le
    refine ⟨n + 1, by omega, ?_⟩
    rw [Function.iterate_succ_apply, turn_of_some hentry, if_neg hname, hturns]

end Tag

/-- **A tag is searched for the first entry with a key.** If the tag of a field spells entries, a
key has the value of the first entry with this key, and no value if there is none. Whatever the tag
is, the search comes to an end, after at most one turn more than the tag has characters. -/
theorem FieldOf.tagValue_first_entry {type : Type} (field : FieldOf type) (tag key : String)
    (htag : field.tag = some tag) :
    (∀ entries, Tag.Spells entries tag.toList →
      field.tagValue? key = (entries.find? fun entry => entry.key = key).map Tag.Entry.value) ∧
    ∃ n ≤ tag.toList.length + 1,
      (Tag.Search.turn key.toList)^[n] (.going (Text.trimStart tag.toList)) =
        .ended ((field.tagValue? key).map String.toList) := by
  have hvalue : field.tagValue? key = (Tag.lookup key.toList tag.toList).map String.ofList := by
    rw [tagValue?, htag]
    rfl
  constructor
  · intro entries hspells
    rw [hvalue, Tag.lookup_of_spells hspells, Option.map_map]
    congr 1
    funext entry
    exact String.ofList_toList
  · obtain ⟨n, hn, hturns⟩ := Tag.exists_turns key.toList tag.toList
    refine ⟨n, hn, ?_⟩
    rw [hturns, hvalue, Option.map_map]
    congr 1
    cases Tag.lookup key.toList tag.toList <;> simp

/-- A value that looks like another entry, no blank between two entries, and a key given twice. -/
theorem FieldOf.tagValue_first_entry_twice :
    let tag := " a:\"json:x, y\"json:\"-\"\tjson:\"z\" "
    let field : FieldOf Unit := ⟨["F"], (), some tag, none⟩
    (∃ entries, Tag.Spells entries tag.toList ∧
      entries.map (fun entry => (entry.key, entry.value)) =
        [("a", "json:x, y"), ("json", "-"), ("json", "z")]) ∧
      field.tagValue? "json" = some "-" ∧ field.tagValue? "x" = none ∧
      ∃ n ≤ tag.toList.length + 1,
        (Tag.Search.turn "x".toList)^[n] (.going (Text.trimStart tag.toList)) = .ended none := by
  intro tag field
  have ha : ∀ c ∈ "a".toList.head?, Text.isBlank c = false := by
    intro c hc
    obtain rfl : 'a' = c := Option.some.inj hc
    decide
  have hj : ∀ c ∈ "json".toList.head?, Text.isBlank c = false := by
    intro c hc
    obtain rfl : 'j' = c := Option.some.inj hc
    decide
  let first : Tag.Entry := ⟨"a", "json:x, y", by decide, ha, by decide⟩
  let second : Tag.Entry := ⟨"json", "-", by decide, hj, by decide⟩
  let third : Tag.Entry := ⟨"json", "z", by decide, hj, by decide⟩
  have htag : tag.toList =
      [' '] ++ (first.text ++ ([] ++ (second.text ++ (['\t'] ++ (third.text ++ [' ']))))) := by
    simp only [Tag.Entry.text, first, second, third]
    decide
  have hblank : ∀ c ∈ [' '], Text.isBlank c = true := List.all_eq_true.1 rfl
  have htab : ∀ c ∈ ['\t'], Text.isBlank c = true := List.all_eq_true.1 rfl
  have hspells : Tag.Spells [first, second, third] tag.toList := by
    rw [htag]
    exact .cons hblank (.cons (List.all_eq_true.1 rfl) (.cons htab (.nil hblank)))
  have hjson := tagValue_first_entry field tag "json" rfl
  obtain ⟨hvalue, hends⟩ := tagValue_first_entry field tag "x" rfl
  have hnone : field.tagValue? "x" = none := hvalue _ hspells
  rw [hnone] at hends
  exact ⟨⟨_, hspells, rfl⟩, hjson.1 _ hspells, hnone, hends⟩

end ApiDocs.Source
