/-
  ApiDocs.Source.Tag

  Struct tags of the conventional form `key:"value" key:"value" …`.
-/

import ApiDocs.Text.Basic

namespace ApiDocs.Source.Tag

/-- The entry at the head of a tag: its key, its value, and the tag after it. -/
def entry? (cs : List Char) : Option (List Char × List Char × List Char) :=
  match Text.splitFirst (· = ':') cs with
  | some (key, '"' :: quoted) =>
    (Text.splitFirst (· = '"') quoted).map fun (value, rest) => (key, value, rest)
  | _ => none

theorem length_of_entry? {cs key value rest : List Char} (h : entry? cs = some (key, value, rest)) :
    rest.length < cs.length := by
  unfold entry? at h
  split at h
  · next k q hk =>
    obtain ⟨⟨v, r⟩, hv, he⟩ := Option.map_eq_some_iff.1 h
    simp only [Prod.mk.injEq] at he
    obtain ⟨rfl, rfl, rfl⟩ := he
    obtain ⟨_, -, hcs⟩ := Text.append_of_splitFirst hk
    obtain ⟨_, -, hq⟩ := Text.append_of_splitFirst hv
    rw [hcs, hq]
    simp only [List.length_append, List.length_cons]
    omega
  · simp at h

/-- The value of the first entry with this key. Entries after one that is not of the
conventional form are not seen. -/
def lookup (key tag : List Char) : Option (List Char) :=
  match _h : entry? (Text.trimStart tag) with
  | none => none
  | some (name, value, rest) => if name = key then some value else lookup key rest
termination_by tag.length
decreasing_by
  have hl := length_of_entry? _h
  have hd := (List.dropWhile_suffix Text.isBlank (l := tag)).length_le
  simp only [Text.trimStart] at hl
  omega

/-- The value that a tag gives to `key`. -/
def value? (tag key : String) : Option String :=
  (lookup key.toList tag.toList).map String.ofList

end ApiDocs.Source.Tag
