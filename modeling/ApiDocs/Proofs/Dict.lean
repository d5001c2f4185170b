/-
  ApiDocs.Proofs.Dict

  Dictionaries as finite functions: what a key is given after an entry or a whole dictionary
  has been put over another one, and which keys and values are listed. `unseen` counts the
  keys that a search through finitely many has left; it bounds how deep such a search goes.
-/

import ApiDocs.Dict

namespace ApiDocs.Dict

variable {α : Type}

theorem getElem?_insert (d : Dict α) (k a : String) (v : α) :
    (d.insert k v)[a]? = if k = a then some v else d[a]? := by
  rw [Std.ExtTreeMap.getElem?_insert]
  simp only [Std.compare_eq_iff_eq]

@[simp] theorem getElem?_insert_self (d : Dict α) (k : String) (v : α) :
    (d.insert k v)[k]? = some v := by
  rw [getElem?_insert, if_pos rfl]

theorem getElem?_insert_ne (d : Dict α) {k a : String} (v : α) (h : k ≠ a) :
    (d.insert k v)[a]? = d[a]? := by
  rw [getElem?_insert, if_neg h]

theorem mem_iff_getElem? {d : Dict α} {k : String} : k ∈ d ↔ ∃ v, d[k]? = some v := by
  rw [Std.ExtTreeMap.mem_iff_isSome_getElem?, Option.isSome_iff_exists]

theorem contains_iff {d : Dict α} {k : String} : d.contains k = true ↔ k ∈ d :=
  Std.ExtTreeMap.contains_iff_mem

theorem mem_insert_iff {d : Dict α} {k a : String} {v : α} : a ∈ d.insert k v ↔ k = a ∨ a ∈ d := by
  rw [Std.ExtTreeMap.mem_insert, Std.compare_eq_iff_eq]

theorem mem_contents {d : Dict α} {k : String} {v : α} (h : d[k]? = some v) : v ∈ d.contents :=
  List.mem_map.2 ⟨(k, v), Std.ExtTreeMap.mem_toList_iff_getElem?_eq_some.2 h, rfl⟩

/-- Dictionaries with the same keys that give each key the same value. -/
theorem ext_of_mem {d d' : Dict α} (hmem : ∀ k, k ∈ d ↔ k ∈ d')
    (heq : ∀ (k : String) (v v' : α), d[k]? = some v → d'[k]? = some v' → v = v') : d = d' := by
  apply Std.ExtTreeMap.ext_getElem?
  intro k
  cases h : d[k]? with
  | some v =>
    obtain ⟨v', h'⟩ := mem_iff_getElem?.1 ((hmem k).1 (mem_iff_getElem?.2 ⟨v, h⟩))
    rw [h', heq k v v' h h']
  | none =>
    cases h' : d'[k]? with
    | none => rfl
    | some v' =>
      obtain ⟨v, hv⟩ := mem_iff_getElem?.1 ((hmem k).2 (mem_iff_getElem?.2 ⟨v', h'⟩))
      rw [h] at hv
      cases hv

/-! ## One dictionary over another -/

/-- Things put in one after the other, each under its key if it has one: the last one with a
key counts. -/
theorem getElem?_foldl {β : Type} (put : Dict α → β → Dict α) (key? : β → Option String)
    (value : β → α)
    (hput : ∀ (d : Dict α) (b : β) (a : String),
      (put d b)[a]? = if key? b = some a then some (value b) else d[a]?)
    (l : List β) (base : Dict α) (a : String) :
    (l.foldl put base)[a]? =
      ((l.reverse.find? fun b => key? b = some a).map value).or base[a]? := by
  induction l generalizing base with
  | nil => rfl
  | cons b l ih =>
    rw [List.foldl_cons, ih, hput, List.reverse_cons, List.find?_append]
    cases hf : l.reverse.find? fun b => key? b = some a with
    | some found => rfl
    | none =>
      by_cases hb : key? b = some a
      · simp [hb]
      · simp [hb]

/-- Entries put in one after the other. -/
theorem getElem?_foldl_insert (l : List (String × α)) (base : Dict α) (a : String) :
    (l.foldl (fun d (key, value) => d.insert key value) base)[a]? =
      ((l.reverse.find? (fun entry => entry.1 = a)).map (·.2)).or base[a]? := by
  have h := getElem?_foldl (fun (d : Dict α) entry => d.insert entry.1 entry.2)
    (fun entry => some entry.1) (fun entry => entry.2)
    (fun d entry a => by simp only [getElem?_insert, Option.some.injEq]) l base a
  simpa only [Option.some.injEq] using h

/-- The entries of the second dictionary count, and those of the first for all other keys. -/
theorem getElem?_extend (base other : Dict α) (a : String) :
    (base.extend other)[a]? = other[a]?.or base[a]? := by
  rw [extend, getElem?_foldl_insert]
  congr 1
  cases hf : other.toList.reverse.find? (fun entry => entry.1 = a) with
  | none =>
    cases ho : other[a]? with
    | none => rfl
    | some v =>
      have hm := Std.ExtTreeMap.mem_toList_iff_getElem?_eq_some.2 ho
      have := List.find?_eq_none.1 hf (a, v) (List.mem_reverse.2 hm)
      simp at this
  | some entry =>
    have hkey : entry.1 = a := by simpa using List.find?_some hf
    have hm : (entry.1, entry.2) ∈ other.toList := List.mem_reverse.1 (List.mem_of_find?_eq_some hf)
    have := Std.ExtTreeMap.mem_toList_iff_getElem?_eq_some.1 hm
    rw [hkey] at this
    rw [this]
    rfl

/-- A dictionary is made of its own entries. -/
theorem ofEntries_toList (d : Dict α) : ofEntries d.toList = d := by
  apply Std.ExtTreeMap.ext_getElem?
  intro k
  have hextend : (ofEntries d.toList)[k]? = d[k]?.or (∅ : Dict α)[k]? := getElem?_extend ∅ d k
  rw [hextend, Std.ExtTreeMap.getElem?_empty, Option.or_none]

theorem mem_extend {base other : Dict α} {a : String} :
    a ∈ base.extend other ↔ a ∈ other ∨ a ∈ base := by
  rw [mem_iff_getElem?, mem_iff_getElem?, mem_iff_getElem?, getElem?_extend]
  cases other[a]? <;> simp

/-! ## Running out of keys -/

/-- How many of the listed keys have not been seen yet. -/
def unseen (keys : List String) (seen : String → Bool) : Nat :=
  keys.countP fun key => !seen key

variable {keys : List String} {seen seen' : String → Bool}

theorem unseen_le_length (keys : List String) (seen : String → Bool) : unseen keys seen ≤ keys.length :=
  List.countP_le_length

theorem unseen_mono (h : ∀ key, seen key = true → seen' key = true) :
    unseen keys seen' ≤ unseen keys seen := by
  refine List.countP_mono_left fun key _ hk => ?_
  cases hs : seen key with
  | false => rfl
  | true =>
    rw [h key hs] at hk
    cases hk

/-- Seeing one more of the keys leaves fewer. -/
theorem unseen_lt (h : ∀ key, seen key = true → seen' key = true) {key : String} (hkey : key ∈ keys)
    (hs : seen key = false) (hs' : seen' key = true) : unseen keys seen' < unseen keys seen := by
  obtain ⟨before, behind, rfl⟩ := List.append_of_mem hkey
  have hbefore : unseen before seen' ≤ unseen before seen := unseen_mono h
  have hbehind : unseen behind seen' ≤ unseen behind seen := unseen_mono h
  simp only [unseen, List.countP_append, List.countP_cons, hs, hs'] at *
  simp only [Bool.not_true, Bool.not_false, Bool.false_eq_true, if_true, if_false]
  omega

end ApiDocs.Dict
