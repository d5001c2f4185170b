/-
  ApiDocs.Proofs.Json.RoundTrip

  Written JSON is read back. The reader takes a string apart into the characters it was escaped
  from (`readString_quote`), a number into the digits it was written with (`readNumber_toDigits`),
  and from these, by induction on the value, a whole text into the value it was rendered from
  (`parse?_render`).
-/

import ApiDocs.Json.Reader
import ApiDocs.Json.Writer
import ApiDocs.Proofs.Text

namespace ApiDocs.Json

/-- A value that its text determines: it holds neither numbers that are kept as they were written
nor strings that denote no text. -/
inductive Plain : Json → Prop where
  | null : Plain .null
  | bool (b : Bool) : Plain (.bool b)
  | natural (n : Nat) : Plain (.natural n)
  | string (s : String) : Plain (.string s)
  | array {items : List Json} (h : ∀ item ∈ items, Plain item) : Plain (.array items)
  | object {members : List (String × Json)} (h : ∀ member ∈ members, Plain member.2) :
      Plain (.object members)

attribute [simp] Plain.string Plain.bool Plain.natural

/-! ## Blanks -/

theorem skipBlanks_newline (level : Nat) (cs : List Char) :
    skipBlanks (newline level ++ cs) = skipBlanks cs := by
  rw [newline, skipBlanks, skipBlanks, List.dropWhile_append_of_pos]
  intro c hc
  rcases List.mem_cons.1 hc with rfl | hc
  · rfl
  · rw [List.eq_of_mem_replicate hc]
    rfl

/-- A character that is no blank alone is none in front of others. -/
theorem skipBlanks_cons {c : Char} (h : skipBlanks [c] = [c]) (cs : List Char) :
    skipBlanks (c :: cs) = c :: cs := by
  rw [skipBlanks] at h ⊢
  rw [List.dropWhile_cons] at h ⊢
  split at h
  · simp at h
  · rename_i hblank
    rw [if_neg hblank]

theorem skipBlanks_space (cs : List Char) : skipBlanks (' ' :: cs) = skipBlanks cs := rfl

theorem skipBlanks_comma (cs : List Char) : skipBlanks (',' :: cs) = ',' :: cs := rfl

theorem skipBlanks_colon (cs : List Char) : skipBlanks (':' :: cs) = ':' :: cs := rfl

/-! ## Strings -/

/-- The hexadecimal digits of a control character. -/
theorem hexWord?_control :
    ∀ n < 0x20, hexWord? '0' '0' (hexDigit (n / 16)) (hexDigit n) = some n := by
  decide

/-- A one-letter escape. -/
theorem stringUnits_short {e c : Char} (he : e ≠ 'u') (h : shortEscape? e = some c)
    (rest : List Char) :
    stringUnits ('\\' :: e :: rest) =
      (stringUnits rest).map fun units => (c.toNat :: units.1, units.2) := by
  rw [stringUnits]
  · rw [h]
    cases stringUnits rest <;> rfl
  · intro a b c d rest' hu
    exact absurd hu he

/-- A character that stands for itself. -/
theorem stringUnits_plain {c : Char} (hquote : c ≠ '"') (hbackslash : c ≠ '\\')
    (hcontrol : ¬c.toNat < 0x20) (rest : List Char) :
    stringUnits (c :: rest) =
      (stringUnits rest).map fun units => (c.toNat :: units.1, units.2) := by
  have hplain : (decide (c = '\\') || decide (c.toNat < 0x20)) = false := by
    simpa using ⟨hbackslash, Nat.le_of_not_lt hcontrol⟩
  rw [stringUnits]
  · rw [hplain, if_neg Bool.false_ne_true]
    cases stringUnits rest <;> rfl
  · exact hquote
  · intro _ _ _ _ _ hc _
    exact hbackslash hc
  · intro _ _ hc _
    exact hbackslash hc

/-- One character of a string. -/
theorem stringUnits_escapeChar (c : Char) (rest : List Char) :
    stringUnits (escapeChar c ++ rest) =
      (stringUnits rest).map fun units => (c.toNat :: units.1, units.2) := by
  unfold escapeChar
  split
  case h_8 hquote hbackslash _ _ _ _ _ =>
    split
    · rename_i hcontrol
      simp only [List.cons_append, List.nil_append]
      rw [stringUnits, hexWord?_control _ hcontrol]
      cases stringUnits rest <;> rfl
    · rename_i hcontrol
      exact stringUnits_plain hquote hbackslash hcontrol rest
  all_goals exact stringUnits_short (by decide) rfl rest

/-- The code points of a written string. -/
theorem stringUnits_flatMap (cs rest : List Char) :
    stringUnits (cs.flatMap escapeChar ++ '"' :: rest) = some (cs.map Char.toNat, rest) := by
  induction cs with
  | nil => rfl
  | cons c cs ih =>
    rw [List.flatMap_cons, List.append_assoc, stringUnits_escapeChar, ih]
    rfl

/-- No character is half of a surrogate pair. -/
theorem joinSurrogates?_map_toNat (cs : List Char) :
    joinSurrogates? (cs.map Char.toNat) = some cs := by
  induction cs with
  | nil => rfl
  | cons c cs ih =>
    -- surrogates are no characters
    have hvalid : c.toNat < 0xD800 ∨ 0xDFFF < c.toNat := by
      rcases c.valid with h | h
      · exact .inl h
      · exact .inr h.1
    have hhigh : isHighSurrogate c.toNat = false := by
      rw [isHighSurrogate, Bool.and_eq_false_iff, decide_eq_false_iff_not, decide_eq_false_iff_not]
      omega
    have hlow : isLowSurrogate c.toNat = false := by
      rw [isLowSurrogate, Bool.and_eq_false_iff, decide_eq_false_iff_not, decide_eq_false_iff_not]
      omega
    rw [List.map_cons, joinSurrogates?.eq_def]
    simp [hhigh, hlow, ih]

/-- A string is read up to its closing mark. -/
theorem readString_quote (s : String) (rest : List Char) :
    ∃ cs, quote s ++ rest = '"' :: cs ∧ readString cs = some (some s, rest) := by
  refine ⟨s.toList.flatMap escapeChar ++ '"' :: rest, by simp [quote], ?_⟩
  simp [readString, stringUnits_flatMap, joinSurrogates?_map_toNat]

/-! ## Numbers -/

/-- What follows does not go on with a number. -/
def Stops (rest : List Char) : Prop :=
  ∀ c ∈ rest.head?, c.isDigit = false ∧ c ≠ '.' ∧ c ≠ 'e' ∧ c ≠ 'E'

/-- A digit is none of the characters with a meaning of their own. -/
theorem ne_of_isDigit {c d : Char} (hc : c.isDigit = true) (hd : d.isDigit = false) : c ≠ d := by
  rintro rfl
  exact absurd hc (by simp [hd])

theorem exists_toDigits (n : Nat) : ∃ d ds, Nat.toDigits 10 n = d :: ds ∧ d.isDigit = true := by
  obtain ⟨d, ds, hdigits⟩ := List.exists_cons_of_ne_nil (Nat.toDigits_ne_nil (n := n) (b := 10))
  refine ⟨d, ds, hdigits, ?_⟩
  exact Nat.isDigit_of_mem_toDigits (by omega) (by omega) (hdigits ▸ List.mem_cons_self)

/-- Only zero is written with a leading zero. -/
theorem head?_toDigits {n : Nat} (h : 0 < n) : (Nat.toDigits 10 n).head? ≠ some '0' := by
  induction n using Nat.strongRecOn with
  | ind n ih =>
    by_cases hlt : n < 10
    · rw [Nat.toDigits_of_lt_base hlt]
      have hdigits : ∀ m < 10, 0 < m → [Nat.digitChar m].head? ≠ some '0' := by decide
      exact hdigits n hlt h
    · -- the leading digit is that of all digits but the last
      have hhead := ih (n / 10) (by omega) (by omega)
      obtain ⟨d, ds, hdigits, -⟩ := exists_toDigits (n / 10)
      rw [Nat.toDigits_of_base_le (by omega) (by omega), List.head?_append]
      rw [hdigits] at hhead ⊢
      exact hhead

theorem integerPart?_toDigits (n : Nat) {rest : List Char} (h : Stops rest) :
    integerPart? (Nat.toDigits 10 n ++ rest) = some (Nat.toDigits 10 n, rest) := by
  have hrun : ∀ c ∈ Nat.toDigits 10 n, c.isDigit = true := fun c hc =>
    Nat.isDigit_of_mem_toDigits (by omega) (by omega) hc
  have hstop : ∀ c ∈ rest.head?, c.isDigit = false := fun c hc => (h c hc).1
  have hdigits : digits1? (Nat.toDigits 10 n ++ rest) = some (Nat.toDigits 10 n, rest) := by
    rw [digits1?, Text.takeWhile_append_stop hrun hstop, Text.dropWhile_append_stop hrun hstop]
    simp
  rcases Nat.eq_zero_or_pos n with rfl | hpos
  · rfl
  · have hhead := head?_toDigits hpos
    obtain ⟨d, ds, hdigit, -⟩ := exists_toDigits n
    rw [hdigit] at hdigits hhead ⊢
    rw [List.cons_append, integerPart?]
    · exact hdigits
    · intro _ hzero
      exact hhead (congrArg some (List.cons.inj hzero).1)

/-- A natural number is read up to its last digit. -/
theorem readNumber_toDigits (n : Nat) {rest : List Char} (h : Stops rest) :
    readNumber (Nat.toDigits 10 n ++ rest) = some (natural n, rest) := by
  have hinteger := integerPart?_toDigits n h
  have hfraction : fractionPart? rest = some ([], rest) := by
    cases rest with
    | nil => rfl
    | cons c rest =>
      rw [fractionPart?]
      intro _ hpoint
      exact (h c rfl).2.1 (List.cons.inj hpoint).1
  have hexponent : exponentPart? rest = some ([], rest) := by
    cases rest with
    | nil => rfl
    | cons c rest => simp [exponentPart?, h c rfl]
  obtain ⟨d, ds, hdigit, hd⟩ := exists_toDigits n
  rw [hdigit, List.cons_append] at hinteger
  rw [hdigit, List.cons_append, readNumber]
  · simp only [hinteger, hfraction, hexponent, Option.bind_eq_bind, Option.bind_some]
    rw [← hdigit, Nat.ofDigitChars_ten_toDigits]
    rfl
  · -- a digit is no sign
    intro _ hsign
    exact ne_of_isDigit hd (by decide) (List.cons.inj hsign).1

/-! ## Values -/

/-- Blanks in front of a value are passed over. -/
theorem readValue_skip {cs cs' : List Char} (h : skipBlanks cs = skipBlanks cs') (fuel : Nat) :
    readValue fuel cs = readValue fuel cs' := by
  cases fuel with
  | zero => rw [readValue, readValue]
  | succ fuel => rw [readValue, readValue, h]

/-- Blanks in front of items are passed over. -/
theorem readItems_skip {cs cs' : List Char} (h : skipBlanks cs = skipBlanks cs') (fuel : Nat) :
    readItems fuel cs = readItems fuel cs' := by
  cases fuel with
  | zero => rw [readItems, readItems]
  | succ fuel => rw [readItems, readItems, readValue_skip h]

/-- Blanks in front of members are passed over. -/
theorem readMembers_skip {cs cs' : List Char} (h : skipBlanks cs = skipBlanks cs') (fuel : Nat) :
    readMembers fuel cs = readMembers fuel cs' := by
  cases fuel with
  | zero => rw [readMembers, readMembers]
  | succ fuel => rw [readMembers, readMembers, h]

theorem skipBlanks_digit {d : Char} (h : d.isDigit = true) : skipBlanks [d] = [d] := by
  have hspace : d ≠ ' ' := ne_of_isDigit h (by decide)
  have hline : d ≠ '\n' := ne_of_isDigit h (by decide)
  have htab : d ≠ '\t' := ne_of_isDigit h (by decide)
  have hreturn : d ≠ '\r' := ne_of_isDigit h (by decide)
  simp [skipBlanks, hspace, hline, htab, hreturn]

/-- No value starts with a blank or a closing bracket. -/
theorem exists_first {value : Json} (h : value.Plain) (level : Nat) :
    ∃ c cs, renderAt level value = c :: cs ∧ c ≠ ']' ∧ skipBlanks [c] = [c] := by
  cases h with
  | null =>
    rw [renderAt]
    exact ⟨_, _, rfl, by decide, rfl⟩
  | bool b =>
    cases b <;> rw [renderAt] <;> exact ⟨_, _, rfl, by decide, rfl⟩
  | string s =>
    rw [renderAt, quote]
    exact ⟨_, _, rfl, by decide, rfl⟩
  | array =>
    rw [renderAt]
    split <;> exact ⟨_, _, rfl, by decide, rfl⟩
  | object =>
    rw [renderAt]
    split <;> exact ⟨_, _, rfl, by decide, rfl⟩
  | natural n =>
    obtain ⟨d, ds, hdigit, hd⟩ := exists_toDigits n
    rw [renderAt, hdigit]
    exact ⟨d, ds, rfl, ne_of_isDigit hd (by decide), skipBlanks_digit hd⟩

/-- The value is read back from its text, with enough fuel and whatever follows it. -/
def ReadsBack (value : Json) : Prop :=
  ∀ (level fuel : Nat) (rest : List Char), Stops rest → 2 * (renderAt level value).length < fuel →
    readValue fuel (renderAt level value ++ rest) = some (value, rest)

theorem stops_newline (level : Nat) (rest : List Char) : Stops (newline level ++ rest) := by
  intro c hc
  obtain rfl : '\n' = c := by simpa [newline] using hc
  decide

theorem stops_comma (rest : List Char) : Stops (',' :: rest) := by
  intro c hc
  obtain rfl : ',' = c := by simpa using hc
  decide

/-- The items of an array, one after the other. -/
theorem readItems_renderItems {items : List Json} (hne : items ≠ [])
    (h : ∀ item ∈ items, ReadsBack item) (level outer : Nat) (rest : List Char) (fuel : Nat)
    (hfuel : 2 * (renderItems level items).length ≤ fuel) :
    readItems fuel (renderItems level items ++ (newline outer ++ ']' :: rest)) =
      some (items, rest) := by
  induction items generalizing fuel with
  | nil => exact absurd rfl hne
  | cons item items ih =>
    obtain ⟨hitem, hitems⟩ := List.forall_mem_cons.1 h
    rw [renderItems] at hfuel ⊢
    cases fuel with
    | zero => simp [newline] at hfuel
    | succ fuel =>
      rw [readItems, List.append_assoc, List.append_assoc,
        readValue_skip (skipBlanks_newline level _)]
      -- behind an item stands the end of the array or the next item
      cases items with
      | nil =>
        have hlength : 2 * (renderAt level item).length < fuel := by
          simp only [newline, List.length_append, List.length_cons] at hfuel
          omega
        have hblanks : skipBlanks (newline outer ++ ']' :: rest) = ']' :: rest :=
          skipBlanks_newline outer (']' :: rest)
        rw [List.isEmpty_nil, if_pos rfl, List.nil_append,
          hitem level fuel _ (stops_newline _ _) hlength]
        simp only [Option.bind_eq_bind, Option.bind_some, hblanks]
        rfl
      | cons next items =>
        rw [List.isEmpty_cons, if_neg Bool.false_ne_true] at hfuel ⊢
        -- the line end and the comma pay for the steps to the item and to the next one
        have hlength : 2 * (renderAt level item).length < fuel ∧
            2 * (renderItems level (next :: items)).length ≤ fuel := by
          simp only [newline, List.length_append, List.length_cons] at hfuel
          omega
        rw [List.cons_append, hitem level fuel _ (stops_comma _) hlength.1]
        simp only [Option.bind_eq_bind, Option.bind_some, skipBlanks_comma,
          ih (List.cons_ne_nil next items) hitems fuel hlength.2]
        rfl

/-- The members of an object, one after the other. -/
theorem readMembers_renderMembers {members : List (String × Json)} (hne : members ≠ [])
    (h : ∀ member ∈ members, ReadsBack member.2) (level outer : Nat) (rest : List Char)
    (fuel : Nat) (hfuel : 2 * (renderMembers level members).length ≤ fuel) :
    readMembers fuel (renderMembers level members ++ (newline outer ++ '}' :: rest)) =
      some (members.map fun member => (some member.1, member.2), rest) := by
  induction members generalizing fuel with
  | nil => exact absurd rfl hne
  | cons member members ih =>
    obtain ⟨key, value⟩ := member
    obtain ⟨hvalue, hmembers⟩ := List.forall_mem_cons.1 h
    rw [renderMembers] at hfuel ⊢
    cases fuel with
    | zero => simp [newline] at hfuel
    | succ fuel =>
      -- the key, with all that follows it
      obtain ⟨cs, hquote, hkey⟩ := readString_quote key ([':', ' '] ++ (renderAt level value ++
        ((if members.isEmpty = true then [] else ',' :: renderMembers level members) ++
          (newline outer ++ '}' :: rest))))
      simp only [List.append_assoc]
      rw [readMembers, skipBlanks_newline, hquote, skipBlanks_cons rfl]
      simp only [hkey, Option.bind_eq_bind, Option.bind_some, List.cons_append, List.nil_append,
        skipBlanks_colon]
      rw [readValue_skip (skipBlanks_space _)]
      cases members with
      | nil =>
        have hlength : 2 * (renderAt level value).length < fuel := by
          simp only [newline, List.length_append, List.length_cons] at hfuel
          omega
        have hblanks : skipBlanks (newline outer ++ '}' :: rest) = '}' :: rest :=
          skipBlanks_newline outer ('}' :: rest)
        rw [List.isEmpty_nil, if_pos rfl, List.nil_append,
          hvalue level fuel _ (stops_newline _ _) hlength]
        simp only [Option.bind_some, hblanks]
        rfl
      | cons next members =>
        rw [List.isEmpty_cons, if_neg Bool.false_ne_true] at hfuel ⊢
        have hlength : 2 * (renderAt level value).length < fuel ∧
            2 * (renderMembers level (next :: members)).length ≤ fuel := by
          simp only [newline, List.length_append, List.length_cons] at hfuel
          omega
        rw [List.cons_append, hvalue level fuel _ (stops_comma _) hlength.1]
        simp only [Option.bind_some, skipBlanks_comma,
          ih (List.cons_ne_nil next members) hmembers fuel hlength.2]
        rfl

/-- An object whose keys have texts. -/
theorem ofMembers_map (members : List (String × Json)) :
    ofMembers (members.map fun member => (some member.1, member.2)) = object members := by
  have hkeys : ((members.map fun member => (some member.1, member.2)).mapM
      fun member => member.1.map (·, member.2)) = some members := by
    induction members with
    | nil => rfl
    | cons member members ih => simp [ih]
  rw [ofMembers, hkeys]

section First

variable {c : Char} (hblank : skipBlanks [c] = [c]) {cs cs' : List Char}
  (hcs : skipBlanks cs = c :: cs') (fuel : Nat)
include hblank hcs

/-- An opening bracket and no closing one behind it. -/
theorem readValue_bracket (hc : c ≠ ']') :
    readValue (fuel + 1) ('[' :: cs) =
      (readItems fuel cs).map fun items => (array items.1, items.2) := by
  have hskip : skipBlanks cs = skipBlanks (c :: cs') := by rw [hcs, skipBlanks_cons hblank]
  rw [readValue, skipBlanks_cons rfl, readItems_skip hskip]
  simp only [hcs]
  split
  · rename_i heq
    exact absurd (List.cons.inj heq).1 hc
  · rfl

/-- An opening brace and no closing one behind it. -/
theorem readValue_brace (hc : c ≠ '}') :
    readValue (fuel + 1) ('{' :: cs) =
      (readMembers fuel cs).map fun members => (ofMembers members.1, members.2) := by
  have hskip : skipBlanks cs = skipBlanks (c :: cs') := by rw [hcs, skipBlanks_cons hblank]
  rw [readValue, skipBlanks_cons rfl, readMembers_skip hskip]
  simp only [hcs]
  split
  · rename_i heq
    exact absurd (List.cons.inj heq).1 hc
  · rfl

end First

/-- A value that starts with a digit is a number. -/
theorem readValue_digit {d : Char} (hd : d.isDigit = true) (cs : List Char) (fuel : Nat) :
    readValue (fuel + 1) (d :: cs) = readNumber (d :: cs) := by
  rw [readValue, skipBlanks_cons (skipBlanks_digit hd)]
  split
  case h_7 => rfl
  all_goals
    rename_i heq
    exact absurd (List.cons.inj heq).1 (ne_of_isDigit hd (by decide))

theorem readsBack_of_succ {value : Json}
    (h : ∀ (level fuel : Nat) (rest : List Char), Stops rest →
      2 * (renderAt level value).length ≤ fuel →
      readValue (fuel + 1) (renderAt level value ++ rest) = some (value, rest)) :
    ReadsBack value := by
  intro level fuel rest hstops hfuel
  obtain ⟨fuel, rfl⟩ := Nat.exists_eq_succ_of_ne_zero (Nat.ne_zero_of_lt hfuel)
  exact h level fuel rest hstops (Nat.le_of_lt_succ hfuel)

theorem readsBack_natural (n : Nat) : ReadsBack (.natural n) := by
  refine readsBack_of_succ fun level fuel rest hstops _ => ?_
  have hnumber := readNumber_toDigits n hstops
  obtain ⟨d, ds, hdigit, hd⟩ := exists_toDigits n
  rw [hdigit, List.cons_append] at hnumber
  rw [renderAt, hdigit, List.cons_append, readValue_digit hd, hnumber]

theorem readsBack_string (s : String) : ReadsBack (.string s) := by
  refine readsBack_of_succ fun level fuel rest _ _ => ?_
  obtain ⟨cs, hquote, hread⟩ := readString_quote s rest
  rw [renderAt, hquote, readValue, skipBlanks_cons rfl]
  simp only [hread]
  rfl

/-- An array is read back if its items are. -/
theorem readsBack_array {items : List Json} (hplain : ∀ item ∈ items, item.Plain)
    (h : ∀ item ∈ items, ReadsBack item) : ReadsBack (.array items) := by
  refine readsBack_of_succ fun level fuel rest _ hfuel => ?_
  rw [renderAt] at hfuel ⊢
  cases items with
  | nil =>
    rw [List.isEmpty_nil, if_pos rfl, readValue]
    rfl
  | cons item items =>
    rw [List.isEmpty_cons, if_neg Bool.false_ne_true] at hfuel ⊢
    have hlength : 2 * (renderItems (level + 1) (item :: items)).length ≤ fuel := by
      simp only [List.length_append, List.length_cons] at hfuel
      omega
    have hitems := readItems_renderItems (List.cons_ne_nil item items) h (level + 1) level rest
      fuel hlength
    -- the first item shows that the array is not empty
    obtain ⟨c, cs, hfirst, hc, hblank⟩ := exists_first (hplain item List.mem_cons_self) (level + 1)
    obtain ⟨cs', hskip⟩ : ∃ cs', skipBlanks (renderItems (level + 1) (item :: items) ++
        (newline level ++ ']' :: rest)) = c :: cs' := by
      rw [renderItems, List.append_assoc, List.append_assoc, skipBlanks_newline, hfirst,
        List.cons_append, skipBlanks_cons hblank]
      exact ⟨_, rfl⟩
    simp only [List.append_assoc, List.cons_append, List.nil_append]
    rw [readValue_bracket hblank hskip fuel hc, hitems]
    rfl

/-- An object is read back if its values are. -/
theorem readsBack_object {members : List (String × Json)}
    (h : ∀ member ∈ members, ReadsBack member.2) : ReadsBack (.object members) := by
  refine readsBack_of_succ fun level fuel rest _ hfuel => ?_
  rw [renderAt] at hfuel ⊢
  cases members with
  | nil =>
    rw [List.isEmpty_nil, if_pos rfl, readValue]
    rfl
  | cons member members =>
    rw [List.isEmpty_cons, if_neg Bool.false_ne_true] at hfuel ⊢
    have hlength : 2 * (renderMembers (level + 1) (member :: members)).length ≤ fuel := by
      simp only [List.length_append, List.length_cons] at hfuel
      omega
    have hmembers := readMembers_renderMembers (List.cons_ne_nil member members) h (level + 1)
      level rest fuel hlength
    obtain ⟨cs', hskip⟩ : ∃ cs', skipBlanks (renderMembers (level + 1) (member :: members) ++
        (newline level ++ '}' :: rest)) = '"' :: cs' := by
      simp only [renderMembers, quote, List.append_assoc, List.cons_append]
      rw [skipBlanks_newline]
      exact ⟨_, rfl⟩
    simp only [List.append_assoc, List.cons_append, List.nil_append]
    rw [readValue_brace rfl hskip fuel (by decide), hmembers]
    simp only [Option.map_some, ofMembers_map]

theorem Plain.readsBack {value : Json} (h : value.Plain) : ReadsBack value := by
  induction h with
  | null =>
    refine readsBack_of_succ fun level fuel rest _ _ => ?_
    rw [renderAt, readValue]
    rfl
  | bool b =>
    refine readsBack_of_succ fun level fuel rest _ _ => ?_
    cases b <;> rw [renderAt, readValue] <;> rfl
  | natural n => exact readsBack_natural n
  | string s => exact readsBack_string s
  | array h ih => exact readsBack_array h ih
  | object h ih => exact readsBack_object ih

/-- The text of a value holds this value. -/
theorem parse?_render {value : Json} (h : value.Plain) : parse? (render value) = some value := by
  have hread := h.readsBack 0 (2 * (renderAt 0 value).length + 1) [] (by simp [Stops]) (by omega)
  rw [List.append_nil] at hread
  simp [parse?, render, hread, skipBlanks]

end ApiDocs.Json
