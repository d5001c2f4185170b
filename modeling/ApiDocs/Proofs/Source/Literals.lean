/-
  ApiDocs.Proofs.Source.Literals

  What string literals stand for. Between its quotes, the escapes of an interpreted literal are
  resolved in one pass from left to right (`resolve`). Taking the backslash off every escaped
  quote first, and off every escaped backslash after that, comes to the same (`unescape_eq`): of
  the backslashes before a quote the first step takes one away, and whether it was the odd one or
  the second of a pair, the second step leaves as many as the pass does.

  Main statement: a literal has the text that it is written for, and every text can be written as
  a literal (`unquote_literals`).
-/

import ApiDocs.Proofs.Source.Scanning
import ApiDocs.Source.Literal

namespace ApiDocs.Source

/-- One pass from left to right: a backslash and a quote stand for the quote, two backslashes for
one of them. Every other character stands for itself, also behind a backslash, which then does
so too. -/
def resolve : List Char → List Char
  | [] => []
  | '\\' :: '"' :: cs => '"' :: resolve cs
  | '\\' :: '\\' :: cs => '\\' :: resolve cs
  | c :: cs => c :: resolve cs

/-- The text with a backslash before each backslash and each quote. -/
def escape (cs : List Char) : List Char :=
  cs.flatMap fun c => if c = '\\' ∨ c = '"' then ['\\', c] else [c]

/-- An interpreted string literal for this content. -/
def Form.interpreted (content : String) : Form :=
  ⟨.string, String.ofList ('"' :: (escape content.toList ++ ['"']))⟩

/-! ## Escapes -/

theorem unescape_cons_of_ne {c : Char} (h : c ≠ '\\') (cs : List Char) :
    unescape (c :: cs) = c :: unescape cs := by
  rw [unescape, Text.replacePair_cons_of_ne h, Text.replacePair_cons_of_ne h, unescape]

/-- An escaped quote is resolved by the first step, and the second one does not see it. -/
theorem unescape_quote (cs : List Char) : unescape ('\\' :: '"' :: cs) = '"' :: unescape cs := by
  rw [unescape, Text.replacePair_pair, List.singleton_append,
    Text.replacePair_cons_of_ne (by decide), unescape]

/-- Two backslashes are resolved to one whatever follows. Before a quote it is the second of them
that goes, with the escaped quotes, and the first one stays. -/
theorem unescape_backslash (cs : List Char) :
    unescape ('\\' :: '\\' :: cs) = '\\' :: unescape cs := by
  rw [unescape, Text.replacePair_cons (fun _ h => by cases h)]
  by_cases hquote : '"' ∈ cs.head?
  · -- the first step leaves one backslash, which then is not before another
    obtain ⟨tail, rfl⟩ : ∃ tail, cs = '"' :: tail := ⟨_, List.eq_cons_of_mem_head? hquote⟩
    rw [Text.replacePair_pair, List.singleton_append, Text.replacePair_cons (fun _ h => by cases h),
      Text.replacePair_cons_of_ne (by decide), unescape_cons_of_ne (by decide), unescape]
  · -- both are left for the second step
    rw [Text.replacePair_cons fun _ => hquote, Text.replacePair_pair, List.singleton_append, unescape]

/-- A backslash that escapes neither a quote nor a backslash stays. -/
theorem unescape_other {cs : List Char} (hquote : '"' ∉ cs.head?) (hslash : '\\' ∉ cs.head?) :
    unescape ('\\' :: cs) = '\\' :: unescape cs := by
  rw [unescape, Text.replacePair_cons fun _ => hquote, Text.replacePair_cons, unescape]
  -- the first step has not brought a backslash right behind this one
  intro _
  cases cs with
  | nil => simp [Text.replacePair]
  | cons c cs =>
    have hc : c ≠ '\\' := fun hc => hslash (by rw [hc]; rfl)
    rw [Text.replacePair_cons_of_ne hc]
    exact hslash

/-- Resolving escaped quotes and then escaped backslashes is one pass over both. -/
theorem unescape_eq (cs : List Char) : unescape cs = resolve cs := by
  fun_induction resolve cs with
  | case1 => rfl
  | case2 cs ih => rw [unescape_quote, ih]
  | case3 cs ih => rw [unescape_backslash, ih]
  | case4 c cs hquote hslash ih =>
    by_cases hc : c = '\\'
    · subst hc
      have hquote' : '"' ∉ cs.head? := fun h => hquote _ rfl (List.eq_cons_of_mem_head? h)
      have hslash' : '\\' ∉ cs.head? := fun h => hslash _ rfl (List.eq_cons_of_mem_head? h)
      rw [unescape_other hquote' hslash', ih]
    · rw [unescape_cons_of_ne hc, ih]

theorem resolve_cons_of_ne {c : Char} (h : c ≠ '\\') (cs : List Char) :
    resolve (c :: cs) = c :: resolve cs := by
  rw [← unescape_eq, unescape_cons_of_ne h, unescape_eq]

/-- Escaping is undone by the pass. -/
theorem resolve_escape (cs : List Char) : resolve (escape cs) = cs := by
  induction cs with
  | nil => rfl
  | cons c cs ih =>
    rw [escape, List.flatMap_cons, ← escape]
    split
    · rename_i hc
      rcases hc with rfl | rfl
      · exact congrArg _ ih
      · exact congrArg _ ih
    · rename_i hc
      rw [not_or] at hc
      rw [List.singleton_append, resolve_cons_of_ne hc.1, ih]

/-! ## Literals -/

theorem unquote_interpreted (inner : List Char) :
    unquote ('"' :: (inner ++ ['"'])) = resolve inner := by
  have hmark : [backquote].isPrefixOf? ('"' :: (inner ++ ['"'])) = none := rfl
  rw [← unescape_eq, unquote, hmark]
  simp [betweenQuotes?, List.isSuffixOf?, List.isPrefixOf?]

theorem unquote_raw (content : List Char) :
    unquote (backquote :: (content ++ [backquote])) = content := by
  simp [unquote, List.isPrefixOf?, Text.dropTrailing, List.isSuffixOf?]

namespace Pattern

theorem QuotedTail.exists_inner {mark : Char} {tail : List Char} (h : QuotedTail mark tail) :
    ∃ inner, tail = inner ++ [mark] := by
  induction h with
  | close => exact ⟨[], rfl⟩
  | plain _ _ _ _ ih =>
    obtain ⟨inner, rfl⟩ := ih
    exact ⟨_ :: inner, rfl⟩
  | escape _ _ ih =>
    obtain ⟨inner, rfl⟩ := ih
    exact ⟨_ :: _ :: inner, rfl⟩

/-- An escaped text goes on to the quote behind it. -/
theorem quotedTail_escape {cs : List Char} (h : '\n' ∉ cs) : QuotedTail '"' (escape cs ++ ['"']) := by
  induction cs with
  | nil => exact .close
  | cons c cs ih =>
    rw [List.mem_cons, not_or] at h
    rw [escape, List.flatMap_cons, ← escape, List.append_assoc]
    split
    · exact .escape (Ne.symm h.1) (ih h.2)
    · rename_i hc
      rw [not_or] at hc
      exact .plain hc.2 hc.1 (Ne.symm h.1) (ih h.2)

end Pattern

theorem ofText_interpreted {content : String} (h : '\n' ∉ content.toList) :
    Token.ofText (Form.interpreted content).text =
      .ok [⟨.string, (Form.interpreted content).text, 1⟩] := by
  have hread : Lexeme.read '"' (escape content.toList ++ ['"']) =
      .found .string ('"' :: (escape content.toList ++ ['"'])) [] := by
    rw [← Lexeme.quoted_complete (by decide) (Pattern.quotedTail_escape h) [], List.append_nil]
    rfl
  exact Token.ofText_lexeme rfl (by decide) hread

theorem ofText_raw {content : String} (h : backquote ∉ content.toList) :
    Token.ofText (Form.raw content).text = .ok [⟨.rawString, (Form.raw content).text, 1⟩] := by
  have hread : Lexeme.read backquote (content.toList ++ [backquote]) =
      .found .rawString (backquote :: (content.toList ++ [backquote])) [] := by
    rw [← Lexeme.raw_complete (Text.ne_of_not_mem h) [], List.append_nil]
    rfl
  exact Token.ofText_lexeme rfl (by decide) hread

/-- **Literals stand for what is written in them.** A string literal of a text stands for what one
pass over the characters between its quotes makes of them. So any content without a line end,
with its backslashes and quotes escaped and between quotes, is one token and stands for this
content; and so is any content without backquotes between backquotes. -/
theorem unquote_literals :
    (∀ (source : String) (tokens : List Token), Token.ofText source = .ok tokens →
      ∀ token ∈ tokens, token.kind = .string →
        ∃ inner, token.text.toList = '"' :: (inner ++ ['"']) ∧
          unquote token.text.toList = resolve inner) ∧
    (∀ content : String, '\n' ∉ content.toList →
      Token.ofText (Form.interpreted content).text =
          .ok [⟨.string, (Form.interpreted content).text, 1⟩] ∧
        unquote (Form.interpreted content).text.toList = content.toList) ∧
    (∀ content : String, backquote ∉ content.toList →
      Token.ofText (Form.raw content).text = .ok [⟨.rawString, (Form.raw content).text, 1⟩] ∧
        unquote (Form.raw content).text.toList = content.toList) := by
  refine ⟨fun source tokens htokens token htoken hkind => ?_,
    fun content hline => ⟨ofText_interpreted hline, ?_⟩,
    fun content hmark => ⟨ofText_raw hmark, ?_⟩⟩
  · have hpattern := Token.mem_pattern_of_ofText htokens htoken
    rw [hkind] at hpattern
    obtain ⟨tail, htext, htail⟩ := Pattern.mem_quoted.1 hpattern
    obtain ⟨inner, rfl⟩ := htail.exists_inner
    exact ⟨inner, htext, by rw [htext, unquote_interpreted]⟩
  · rw [Form.interpreted, String.toList_ofList, unquote_interpreted, resolve_escape]
  · rw [Form.raw, String.toList_ofList]
    exact unquote_raw content.toList

/-- Pairs of backslashes, an escaped quote and another escape in one literal. What it stands for can
be escaped in full, too, and a raw literal holds quotes, backslashes and line ends as they are. -/
theorem unquote_literals_mixed :
    let literal := "\"\\\\\\\"\\n\\\\\""
    let content := "\\\"\\n\\"
    let lines := "\"\n\\"
    (Token.ofText (literal ++ ";") = .ok [⟨.string, literal, 1⟩, ⟨.semicolon, ";", 1⟩] ∧
      (∃ inner, literal.toList = '"' :: (inner ++ ['"']) ∧ unquote literal.toList = resolve inner) ∧
      unquote literal.toList = content.toList) ∧
    ('\n' ∉ content.toList ∧ (Form.interpreted content).text ≠ literal ∧
      unquote (Form.interpreted content).text.toList = content.toList) ∧
    (backquote ∉ lines.toList ∧ unquote (Form.raw lines).text.toList = lines.toList) := by
  intro literal content lines
  have htokens : Token.ofText (literal ++ ";") = .ok [⟨.string, literal, 1⟩, ⟨.semicolon, ";", 1⟩] := by
    have htext : Token.dropMark (literal ++ ";").toList =
        ['"', '\\', '\\', '\\', '"', '\\', 'n', '\\', '\\', '"', ';'] := by decide
    rw [Token.ofText, htext, scan_found rfl rfl, scan_found rfl rfl, scan_nothing rfl]
    rfl
  have hline : '\n' ∉ content.toList := by decide
  have hmark : backquote ∉ lines.toList := by decide
  obtain ⟨hpass, hinterpreted, hraw⟩ := unquote_literals
  exact ⟨⟨htokens, hpass _ _ htokens _ List.mem_cons_self rfl, by decide⟩,
    ⟨hline, by decide, (hinterpreted _ hline).2⟩, hmark, (hraw _ hmark).2⟩

end ApiDocs.Source
