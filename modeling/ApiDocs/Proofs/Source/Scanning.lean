/-
  ApiDocs.Proofs.Source.Scanning

  The tokens of a whole text. From the head of a text, tokens are read one after the other, each
  as the longest match behind any blanks (`Munches`), up to the end of the text or to a place
  where no token can be read (`Stuck`). Scanning does just that (`Munches.scan`), and what it has
  read covers the text, with lines counted by line ends (`Covers`).

  Main statements: `Token.ofText_longest_match` and `Token.ofText_covers`.
-/

import ApiDocs.Proofs.Source.Patterns

namespace ApiDocs.Source

/-- The forms are read off the head of a text, each as the longest token behind any blanks. The
last text is what is left behind the last of them. -/
inductive Munches : List Form → List Char → List Char → Prop where
  | nil (cs : List Char) : Munches [] cs cs
  | cons {form : Form} {forms : List Form} {cs behind rest : List Char}
      (htext : cs.dropWhile isSkipped = form.text.toList ++ behind)
      (hclosed : ¬ Unclosed (cs.dropWhile isSkipped))
      (hlongest : Longest form.kind form.text.toList (cs.dropWhile isSkipped))
      (h : Munches forms behind rest) : Munches (form :: forms) cs rest

/-- Behind its blanks the text goes on, but neither with a token nor with a comment that ends. -/
def Stuck (cs : List Char) : Prop :=
  cs.dropWhile isSkipped ≠ [] ∧
    (Unclosed (cs.dropWhile isSkipped) ∨ NoToken (cs.dropWhile isSkipped))

/-- The text consists of these tokens with blanks before them. None of them is empty, and the
line of each is counted by the line ends before it. -/
inductive Covers : List Char → List Token → Prop where
  | nil : Covers [] []
  | concat {front blanks : List Char} {tokens : List Token} (token : Token)
      (h : Covers front tokens) (hblanks : ∀ c ∈ blanks, isSkipped c = true)
      (htext : token.text ≠ "") (hline : token.line = 1 + (front ++ blanks).count '\n') :
      Covers (front ++ blanks ++ token.text.toList) (tokens ++ [token])

/-- The text consists of these tokens with blanks before, between and behind them. -/
def Tiles (text : List Char) (tokens : List Token) : Prop :=
  ∃ front blanks, text = front ++ blanks ∧ Covers front tokens ∧ ∀ c ∈ blanks, isSkipped c = true

/-! ## One run -/

theorem count_blanks {blanks : List Char} (h : ∀ c ∈ blanks, isSkipped c = true) :
    blanks.count '\n' = 0 := by
  refine List.count_eq_zero.2 fun hmem => ?_
  exact absurd (h _ hmem) (by decide)

theorem blanks_takeWhile (cs : List Char) : ∀ c ∈ cs.takeWhile isSkipped, isSkipped c = true :=
  fun _ hc => List.mem_takeWhile_imp hc

/-- Reading goes on to the end of the text, or to a place where it is stuck. -/
theorem exists_munches (cs : List Char) :
    ∃ forms rest, Munches forms cs rest ∧ (rest.dropWhile isSkipped = [] ∨ Stuck rest) := by
  induction hn : cs.length using Nat.strongRecOn generalizing cs with
  | ind n ih =>
    subst hn
    cases hnext : cs.dropWhile isSkipped with
    | nil => exact ⟨[], cs, .nil cs, .inl hnext⟩
    | cons c tail =>
      cases hread : Lexeme.read c tail with
      | rejected text =>
        have hstuck := Lexeme.exists_rejected_iff.1 ⟨text, hread⟩
        exact ⟨[], cs, .nil cs, .inr ⟨by simp [hnext], by rwa [hnext]⟩⟩
      | found kind text behind =>
        have hdrop := (List.dropWhile_suffix isSkipped (l := cs)).length_le
        have hlt : behind.length < cs.length := by
          have hread' := Lexeme.length_of_read hread
          rw [← hnext] at hread'
          omega
        obtain ⟨forms, rest, hrest, hend⟩ := ih _ hlt behind rfl
        obtain ⟨hclosed, hlongest, htext⟩ := Lexeme.read_eq_found_iff.1 hread
        refine ⟨⟨kind, String.ofList text⟩ :: forms, rest, ?_, hend⟩
        exact .cons (by simp [hnext, htext]) (by rwa [hnext]) (by simpa [hnext] using hlongest) hrest

/-- What is read stands at the head of the text, goes on with what covers the text before it, and
scanning goes on with the rest. -/
theorem Munches.scan {forms : List Form} {cs rest : List Char} (h : Munches forms cs rest)
    {front : List Char} {before : List Token} (hfront : Covers front before) :
    ∃ taken tokens, cs = taken ++ rest ∧ tokens.map Token.form = forms ∧
      Covers (front ++ taken) (before ++ tokens) ∧
      Token.scan (1 + front.count '\n') cs =
        (Token.scan (1 + (front ++ taken).count '\n') rest).map (tokens ++ ·) := by
  induction h generalizing front before with
  | nil cs =>
    refine ⟨[], [], rfl, rfl, by simpa using hfront, ?_⟩
    rw [List.append_nil]
    cases Token.scan (1 + front.count '\n') cs <;> rfl
  | @cons form forms cs behind rest htext hclosed hlongest h ih =>
    -- the form is the lexeme behind the blanks
    have hne : form.text.toList ≠ [] := by
      intro hempty
      exact Lexeme.nil_notMem_pattern form.kind (hempty ▸ hlongest.2.1)
    obtain ⟨c, tail, hnext⟩ : ∃ c tail, cs.dropWhile isSkipped = c :: tail := by
      rw [htext]
      exact List.exists_cons_of_ne_nil (by simp [hne])
    have hread : Lexeme.read c tail = .found form.kind form.text.toList behind := by
      rw [hnext] at htext hclosed hlongest
      exact Lexeme.read_eq_found_iff.2 ⟨hclosed, hlongest, htext.symm⟩
    have hscan := scan_found hnext hread (1 + front.count '\n')
    rw [String.ofList_toList] at hscan
    -- the blanks before it hold no line end
    have hblanks := blanks_takeWhile cs
    have hline : 1 + front.count '\n' = 1 + (front ++ cs.takeWhile isSkipped).count '\n' := by
      rw [List.count_append, count_blanks hblanks, Nat.add_zero]
    have hcs : cs = cs.takeWhile isSkipped ++ form.text.toList ++ behind := by
      rw [List.append_assoc, ← htext, List.takeWhile_append_dropWhile]
    have hempty : form.text ≠ "" := fun hempty => hne (by rw [hempty]; rfl)
    have hfront' : Covers (front ++ cs.takeWhile isSkipped ++ form.text.toList)
        (before ++ [⟨form.kind, form.text, 1 + front.count '\n'⟩]) :=
      .concat ⟨form.kind, form.text, 1 + front.count '\n'⟩ hfront hblanks hempty hline
    obtain ⟨taken, tokens, rfl, hforms, hcovers, hrest⟩ := ih hfront'
    refine ⟨cs.takeWhile isSkipped ++ form.text.toList ++ taken,
      ⟨form.kind, form.text, 1 + front.count '\n'⟩ :: tokens, ?_, ?_, ?_, ?_⟩
    · rw [List.append_assoc _ taken, ← hcs]
    · rw [List.map_cons, hforms]
      rfl
    · simpa using hcovers
    · have hcount : 1 + front.count '\n' + form.text.toList.count '\n' =
          1 + (front ++ cs.takeWhile isSkipped ++ form.text.toList).count '\n' := by
        rw [hline, List.count_append, List.count_append, List.count_append, Nat.add_assoc]
      rw [hscan, hcount, hrest]
      simp only [List.append_assoc]
      cases Token.scan
        (1 + (front ++ (cs.takeWhile isSkipped ++ (form.text.toList ++ taken))).count '\n') rest <;> rfl

/-- Where no token can be read, scanning fails on this line, with the beginning of what is there. -/
theorem Stuck.scan {cs : List Char} (h : Stuck cs) (line : Nat) :
    ∃ text, Token.scan line cs = .error ⟨line, text⟩ ∧ text.toList <+: cs.dropWhile isSkipped := by
  obtain ⟨hne, hstuck⟩ := h
  obtain ⟨c, tail, hnext⟩ := List.exists_cons_of_ne_nil hne
  rw [hnext] at hstuck
  obtain ⟨text, hread⟩ := Lexeme.exists_rejected_iff.2 hstuck
  refine ⟨_, scan_rejected hnext hread line, ?_⟩
  rw [String.toList_ofList, hnext]
  exact (List.take_prefix _ text).trans (Lexeme.prefix_of_rejected hread)

theorem Munches.mem_pattern {forms : List Form} {cs rest : List Char} (h : Munches forms cs rest) :
    ∀ form ∈ forms, form.text.toList ∈ form.kind.pattern := by
  induction h with
  | nil => exact fun _ hform => absurd hform List.not_mem_nil
  | cons _ _ hlongest _ ih => exact List.forall_mem_cons.2 ⟨hlongest.2.1, ih⟩

/-! ## Whole texts -/

namespace Token

/-- Either all of the text is read, or reading comes to a place where it is stuck. -/
theorem ofText_cases (source : String) :
    (∃ front blanks tokens, ofText source = .ok tokens ∧ dropMark source.toList = front ++ blanks ∧
      Munches (tokens.map form) (dropMark source.toList) blanks ∧ blanks.dropWhile isSkipped = [] ∧
      Covers front tokens) ∨
    (∃ front rest tokens text, ofText source = .error ⟨1 + front.count '\n', text⟩ ∧
      dropMark source.toList = front ++ rest ∧
      Munches (tokens.map form) (dropMark source.toList) rest ∧ Stuck rest ∧ Covers front tokens ∧
      text.toList <+: rest.dropWhile isSkipped) := by
  obtain ⟨forms, rest, hmunches, hend⟩ := exists_munches (dropMark source.toList)
  obtain ⟨taken, tokens, hsplit, rfl, hcovers, hscan⟩ := hmunches.scan .nil
  simp only [List.nil_append] at hcovers hscan
  rcases hend with hblank | hstuck
  · refine .inl ⟨taken, rest, tokens, ?_, hsplit, hmunches, hblank, hcovers⟩
    rw [scan_nothing hblank] at hscan
    simpa [ofText, Except.map] using hscan
  · obtain ⟨text, herror, hbegins⟩ := hstuck.scan (1 + taken.count '\n')
    refine .inr ⟨taken, rest, tokens, text, ?_, hsplit, hmunches, hstuck, hcovers, hbegins⟩
    rw [herror] at hscan
    simpa [ofText, Except.map] using hscan

/-- Every token of a text is one of its kind. -/
theorem mem_pattern_of_ofText {source : String} {tokens : List Token}
    (h : ofText source = .ok tokens) {token : Token} (htoken : token ∈ tokens) :
    token.text.toList ∈ token.kind.pattern := by
  rcases ofText_cases source with ⟨_, _, tokens', hok, -, hmunches, -, -⟩ | ⟨_, _, _, _, herror, -⟩
  · rw [hok] at h
    cases h
    exact hmunches.mem_pattern token.form (List.mem_map.2 ⟨token, htoken, rfl⟩)
  · rw [herror] at h
    cases h

/-- A text that is one lexeme is one token. -/
theorem ofText_lexeme {kind : TokenKind} {c : Char} {cs : List Char}
    (hmark : dropMark (c :: cs) = c :: cs) (hskip : isSkipped c = false)
    (hread : Lexeme.read c cs = .found kind (c :: cs) []) :
    ofText (String.ofList (c :: cs)) = .ok [⟨kind, String.ofList (c :: cs), 1⟩] := by
  have hdrop : (c :: cs).dropWhile isSkipped = c :: cs := by simp [hskip]
  rw [ofText, String.toList_ofList, hmark, scan_found hdrop hread, scan_nothing rfl]
  rfl

/-- **Tokens are the longest matches.** A text is accepted with the tokens that are read off it,
each as the longest match behind any blanks, if nothing but blanks is left; and it is refused
exactly if reading tokens in this way comes to a place where no token starts or a comment has no
end. -/
theorem ofText_longest_match (source : String) :
    (∀ forms, (∃ tokens, ofText source = .ok tokens ∧ tokens.map form = forms) ↔
      ∃ rest, Munches forms (dropMark source.toList) rest ∧ rest.dropWhile isSkipped = []) ∧
    ((∃ e, ofText source = .error e) ↔
      ∃ forms rest, Munches forms (dropMark source.toList) rest ∧ Stuck rest) := by
  constructor
  · intro forms
    constructor
    · rintro ⟨tokens, hok, rfl⟩
      rcases ofText_cases source with ⟨_, rest, tokens', hok', -, hmunches, hblank, -⟩ |
        ⟨_, _, _, _, herror, -⟩
      · rw [hok] at hok'
        cases hok'
        exact ⟨rest, hmunches, hblank⟩
      · rw [hok] at herror
        cases herror
    · rintro ⟨rest, hmunches, hblank⟩
      obtain ⟨taken, tokens, -, hforms, -, hscan⟩ := hmunches.scan .nil
      rw [scan_nothing hblank] at hscan
      exact ⟨tokens, by simpa [ofText, Except.map] using hscan, hforms⟩
  · constructor
    · rintro ⟨e, herror⟩
      rcases ofText_cases source with ⟨_, _, _, hok, -⟩ |
        ⟨_, rest, tokens, _, -, -, hmunches, hstuck, -⟩
      · rw [herror] at hok
        cases hok
      · exact ⟨_, rest, hmunches, hstuck⟩
    · rintro ⟨forms, rest, hmunches, hstuck⟩
      obtain ⟨taken, tokens, -, -, -, hscan⟩ := hmunches.scan .nil
      obtain ⟨text, herror, -⟩ := hstuck.scan (1 + ([] ++ taken).count '\n')
      rw [herror] at hscan
      exact ⟨_, hscan⟩

/-- **Nothing of a text is lost, and lines are counted by line ends.** An accepted text consists of
its tokens with blanks around them. In a refused one, reading tokens stops where none can be read:
the error is reported on the line of that place and shows what stands there, and the text before it
consists of tokens with blanks around them. -/
theorem ofText_covers (source : String) :
    (∀ tokens, ofText source = .ok tokens → Tiles (dropMark source.toList) tokens) ∧
    (∀ e, ofText source = .error e →
      ∃ before rest tokens behind, dropMark source.toList = before ++ rest ∧ Tiles before tokens ∧
        Munches (tokens.map form) (dropMark source.toList) behind ∧ Stuck behind ∧
        behind.dropWhile isSkipped = rest ∧ e.text.toList <+: rest ∧
        e.line = 1 + before.count '\n') := by
  rcases ofText_cases source with ⟨front, blanks, tokens, hok, hsplit, -, hblank, hcovers⟩ |
    ⟨front, behind, tokens, text, herror, hsplit, hmunches, hstuck, hcovers, hbegins⟩
  · rw [hok]
    constructor
    · intro tokens' hok'
      cases hok'
      exact ⟨front, blanks, hsplit, hcovers, List.dropWhile_eq_nil_iff.1 hblank⟩
    · intro e herror
      cases herror
  · rw [herror]
    constructor
    · intro tokens hok
      cases hok
    · intro e herror'
      cases herror'
      -- the blanks before the rejected place belong to the text before it
      have hblanks := blanks_takeWhile behind
      refine ⟨front ++ behind.takeWhile isSkipped, behind.dropWhile isSkipped, tokens, behind, ?_,
        ⟨front, _, rfl, hcovers, hblanks⟩, hmunches, hstuck, rfl, hbegins, ?_⟩
      · rw [List.append_assoc, List.takeWhile_append_dropWhile, hsplit]
      · rw [List.count_append, count_blanks hblanks, Nat.add_zero]

theorem ofText_covers_comment :
    (ofText "/*\n*/ ;\t" = .ok [⟨.blockComment, "/*\n*/", 1⟩, ⟨.semicolon, ";", 2⟩] ∧
      Tiles (dropMark "/*\n*/ ;\t".toList) [⟨.blockComment, "/*\n*/", 1⟩, ⟨.semicolon, ";", 2⟩]) ∧
    (ofText "/*\n*/ ;\t#" = .error ⟨2, "#"⟩ ∧
      ∃ before rest tokens behind, dropMark "/*\n*/ ;\t#".toList = before ++ rest ∧
        Tiles before tokens ∧ Munches (tokens.map form) (dropMark "/*\n*/ ;\t#".toList) behind ∧
        Stuck behind ∧ behind.dropWhile isSkipped = rest ∧ "#".toList <+: rest ∧
        2 = 1 + before.count '\n') := by
  have haccepted : ofText "/*\n*/ ;\t" =
      .ok [⟨.blockComment, "/*\n*/", 1⟩, ⟨.semicolon, ";", 2⟩] := by
    have htext : dropMark "/*\n*/ ;\t".toList =
        ['/', '*', '\n', '*', '/', ' ', ';', '\t'] := by decide
    rw [ofText, htext, scan_found rfl rfl, scan_found rfl rfl, scan_nothing rfl]
    rfl
  have hrefused : ofText "/*\n*/ ;\t#" = .error ⟨2, "#"⟩ := by
    have htext : dropMark "/*\n*/ ;\t#".toList =
        ['/', '*', '\n', '*', '/', ' ', ';', '\t', '#'] := by decide
    rw [ofText, htext, scan_found rfl rfl, scan_found rfl rfl, scan_rejected rfl rfl]
    rfl
  exact ⟨⟨haccepted, (ofText_covers _).1 _ haccepted⟩, hrefused, (ofText_covers _).2 _ hrefused⟩

end Token
end ApiDocs.Source
