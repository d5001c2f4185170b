/-
  ApiDocs.Proofs.Source.CommentText

  The text of comments is in normal form. A comment of a source text holds lines (`HoldsLines`):
  a `//` comment one line, a block comment the lines between its markers. Without the white space
  at their ends, and without the empty lines before the first and behind the last that is not
  empty, these are the lines of a comment group. Such lines (`NormalLines`) can be joined and split
  again (`NormalLines.lines_intercalate`), and written as comments and read again.

  Main statement: `CommentGroup.text_normal_form`.
-/

import ApiDocs.Proofs.Source.LineRule
import Mathlib.Data.List.DropRight
import Mathlib.Data.List.Forall2

namespace ApiDocs

/-! ## Lines of a text -/

namespace Text

/-- The text consists of these lines. Each ends with a line end, which the last one may lack unless
it is empty. -/
inductive HasLines : List (List Char) → List Char → Prop where
  | nil : HasLines [] []
  | last {line : List Char} (hne : line ≠ []) (hline : '\n' ∉ line) : HasLines [line] line
  | cons {line rest : List Char} {lines : List (List Char)} (hline : '\n' ∉ line)
      (h : HasLines lines rest) : HasLines (line :: lines) (line ++ '\n' :: rest)

/-- The text without the white space at its end. -/
structure TrimsTo (cs kept : List Char) : Prop where
  rest : ∃ blanks, (∀ c ∈ blanks, isBlank c = true) ∧ cs = kept ++ blanks
  last : ∀ c ∈ kept.getLast?, isBlank c = false

theorem HasLines.newline_not_mem {ls : List (List Char)} {cs : List Char} (h : HasLines ls cs) :
    ∀ line ∈ ls, '\n' ∉ line := by
  induction h with
  | nil => simp
  | last _ hline => simpa using hline
  | cons hline _ ih => exact List.forall_mem_cons.2 ⟨hline, ih⟩

theorem trimsTo_trimEnd (cs : List Char) : TrimsTo cs (trimEnd cs) where
  rest := ⟨cs.rtakeWhile isBlank, fun _ hc => List.mem_rtakeWhile_imp hc,
    List.rdropWhile_append_rtakeWhile.symm⟩
  last c hc := by
    rw [trimEnd, List.getLast?_reverse] at hc
    exact head?_dropWhile_stop isBlank _ hc

/-- White space at the end does not matter if it is dropped anyway. -/
theorem trimEnd_concat {c : Char} (h : isBlank c = true) (cs : List Char) :
    trimEnd (cs ++ [c]) = trimEnd cs :=
  List.rdropWhile_concat_pos isBlank cs c h

theorem trimEnd_eq_self {cs : List Char} (h : ∀ c ∈ cs.getLast?, isBlank c = false) :
    trimEnd cs = cs := by
  refine (List.rdropWhile_eq_self_iff (p := isBlank)).2 fun hne => ?_
  rw [h _ (List.getLast?_eq_some_getLast hne)]
  decide

theorem newline_not_mem_trimEnd {cs : List Char} (h : '\n' ∉ cs) : '\n' ∉ trimEnd cs := by
  have hbegins := trimEnd_prefix cs
  exact fun hmem => h (hbegins.subset hmem)

theorem dropReturn_eq_self {line : List Char} (h : ∀ c ∈ line.getLast?, isBlank c = false) :
    lines.dropReturn line = line := by
  rw [lines.dropReturn, if_neg]
  intro hreturn
  exact absurd (h _ hreturn) (by decide)

/-- A carriage return at the end of a line is white space. -/
theorem trimEnd_dropReturn (line : List Char) :
    trimEnd (lines.dropReturn line) = trimEnd line := by
  rw [lines.dropReturn]
  split
  · rename_i hreturn
    obtain ⟨front, rfl⟩ := List.getLast?_eq_some_iff.1 hreturn
    rw [List.dropLast_concat, trimEnd_concat (by decide)]
  · rfl

theorem lines_of_not_mem {line : List Char} (hne : line ≠ []) (h : '\n' ∉ line) :
    lines line = [line] := by
  simp [lines, splitOn_of_not_mem h, hne]

theorem lines_append_newline {line : List Char} (h : '\n' ∉ line) (rest : List Char) :
    lines (line ++ '\n' :: rest) = lines.dropReturn line :: lines rest := by
  obtain ⟨piece, pieces, hpieces⟩ := List.exists_cons_of_ne_nil (splitOn_ne_nil '\n' rest)
  rw [lines, lines, splitOn_sep_append h, hpieces]
  simp

/-- The lines of a text are what it consists of, but for the carriage returns at their ends. -/
theorem exists_hasLines (cs : List Char) :
    ∃ ls, HasLines ls cs ∧ (lines cs).map trimEnd = ls.map trimEnd := by
  induction hn : cs.length using Nat.strongRecOn generalizing cs with
  | ind n ih =>
    by_cases hmem : '\n' ∈ cs
    · obtain ⟨line, rest, rfl, hline⟩ := List.eq_append_cons_of_mem hmem
      have hlt : rest.length < n := by
        rw [← hn, List.length_append, List.length_cons]
        omega
      obtain ⟨ls, hls, hmap⟩ := ih _ hlt rest rfl
      refine ⟨line :: ls, .cons hline hls, ?_⟩
      rw [lines_append_newline hline, List.map_cons, List.map_cons, trimEnd_dropReturn, hmap]
    · by_cases hne : cs = []
      · subst hne
        exact ⟨[], .nil, rfl⟩
      · exact ⟨[cs], .last hne hmem, by rw [lines_of_not_mem hne hmem]⟩

end Text

namespace Source

open Text (isBlank trimEnd HasLines TrimsTo)

/-- Lines in normal form: no line goes on behind a line end or has white space at its end, and
neither the first line nor the last one is empty. -/
structure NormalLines (ls : List (List Char)) : Prop where
  newline : ∀ line ∈ ls, '\n' ∉ line
  trimmed : ∀ line ∈ ls, ∀ c ∈ line.getLast?, isBlank c = false
  first : ∀ line ∈ ls.head?, line ≠ []
  last : ∀ line ∈ ls.getLast?, line ≠ []

/-- Joining lines in normal form and splitting the text gives them back. -/
theorem NormalLines.lines_intercalate {ls : List (List Char)} (h : NormalLines ls) :
    Text.lines (['\n'].intercalate ls) = ls := by
  obtain ⟨hnewline, htrimmed, -, hlast⟩ := h
  induction ls with
  | nil => rfl
  | cons line ls ih =>
    obtain ⟨hline, hrest⟩ := List.forall_mem_cons.1 hnewline
    obtain ⟨hend, htrimmed⟩ := List.forall_mem_cons.1 htrimmed
    cases ls with
    | nil =>
      have hne : line ≠ [] := hlast line rfl
      simpa [List.intercalate] using Text.lines_of_not_mem hne hline
    | cons next ls =>
      have hjoin : ['\n'].intercalate (line :: next :: ls) =
          line ++ '\n' :: ['\n'].intercalate (next :: ls) := by
        simp [List.intercalate]
      rw [List.getLast?_cons_cons] at hlast
      rw [hjoin, Text.lines_append_newline hline, ih hrest htrimmed hlast,
        Text.dropReturn_eq_self hend]

/-! ## Empty lines at both ends -/

section DropEmptyEnds

variable (ls : List (List Char))

theorem dropEmptyEnds_eq :
    dropEmptyEnds ls = (ls.dropWhile List.isEmpty).rdropWhile List.isEmpty := rfl

/-- Only empty lines are dropped, and only at the ends. -/
theorem exists_dropEmptyEnds :
    ∃ before after, (∀ line ∈ before ++ after, line = []) ∧
      ls = before ++ dropEmptyEnds ls ++ after := by
  refine ⟨ls.takeWhile List.isEmpty, (ls.dropWhile List.isEmpty).rtakeWhile List.isEmpty, ?_, ?_⟩
  · intro line hline
    rcases List.mem_append.1 hline with hline | hline
    · exact List.isEmpty_iff.1 (List.mem_takeWhile_imp hline)
    · exact List.isEmpty_iff.1 (List.mem_rtakeWhile_imp hline)
  · rw [dropEmptyEnds_eq, List.append_assoc, List.rdropWhile_append_rtakeWhile,
      List.takeWhile_append_dropWhile]

theorem head?_dropEmptyEnds : ∀ line ∈ (dropEmptyEnds ls).head?, line ≠ [] := by
  rintro line hline rfl
  obtain ⟨rest, hrest⟩ := List.rdropWhile_prefix List.isEmpty (ls.dropWhile List.isEmpty)
  have hhead := List.head?_dropWhile_not List.isEmpty ls
  rw [← hrest, List.head?_append, ← dropEmptyEnds_eq, hline] at hhead
  simp at hhead

theorem getLast?_dropEmptyEnds : ∀ line ∈ (dropEmptyEnds ls).getLast?, line ≠ [] := by
  rintro line hline rfl
  have hhead := List.head?_dropWhile_not List.isEmpty (ls.dropWhile List.isEmpty).reverse
  rw [dropEmptyEnds, List.getLast?_reverse] at hline
  rw [hline] at hhead
  simp at hhead

variable {ls}

theorem subset_dropEmptyEnds : dropEmptyEnds ls ⊆ ls := by
  obtain ⟨before, after, -, hls⟩ := exists_dropEmptyEnds ls
  intro line hline
  rw [hls]
  simp [hline]

theorem NormalLines.dropEmptyEnds_eq_self (h : NormalLines ls) : dropEmptyEnds ls = ls := by
  have hfirst : ls.dropWhile List.isEmpty = ls := by
    cases ls with
    | nil => rfl
    | cons line ls => simp [h.first line rfl]
  rw [dropEmptyEnds_eq, hfirst, List.rdropWhile_eq_self_iff]
  intro hne
  simpa using h.last _ (List.getLast?_eq_some_getLast hne)

end DropEmptyEnds

/-! ## Comments -/

/-- The text is a comment of some source text. -/
def IsComment (text : String) : Prop :=
  ∃ (source : String) (tokens : List Token), Token.ofText source = .ok tokens ∧
    ∃ token ∈ tokens, token.kind.isComment = true ∧ token.text = text

/-- The lines that a comment holds, as they are written. -/
inductive HoldsLines : List Char → List (List Char) → Prop where
  | line {body : List Char} (h : body.head? ≠ some ' ') : HoldsLines ('/' :: '/' :: body) [body]
  | spaced {body : List Char} : HoldsLines ('/' :: '/' :: ' ' :: body) [body]
  | block {body : List Char} {ls : List (List Char)} (h : HasLines ls body) :
      HoldsLines ('/' :: '*' :: (body ++ ['*', '/'])) ls

theorem commentLines_line {body : List Char} (h : body.head? ≠ some ' ') :
    commentLines ('/' :: '/' :: body) = [trimEnd body] := by
  cases body with
  | nil => rfl
  | cons c body =>
    have hc : ' ' ≠ c := fun hc => h (by rw [hc]; rfl)
    simp [commentLines, Text.dropLeading, List.isPrefixOf?, hc]

theorem commentLines_spaced (body : List Char) :
    commentLines ('/' :: '/' :: ' ' :: body) = [trimEnd body] := rfl

theorem commentLines_block (body : List Char) :
    commentLines ('/' :: '*' :: (body ++ ['*', '/'])) = (Text.lines body).map trimEnd := by
  simp [commentLines, List.isSuffixOf?, List.isPrefixOf?]

open Pattern in
/-- What is read from a comment are the lines that it holds, without the white space at their
ends. -/
theorem IsComment.exists_holds {text : String} (h : IsComment text) :
    ∃ ls, HoldsLines text.toList ls ∧ (∀ line ∈ ls, '\n' ∉ line) ∧
      commentLines text.toList = ls.map trimEnd := by
  obtain ⟨source, tokens, htokens, token, htoken, hkind, rfl⟩ := h
  have hpattern := Token.mem_pattern_of_ofText htokens htoken
  generalize token.kind = kind at hkind hpattern
  cases kind with
  | lineComment =>
    obtain ⟨body, hbody, htext⟩ := mem_exactly_mul.1 hpattern
    have hline : '\n' ∉ body := fun hmem => absurd (mem_kstar_oneOf.1 hbody _ hmem) (by decide)
    rw [htext]
    by_cases hspace : body.head? = some ' '
    · obtain ⟨rest, rfl⟩ : ∃ rest, body = ' ' :: rest := ⟨_, List.eq_cons_of_mem_head? hspace⟩
      exact ⟨[rest], .spaced, by simpa using hline, commentLines_spaced rest⟩
    · exact ⟨[body], .line hspace, by simpa using hline, commentLines_line hspace⟩
  | blockComment =>
    obtain ⟨inner, ⟨⟨body, rfl⟩, -⟩, htext⟩ := mem_exactly_mul.1 hpattern
    obtain ⟨ls, hls, hmap⟩ := Text.exists_hasLines body
    rw [htext]
    exact ⟨ls, .block hls, hls.newline_not_mem, (commentLines_block body).trans hmap⟩
  | _ => cases hkind

/-- A line behind `//` and a space is a comment. -/
theorem isComment_slashes {line : String} (h : '\n' ∉ line.toList) : IsComment ("// " ++ line) := by
  have hnewline : '\n' ∉ ' ' :: line.toList := by simpa using h
  have hall := Text.ne_of_not_mem hnewline
  have hread : Lexeme.read '/' ('/' :: ' ' :: line.toList) =
      .found .lineComment ('/' :: '/' :: ' ' :: line.toList) [] := by
    rw [Lexeme.read_slash, Lexeme.slash, List.takeWhile_eq_self_iff.2 hall,
      List.dropWhile_eq_nil_iff.2 hall]
  have htext : "// " ++ line = String.ofList ('/' :: '/' :: ' ' :: line.toList) := by
    rw [← String.toList_inj, String.toList_append, String.toList_ofList, String.toList_ofList]
    rfl
  rw [htext]
  exact ⟨_, _, Token.ofText_lexeme rfl (by decide) hread, _, List.mem_singleton_self _, rfl, rfl⟩

/-! ## Comment groups -/

namespace CommentGroup

variable {group : CommentGroup}

/-- The groups of a source text are made of its comments. -/
theorem isComment_of_mem_groups {source : String} {tokens : List Token}
    (h : Token.ofText source = .ok tokens) (hgroup : group ∈ (Layout.ofTokens tokens).groups) :
    ∀ comment ∈ group.comments, IsComment comment := by
  obtain ⟨blocks, hblocks⟩ := exists_grouped (lined_of_ofText h) (Nat.le_refl tokens.length)
  have hgroups := hblocks.pending.groups
  rw [List.take_length] at hgroups
  rw [Layout.ofTokens_eq_foldl, Layout.Progress.layout, hgroups] at hgroup
  obtain ⟨block, hblock, rfl⟩ := List.mem_map.1 hgroup
  intro comment hcomment
  obtain ⟨placed, hplaced, rfl⟩ := List.mem_map.1 hcomment
  -- the comments of all blocks are the comments among the tokens
  have hmem := List.mem_flatMap.2 ⟨block, hblock, hplaced⟩
  rw [hblocks.comments] at hmem
  obtain ⟨-, htoken, hkind⟩ := mem_placed hmem
  exact ⟨source, tokens, h, placed.1, List.mem_of_getElem? htoken, hkind, rfl⟩

/-- All lines that the comments of a group hold, as they are written. -/
theorem exists_held (h : ∀ comment ∈ group.comments, IsComment comment) :
    ∃ held, List.Forall₂ (fun comment ls => HoldsLines comment.toList ls) group.comments held ∧
      (∀ line ∈ held.flatten, '\n' ∉ line) ∧
      (group.comments.flatMap fun comment => commentLines comment.toList) =
        held.flatten.map trimEnd := by
  generalize group.comments = comments at h
  induction comments with
  | nil => exact ⟨[], .nil, by simp, rfl⟩
  | cons comment comments ih =>
    obtain ⟨hcomment, hcomments⟩ := List.forall_mem_cons.1 h
    obtain ⟨ls, hls, hnewline, hlines⟩ := hcomment.exists_holds
    obtain ⟨held, hheld, hnewlines, hflat⟩ := ih hcomments
    refine ⟨ls :: held, .cons hls hheld, ?_, ?_⟩
    · rw [List.flatten_cons]
      exact List.forall_mem_append.2 ⟨hnewline, hnewlines⟩
    · rw [List.flatMap_cons, hlines, hflat, List.flatten_cons, List.map_append]

theorem normalLines_body (h : ∀ comment ∈ group.comments, IsComment comment) :
    NormalLines group.body := by
  obtain ⟨held, -, hnewline, hflat⟩ := exists_held h
  have htrimmed : ∀ line ∈ group.body, ∃ written ∈ held.flatten, trimEnd written = line := by
    intro line hline
    have hmem := subset_dropEmptyEnds hline
    rw [hflat] at hmem
    exact List.mem_map.1 hmem
  refine ⟨fun line hline => ?_, fun line hline => ?_, head?_dropEmptyEnds _,
    getLast?_dropEmptyEnds _⟩
  · obtain ⟨written, hwritten, rfl⟩ := htrimmed line hline
    exact Text.newline_not_mem_trimEnd (hnewline written hwritten)
  · obtain ⟨written, -, rfl⟩ := htrimmed line hline
    exact (Text.trimsTo_trimEnd written).last

/-- The lines of the text are the lines that were joined. -/
theorem lines_eq (h : NormalLines group.body) : group.lines = group.body.map String.ofList := by
  rw [lines, text, String.toList_ofList, h.lines_intercalate]

/-- Lines in normal form, written as `//` comments, are read as they are. -/
theorem body_of_slashes {ls : List (List Char)} (h : NormalLines ls)
    (hgroup : group.comments = ls.map fun line => "// " ++ String.ofList line) :
    group.body = ls := by
  have hline : ∀ line ∈ ls, commentLines ("// " ++ String.ofList line).toList = [line] := by
    intro line hline
    rw [String.toList_append, String.toList_ofList, String.toList_ofList]
    exact (commentLines_spaced line).trans (by rw [Text.trimEnd_eq_self (h.trimmed line hline)])
  rw [body, hgroup, List.flatMap_map, List.flatMap_congr hline, List.flatMap_singleton',
    h.dropEmptyEnds_eq_self]

/-- **Comment text is in normal form.** The lines of a group are those that its comments hold, in
order: each without the white space at its end, and all but the empty ones before the first line
and behind the last one. The text joins just these lines. Written as one `//` comment each, they
have the same text and the same lines. -/
theorem text_normal_form (group : CommentGroup)
    (hcomments : ∀ comment ∈ group.comments, IsComment comment) :
    (∃ held kept before after,
      List.Forall₂ (fun comment ls => HoldsLines comment.toList ls) group.comments held ∧
      List.Forall₂ TrimsTo held.flatten kept ∧
      kept = before ++ group.lines.map String.toList ++ after ∧
      ∀ line ∈ before ++ after, line = []) ∧
    NormalLines (group.lines.map String.toList) ∧
    group.text = "\n".intercalate group.lines ∧
    ∀ other : CommentGroup, other.comments = group.lines.map ("// " ++ ·) →
      (∀ comment ∈ other.comments, IsComment comment) ∧
        other.text = group.text ∧ other.lines = group.lines := by
  have hnormal := normalLines_body hcomments
  have hlines := lines_eq hnormal
  have hbody : group.lines.map String.toList = group.body := by
    rw [hlines, List.map_map]
    exact (List.map_congr_left fun _ _ => String.toList_ofList).trans (List.map_id _)
  rw [hbody]
  refine ⟨?_, hnormal, ?_, fun other hother => ?_⟩
  · obtain ⟨held, hheld, -, hflat⟩ := exists_held hcomments
    obtain ⟨before, after, hempty, hends⟩ := exists_dropEmptyEnds (held.flatten.map trimEnd)
    refine ⟨held, held.flatten.map trimEnd, before, after, hheld, ?_, ?_, hempty⟩
    · exact List.forall₂_map_right_iff.2 (List.forall₂_same.2 fun cs _ => Text.trimsTo_trimEnd cs)
    · rw [body, hflat]
      exact hends
  · rw [← String.toList_inj, String.toList_intercalate, hbody, text, String.toList_ofList]
    rfl
  · have hother' : other.comments = group.body.map fun line => "// " ++ String.ofList line := by
      rw [hother, hlines, List.map_map]
      rfl
    have hsame := body_of_slashes hnormal hother'
    have htext : other.text = group.text := by rw [text, text, hsame]
    refine ⟨fun comment hcomment => ?_, htext, by rw [lines, lines, htext]⟩
    rw [hother'] at hcomment
    obtain ⟨line, hline, rfl⟩ := List.mem_map.1 hcomment
    exact isComment_slashes (by rw [String.toList_ofList]; exact hnormal.newline line hline)

/-- A block with carriage returns, an empty line inside and blanks at line ends, above two `//`
comments of which the last one is empty. -/
theorem text_normal_form_mixed :
    let source := "/*\r\n a \t\n\r\n b */\n//  c\r\n//"
    let tokens : List Token := [⟨.blockComment, "/*\r\n a \t\n\r\n b */", 1⟩, ⟨.newline, "\n", 4⟩,
      ⟨.lineComment, "//  c\r", 5⟩, ⟨.newline, "\n", 5⟩, ⟨.lineComment, "//", 6⟩]
    let group : CommentGroup := ⟨1, 6, ["/*\r\n a \t\n\r\n b */", "//  c\r", "//"]⟩
    let other : CommentGroup := ⟨1, 4, ["//  a", "// ", "//  b", "//  c"]⟩
    (Token.ofText source = .ok tokens ∧ group ∈ (Layout.ofTokens tokens).groups) ∧
      group.lines = [" a", "", " b", " c"] ∧ NormalLines (group.lines.map String.toList) ∧
      other.text = group.text ∧ other.lines = group.lines := by
  intro source tokens group other
  have htokens : Token.ofText source = .ok tokens := by decide +kernel
  have hgroup : group ∈ (Layout.ofTokens tokens).groups := by decide
  have hlines : group.lines = [" a", "", " b", " c"] := by decide
  obtain ⟨-, hnormal, -, hother⟩ := text_normal_form group (isComment_of_mem_groups htokens hgroup)
  exact ⟨⟨htokens, hgroup⟩, hlines, hnormal, (hother other (by rw [hlines]; rfl)).2⟩

end CommentGroup
end Source
end ApiDocs
