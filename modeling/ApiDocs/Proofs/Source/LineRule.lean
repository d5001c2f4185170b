/-
  ApiDocs.Proofs.Source.LineRule

  Which comments stand together, and which of them document code. Comments are taken with their
  places among the tokens (`Placed`), and the groups of a layout are blocks of them (`Block`). Two
  neighbours share a block by a rule on lines (`Close`), and a block documents the code token on
  the line below it (`Documents`).

  The layout is read token by token (`Progress.step`), and what one token adds keeps to the rule
  (`Grouped.step`); so does the whole list (`ofTokens_line_rule`).
-/

import ApiDocs.Proofs.Source.Names
import ApiDocs.Source.Layout

namespace ApiDocs.Source

/-! ## Lines -/

/-- The line that a token ends on. -/
def Token.endLine (token : Token) : Nat :=
  token.line + Layout.innerNewlines token

/-- Neither a newline nor a comment. -/
def TokenKind.isCode (kind : TokenKind) : Bool :=
  kind ≠ .newline && !kind.isComment

theorem TokenKind.not_code_of_isComment {kind : TokenKind} (h : kind.isComment = true) :
    kind ≠ .newline ∧ kind.isCode = false := by
  cases kind <;> simp_all [isComment, isCode]

/-- The line behind the first `n` tokens, as their line ends count it. -/
def lineAt (tokens : List Token) (n : Nat) : Nat :=
  1 + ((tokens.take n).map Layout.innerNewlines).sum

/-- Every token stands on the line that the tokens before it count, and a newline ends one line. -/
structure Lined (tokens : List Token) : Prop where
  line : ∀ n token, tokens[n]? = some token → token.line = lineAt tokens n
  newline : ∀ token ∈ tokens, token.kind = .newline → Layout.innerNewlines token = 1

theorem lineAt_succ {tokens : List Token} {n : Nat} {token : Token} (h : tokens[n]? = some token) :
    lineAt tokens (n + 1) = lineAt tokens n + Layout.innerNewlines token := by
  rw [lineAt, lineAt, List.take_add_one, h, Option.toList_some, List.map_append, List.sum_append]
  simp [Nat.add_assoc]

theorem lineAt_append {front : List Token} (rest : List Token) {n : Nat} (h : n ≤ front.length) :
    lineAt (front ++ rest) n = lineAt front n := by
  rw [lineAt, lineAt, List.take_append_of_le_length h]

/-- The lines of tokens that cover a text. -/
theorem Covers.line {text : List Char} {tokens : List Token} (h : Covers text tokens) :
    1 + text.count '\n' = lineAt tokens tokens.length ∧
      ∀ n token, tokens[n]? = some token → token.line = lineAt tokens n := by
  induction h with
  | nil => exact ⟨rfl, fun n token h => by simp at h⟩
  | @concat front blanks tokens token h hblanks htext hline ih =>
    obtain ⟨hcount, hlines⟩ := ih
    have hlast : token.line = lineAt tokens tokens.length := by
      rw [hline, List.count_append, count_blanks hblanks, Nat.add_zero, hcount]
    constructor
    · rw [List.length_append, List.length_singleton,
        lineAt_succ (List.getElem?_concat_length (l := tokens) (a := token)), lineAt_append _ le_rfl]
      rw [← hlast, hline, List.count_append, ← Nat.add_assoc]
      rfl
    · intro n other hother
      rcases Nat.lt_or_ge n tokens.length with hn | hn
      · rw [List.getElem?_append_left hn] at hother
        rw [lineAt_append _ hn.le, hlines n other hother]
      · obtain ⟨rfl, rfl⟩ : n = tokens.length ∧ token = other := by
          have hlt := (List.getElem?_eq_some_iff.1 hother).1
          rw [List.length_append, List.length_singleton] at hlt
          obtain rfl : n = tokens.length := by omega
          exact ⟨rfl, by simpa using hother⟩
        rw [lineAt_append _ le_rfl, hlast]

theorem lined_of_ofText {source : String} {tokens : List Token} (h : Token.ofText source = .ok tokens) :
    Lined tokens := by
  refine ⟨?_, ?_⟩
  · rcases Token.ofText_cases source with ⟨_, _, tokens', hok, -, -, -, hcovers⟩ |
      ⟨_, _, _, _, herror, -⟩
    · rw [h] at hok
      cases hok
      exact hcovers.line.2
    · rw [h] at herror
      cases herror
  · intro token hmem hkind
    have hpattern := Token.mem_pattern_of_ofText h hmem
    rw [hkind] at hpattern
    rw [Layout.innerNewlines, Pattern.mem_exactly.1 hpattern]
    decide

/-! ## Reading token by token -/

namespace Layout

/-- What has been read so far. -/
structure Progress where
  code : List Code := []
  groups : List CommentGroup := []
  state : State := {}

namespace Progress

/-- The group that is still pending, if there is one. -/
def pending (p : Progress) : List CommentGroup :=
  (p.state.pending.map (·.group)).toList

/-- Reads one more token. -/
def step (p : Progress) (token : Token) : Progress :=
  let s := p.state
  if token.kind = .newline then
    { p with state := { s with sinceComment := s.sinceComment + 1, sinceCode := s.sinceCode + 1 } }
  else if token.kind.isComment then
    let sinceCode := s.sinceCode + innerNewlines token
    match s.pending.filter (·.admits s.sinceComment) with
    | some ⟨group, trailing⟩ =>
      let grown :=
        { group with endLine := token.endLine, comments := group.comments ++ [token.text] }
      { p with state := { s with pending := some ⟨grown, trailing⟩, sinceComment := 0, sinceCode } }
    | none =>
      let opened : OpenGroup :=
        ⟨⟨token.line, token.endLine, [token.text]⟩, s.sinceCode = 0 && s.seenCode⟩
      { p with
        groups := p.groups ++ p.pending
        state := { s with pending := some opened, sinceComment := 0, sinceCode } }
  else
    let doc := s.pending.filter fun open_ => !open_.trailing && s.sinceComment = 1
    { code := p.code ++ [{ token with newlineBefore := 0 < s.sinceCode, doc := doc.map (·.group) }]
      groups := p.groups ++ p.pending
      state := { seenCode := true } }

/-- The layout of all that has been read. -/
def layout (p : Progress) : Layout :=
  ⟨p.code, p.groups ++ p.pending⟩

theorem layout_foldl (tokens : List Token) (p : Progress) :
    (tokens.foldl step p).layout =
      ⟨p.code ++ (read p.state tokens).code, p.groups ++ (read p.state tokens).groups⟩ := by
  induction tokens generalizing p with
  | nil => simp [layout, read, pending]
  | cons token tokens ih =>
    rw [List.foldl_cons, ih, step, read]
    dsimp only
    split
    · rfl
    split
    · cases p.state.pending.filter (·.admits p.state.sinceComment) with
      | none => simp [pending, Token.endLine]
      | some open_ => rfl
    · simp [pending]

end Progress

theorem ofTokens_eq_foldl (tokens : List Token) :
    ofTokens tokens = (tokens.foldl Progress.step {}).layout := by
  rw [Progress.layout_foldl]
  rfl

end Layout

/-! ## The rule -/

/-- A token and its place among all tokens. -/
abbrev Placed := Token × Nat

/-- Comments that stand together; there is at least one. -/
structure Block where
  first : Placed
  others : List Placed

namespace Block

/-- All comments of the block, in order. -/
def comments (block : Block) : List Placed :=
  block.first :: block.others

/-- The comment that ends the block. -/
def last (block : Block) : Placed :=
  block.others.getLastD block.first

/-- The group that the comments make up. -/
def group (block : Block) : CommentGroup where
  startLine := block.first.1.line
  endLine := block.last.1.endLine
  comments := block.comments.map fun comment => comment.1.text

/-- The block with one more comment. -/
def grow (block : Block) (comment : Placed) : Block :=
  { block with others := block.others ++ [comment] }

@[simp] theorem comments_grow (block : Block) (comment : Placed) :
    (block.grow comment).comments = block.comments ++ [comment] := rfl

@[simp] theorem first_grow (block : Block) (comment : Placed) :
    (block.grow comment).first = block.first := rfl

@[simp] theorem last_grow (block : Block) (comment : Placed) :
    (block.grow comment).last = comment := by
  simp [last, grow]

theorem getLast?_comments (block : Block) : block.comments.getLast? = some block.last := by
  rw [comments, List.getLast?_cons, last, List.getLastD_eq_getLast?]

end Block

section Rule

variable (tokens : List Token)

/-- A code token stands strictly between two places. -/
def CodeBetween (i j : Nat) : Prop :=
  ∃ k token, i < k ∧ k < j ∧ tokens[k]? = some token ∧ token.kind.isCode = true

/-- The comment starts on the line on which the code token before it ends. -/
def TrailsCode (comment : Placed) : Prop :=
  ∃ k token, k < comment.2 ∧ tokens[k]? = some token ∧ token.kind.isCode = true ∧
    ¬ CodeBetween tokens k comment.2 ∧ comment.1.line = token.endLine

variable (blocks : List Block)

/-- Two comments are in one block. -/
def Together (a b : Placed) : Prop :=
  ∃ block ∈ blocks, a ∈ block.comments ∧ b ∈ block.comments

/-- The comment is in a block that trails code. -/
def Trailing (a : Placed) : Prop :=
  ∃ block ∈ blocks, a ∈ block.comments ∧ TrailsCode tokens block.first

/-- No code stands between two comments, and the second starts at most one line below the end of the
first, or on the very line of it if they would trail code. -/
def Close (a b : Placed) : Prop :=
  ¬ CodeBetween tokens a.2 b.2 ∧ b.1.line ≤ a.1.endLine + 1 ∧
    (Trailing tokens blocks a → b.1.line = a.1.endLine)

/-- The block is the last one before a code token, with no code between them; it does not trail
code, and the token starts on the line right below it. -/
def Documents (block : Block) (code : Placed) : Prop :=
  block ∈ blocks ∧ block.last.2 < code.2 ∧
    (∀ other ∈ blocks, other.last.2 < code.2 → other.last.2 ≤ block.last.2) ∧
    ¬ CodeBetween tokens block.last.2 code.2 ∧ ¬ TrailsCode tokens block.first ∧
    code.1.line = block.last.1.endLine + 1

end Rule

/-! ## Places -/

/-- The tokens of some kinds among the first `n`, with their places. -/
def placed (p : TokenKind → Bool) (tokens : List Token) (n : Nat) : List Placed :=
  (tokens.zipIdx.take n).filter fun token => p token.1.kind

theorem mem_placed {p : TokenKind → Bool} {tokens : List Token} {n : Nat} {c : Placed}
    (h : c ∈ placed p tokens n) : c.2 < n ∧ tokens[c.2]? = some c.1 ∧ p c.1.kind = true := by
  obtain ⟨hmem, hkind⟩ := List.mem_filter.1 h
  obtain ⟨i, hi⟩ := List.mem_iff_getElem?.1 hmem
  rw [List.getElem?_take, List.getElem?_zipIdx] at hi
  split at hi
  · rename_i hlt
    obtain ⟨token, htoken, rfl⟩ := Option.map_eq_some_iff.1 hi
    rw [Nat.zero_add]
    exact ⟨hlt, htoken, hkind⟩
  · cases hi

theorem placed_length (p : TokenKind → Bool) (tokens : List Token) :
    placed p tokens tokens.length = tokens.zipIdx.filter fun token => p token.1.kind := by
  rw [placed, List.take_of_length_le (by simp)]

section Token

variable {tokens : List Token} {n : Nat} {token : Token} (htoken : tokens[n]? = some token)
include htoken

theorem placed_succ (p : TokenKind → Bool) :
    placed p tokens (n + 1) = placed p tokens n ++ if p token.kind then [(token, n)] else [] := by
  have hget : tokens.zipIdx[n]? = some (token, n) := by
    rw [List.getElem?_zipIdx, htoken]
    simp
  rw [placed, List.take_add_one, hget, Option.toList_some, List.filter_append, placed]
  cases hp : p token.kind <;> simp [hp]

theorem codeBetween_succ {i : Nat} (hi : i < n) :
    CodeBetween tokens i (n + 1) ↔ CodeBetween tokens i n ∨ token.kind.isCode = true := by
  constructor
  · rintro ⟨k, other, hik, hkn, hother, hcode⟩
    rcases Nat.lt_or_ge k n with hlt | hge
    · exact .inl ⟨k, other, hik, hlt, hother, hcode⟩
    · obtain rfl : k = n := by omega
      rw [htoken] at hother
      cases hother
      exact .inr hcode
  · rintro (⟨k, other, hik, hkn, hother, hcode⟩ | hcode)
    · exact ⟨k, other, hik, by omega, hother, hcode⟩
    · exact ⟨n, token, hi, by omega, htoken, hcode⟩

end Token

/-! ## Blocks that grow -/

/-- Blocks stand in the order of the tokens, and so do the comments of each. -/
structure Ordered (n : Nat) (blocks : List Block) : Prop where
  within : ∀ block ∈ blocks, ∀ comment ∈ block.comments, comment.2 ≤ block.last.2
  before : ∀ block ∈ blocks, block.last.2 < n
  sorted : blocks.Pairwise fun block later => block.last.2 < later.last.2

theorem Ordered.mono {n m : Nat} {blocks : List Block} (h : Ordered n blocks) (hnm : n ≤ m) :
    Ordered m blocks :=
  ⟨h.within, fun block hblock => Nat.lt_of_lt_of_le (h.before block hblock) hnm, h.sorted⟩

theorem Ordered.init {n : Nat} {closed : List Block} {last : Block}
    (h : Ordered n (closed ++ [last])) : Ordered n closed :=
  ⟨fun block hblock => h.within block (List.mem_append_left _ hblock),
    fun block hblock => h.before block (List.mem_append_left _ hblock),
    (List.pairwise_append.1 h.sorted).1⟩

theorem Ordered.concat {n : Nat} {closed : List Block} {last : Block} (h : Ordered n closed)
    (hlast : last.last.2 = n) (hwithin : ∀ comment ∈ last.comments, comment.2 ≤ n) :
    Ordered (n + 1) (closed ++ [last]) where
  within block hblock := by
    rcases List.mem_append.1 hblock with hblock | hblock
    · exact h.within block hblock
    · obtain rfl := List.mem_singleton.1 hblock
      rwa [hlast]
  before block hblock := by
    rcases List.mem_append.1 hblock with hblock | hblock
    · exact Nat.lt_succ_of_lt (h.before block hblock)
    · obtain rfl := List.mem_singleton.1 hblock
      omega
  sorted := by
    refine List.pairwise_append.2 ⟨h.sorted, List.pairwise_singleton _ _, fun block hblock later hlater => ?_⟩
    obtain rfl := List.mem_singleton.1 hlater
    rw [hlast]
    exact h.before block hblock

/-- Only the last block holds the last comment. -/
theorem Ordered.trailing_last {tokens : List Token} {n : Nat} {closed : List Block} {last : Block}
    (h : Ordered n (closed ++ [last])) :
    Trailing tokens (closed ++ [last]) last.last ↔ TrailsCode tokens last.first := by
  constructor
  · rintro ⟨block, hblock, hmem, htrails⟩
    rcases List.mem_append.1 hblock with hclosed | hlast
    · have hle := h.within block hblock _ hmem
      have hlt := (List.pairwise_append.1 h.sorted).2.2 block hclosed last (List.mem_singleton_self _)
      omega
    · obtain rfl := List.mem_singleton.1 hlast
      exact htrails
  · intro htrails
    exact ⟨last, by simp, List.mem_of_getLast? last.getLast?_comments, htrails⟩

/-- One more comment joins the last block, or starts a block of its own. -/
inductive Receives (comment : Placed) : List Block → List Block → Prop where
  | grows (closed : List Block) (last : Block) :
      Receives comment (closed ++ [last]) (closed ++ [last.grow comment])
  | opens (blocks : List Block) : Receives comment blocks (blocks ++ [⟨comment, []⟩])

namespace Receives

variable {tokens : List Token} {n : Nat} {comment a b : Placed} {blocks blocks' : List Block}
  (h : Receives comment blocks blocks')
include h

theorem comments : blocks'.flatMap Block.comments = blocks.flatMap Block.comments ++ [comment] := by
  cases h with
  | grows closed last => simp
  | opens blocks => simp [Block.comments]

theorem ordered (hcomment : comment.2 = n) (hordered : Ordered n blocks) : Ordered (n + 1) blocks' := by
  cases h with
  | grows closed last =>
    refine hordered.init.concat (by simpa using hcomment) fun other hother => ?_
    have hmem : last ∈ closed ++ [last] := by simp
    rw [Block.comments_grow] at hother
    rcases List.mem_append.1 hother with hother | hother
    · have hwithin := hordered.within last hmem other hother
      have hbefore := hordered.before last hmem
      omega
    · obtain rfl := List.mem_singleton.1 hother
      omega
  | opens blocks =>
    refine hordered.concat hcomment fun other hother => ?_
    obtain rfl := List.mem_singleton.1 hother
    omega

/-- For any other comment, its block holds the same comments as before, this one apart. -/
theorem together_iff (ha : a ≠ comment) (hb : b ≠ comment) :
    Together blocks' a b ↔ Together blocks a b := by
  cases h with
  | grows closed last => simp [Together, or_and_right, exists_or, ha, hb]
  | opens blocks => simp [Together, Block.comments, or_and_right, exists_or, ha]

theorem trailing_iff (ha : a ≠ comment) : Trailing tokens blocks' a ↔ Trailing tokens blocks a := by
  cases h with
  | grows closed last => simp [Trailing, or_and_right, exists_or, ha]
  | opens blocks => simp [Trailing, Block.comments, or_and_right, exists_or, ha]

theorem close_iff (ha : a ≠ comment) : Close tokens blocks' a b ↔ Close tokens blocks a b := by
  rw [Close, Close, h.trailing_iff ha]

end Receives

/-- Neighbours in a list with one more element. -/
theorem infix_pair_concat {α : Type} {l : List α} {a b c : α} (h : [a, b] <:+: l ++ [c]) :
    [a, b] <:+: l ∨ l.getLast? = some a ∧ b = c := by
  rcases List.infix_concat_iff.1 h with ⟨front, hfront⟩ | h
  · have hsplit : (front ++ [a]) ++ [b] = l ++ [c] := by simpa using hfront
    obtain ⟨rfl, hbc⟩ := List.append_inj' hsplit rfl
    exact .inr ⟨by simp, by simpa using hbc⟩
  · exact .inl h

/-- A block that ends behind a code token does not matter to its documentation. -/
theorem documents_append_iff {tokens : List Token} {closed rest : List Block} {block : Block}
    {code : Placed} (hrest : ∀ other ∈ rest, code.2 ≤ other.last.2) :
    Documents tokens (closed ++ rest) block code ↔ Documents tokens closed block code := by
  constructor
  · rintro ⟨hmem, hbefore, hlast, hbelow⟩
    refine ⟨?_, hbefore, fun other hother => hlast other (List.mem_append_left _ hother), hbelow⟩
    rcases List.mem_append.1 hmem with hmem | hmem
    · exact hmem
    · have hle := hrest block hmem
      omega
  · rintro ⟨hmem, hbefore, hlast, hbelow⟩
    refine ⟨List.mem_append_left _ hmem, hbefore, fun other hother hlt => ?_, hbelow⟩
    rcases List.mem_append.1 hother with hother | hother
    · exact hlast other hother hlt
    · have hle := hrest other hother
      omega

/-! ## What has been read -/

open Layout (Progress)

section State

variable (tokens : List Token) (n : Nat)

/-- The groups that have been closed, and the one that is pending. A group is pending as long as
no code follows it, and then line ends are counted from the last comment. -/
inductive Pending : Progress → List Block → Prop where
  | closed {p : Progress} {blocks : List Block} (hpending : p.state.pending = none)
      (hgroups : p.groups = blocks.map Block.group)
      (hcode : ∀ block ∈ blocks, CodeBetween tokens block.last.2 n) : Pending p blocks
  | opened {p : Progress} {closed : List Block} {last : Block} {trailing : Bool}
      (hpending : p.state.pending = some ⟨last.group, trailing⟩)
      (hgroups : p.groups = closed.map Block.group)
      (htrailing : trailing = true ↔ TrailsCode tokens last.first)
      (hcode : ¬ CodeBetween tokens last.last.2 n)
      (hline : lineAt tokens n = last.last.1.endLine + p.state.sinceComment) :
      Pending p (closed ++ [last])

/-- The last code token so far, from which line ends are counted, if there is one. -/
def LastCode (s : Layout.State) : Prop :=
  if s.seenCode then
    ∃ k token, k < n ∧ tokens[k]? = some token ∧ token.kind.isCode = true ∧
      ¬ CodeBetween tokens k n ∧ lineAt tokens n = token.endLine + s.sinceCode
  else
    ∀ k token, k < n → tokens[k]? = some token → token.kind.isCode = false

/-- The first `n` tokens have been read by the rule. -/
structure Grouped (p : Progress) (blocks : List Block) : Prop where
  comments : blocks.flatMap Block.comments = placed TokenKind.isComment tokens n
  joined : ∀ a b, [a, b] <:+: blocks.flatMap Block.comments →
    (Together blocks a b ↔ Close tokens blocks a b)
  docs : List.Forall₂ (fun (code : Code) c => code.toToken = c.1 ∧
      ∀ g, code.doc = some g ↔ ∃ block, Documents tokens blocks block c ∧ g = block.group)
    p.code (placed TokenKind.isCode tokens n)
  ordered : Ordered n blocks
  pending : Pending tokens n p blocks
  lastCode : LastCode tokens n p.state

end State

section Step

variable {tokens : List Token} {n : Nat} {p : Progress} {blocks : List Block} {token : Token}

theorem Pending.groups (h : Pending tokens n p blocks) :
    p.groups ++ p.pending = blocks.map Block.group := by
  cases h with
  | closed hpending hgroups => simp [Progress.pending, hpending, hgroups]
  | opened hpending hgroups => simp [Progress.pending, hpending, hgroups]

/-- A comment that would open a block trails code exactly if no line has ended since the last code
token. -/
theorem LastCode.trailsCode_iff (h : LastCode tokens n p.state) (hline : token.line = lineAt tokens n) :
    (decide (p.state.sinceCode = 0) && p.state.seenCode) = true ↔ TrailsCode tokens (token, n) := by
  rw [LastCode] at h
  rw [Bool.and_eq_true, decide_eq_true_eq]
  split at h
  · rename_i hseen
    obtain ⟨k, code, hk, hcode, hiscode, hlast, hat⟩ := h
    constructor
    · rintro ⟨hsince, -⟩
      refine ⟨k, code, hk, hcode, hiscode, hlast, ?_⟩
      show token.line = code.endLine
      omega
    · rintro ⟨k', code', hk', hcode', hiscode', hlast', hat'⟩
      -- both are the last code token before the comment
      obtain rfl : k = k' := by
        by_contra hne
        rcases Nat.lt_or_gt_of_ne hne with hlt | hlt
        · exact hlast ⟨k', code', hlt, hk', hcode', hiscode'⟩
        · exact hlast' ⟨k, code, hlt, hk, hcode, hiscode⟩
      rw [hcode] at hcode'
      cases hcode'
      have hsame : token.line = code.endLine := hat'
      exact ⟨by omega, hseen⟩
  · rename_i hseen
    refine ⟨fun hboth => absurd hboth.2 hseen, ?_⟩
    rintro ⟨k, code, hk, hcode, hiscode, -⟩
    rw [h k code hk hcode] at hiscode
    cases hiscode

/-- A token that is no code, and the lines that end in it. -/
theorem LastCode.skip (h : LastCode tokens n p.state) (htoken : tokens[n]? = some token)
    (hskip : token.kind.isCode = false) {s : Layout.State} (hseen : s.seenCode = p.state.seenCode)
    (hsince : s.sinceCode = p.state.sinceCode + Layout.innerNewlines token) :
    LastCode tokens (n + 1) s := by
  rw [LastCode] at h ⊢
  rw [hseen]
  split at h
  · rename_i hseen
    obtain ⟨k, code, hk, hcode, hiscode, hlast, hat⟩ := h
    rw [if_pos hseen]
    refine ⟨k, code, by omega, hcode, hiscode, ?_, ?_⟩
    · rw [codeBetween_succ htoken hk, hskip]
      simpa using hlast
    · rw [lineAt_succ htoken, hsince]
      omega
  · rename_i hseen
    rw [if_neg hseen]
    intro k other hk hother
    rcases Nat.lt_or_ge k n with hlt | hge
    · exact h k other hlt hother
    · obtain rfl : k = n := by omega
      rw [htoken] at hother
      cases hother
      exact hskip

/-- The pending block documents the token on the next line, unless it trails code. -/
theorem Pending.documents_iff {closed : List Block} {last block : Block} (hordered : Ordered n (closed ++ [last]))
    (hcode : ¬ CodeBetween tokens last.last.2 n) :
    Documents tokens (closed ++ [last]) block (token, n) ↔
      block = last ∧ ¬ TrailsCode tokens last.first ∧ token.line = last.last.1.endLine + 1 := by
  have hlast : last ∈ closed ++ [last] := by simp
  constructor
  · rintro ⟨hmem, -, hlatest, -, htrails, hbelow⟩
    obtain rfl : block = last := by
      rcases List.mem_append.1 hmem with hclosed | hsingle
      · have hle := hlatest last hlast (hordered.before last hlast)
        have hlt := (List.pairwise_append.1 hordered.sorted).2.2 block hclosed last
          (List.mem_singleton_self _)
        omega
      · exact List.mem_singleton.1 hsingle
    exact ⟨rfl, htrails, hbelow⟩
  · rintro ⟨rfl, htrails, hbelow⟩
    refine ⟨hlast, hordered.before _ hlast, fun other hother _ => ?_, hcode, htrails, hbelow⟩
    rcases List.mem_append.1 hother with hclosed | hsingle
    · exact ((List.pairwise_append.1 hordered.sorted).2.2 other hclosed _
        (List.mem_singleton_self _)).le
    · rw [List.mem_singleton.1 hsingle]

theorem Pending.doc_iff (h : Pending tokens n p blocks) (hordered : Ordered n blocks)
    (hline : token.line = lineAt tokens n) (g : CommentGroup) :
    (p.state.pending.filter fun open_ => !open_.trailing && p.state.sinceComment = 1).map (·.group) =
        some g ↔
      ∃ block, Documents tokens blocks block (token, n) ∧ g = block.group := by
  cases h with
  | closed hpending hgroups hbetween =>
    rw [hpending]
    refine ⟨fun hnone => (by cases hnone), ?_⟩
    rintro ⟨block, ⟨hmem, -, -, hcode, -⟩, -⟩
    exact absurd (hbetween block hmem) hcode
  | @opened closed last trailing hpending hgroups htrailing hcode hat =>
    have hbelow : p.state.sinceComment = 1 ↔ token.line = last.last.1.endLine + 1 := by omega
    have hfilter : (!trailing && decide (p.state.sinceComment = 1)) = true ↔
        ¬ TrailsCode tokens last.first ∧ token.line = last.last.1.endLine + 1 := by
      rw [← htrailing, ← hbelow]
      simp
    simp only [documents_iff hordered hcode, hpending, Option.map_eq_some_iff, Option.filter_eq_some_iff,
      Option.some.injEq]
    constructor
    · rintro ⟨open_, ⟨rfl, hdoc⟩, rfl⟩
      exact ⟨last, ⟨rfl, hfilter.1 hdoc⟩, rfl⟩
    · rintro ⟨block, ⟨rfl, hdoc⟩, rfl⟩
      exact ⟨_, ⟨rfl, hfilter.2 hdoc⟩, rfl⟩

/-- A newline changes no block, and ends one line. -/
theorem Grouped.newline (hlined : Lined tokens) (h : Grouped tokens n p blocks)
    (htoken : tokens[n]? = some token) (hkind : token.kind = .newline) :
    Grouped tokens (n + 1) (p.step token) blocks := by
  have hcode : token.kind.isCode = false := by rw [hkind]; rfl
  have hcomment : token.kind.isComment = false := by rw [hkind]; rfl
  have hone := hlined.newline token (List.mem_of_getElem? htoken) hkind
  have hstep : p.step token = { p with state := { p.state with
      sinceComment := p.state.sinceComment + 1, sinceCode := p.state.sinceCode + 1 } } := by
    rw [Progress.step, if_pos hkind]
  rw [hstep]
  refine ⟨?_, h.joined, ?_, h.ordered.mono (Nat.le_succ n), ?_, ?_⟩
  · rw [placed_succ htoken, hcomment, h.comments]
    simp
  · rw [placed_succ htoken, hcode]
    simpa using h.docs
  · obtain ⟨-, -, -, hordered, hpending, -⟩ := h
    cases hpending with
    | closed hpending hgroups hbetween =>
      refine .closed hpending hgroups fun block hblock => ?_
      exact (codeBetween_succ htoken (hordered.before block hblock)).2 (.inl (hbetween block hblock))
    | @opened _ last _ hpending hgroups htrailing hbetween hline =>
      refine .opened hpending hgroups htrailing ?_ ?_
      · rw [codeBetween_succ htoken (hordered.before last (by simp)), hcode]
        simpa using hbetween
      · rw [lineAt_succ htoken, hline, hone, Nat.add_assoc]
  · exact h.lastCode.skip htoken hcode rfl (by rw [hone])

/-- A code token changes no block. It closes the pending one, which documents it from the line
right above. -/
theorem Grouped.code (hlined : Lined tokens) (h : Grouped tokens n p blocks)
    (htoken : tokens[n]? = some token) (hcode : token.kind.isCode = true) :
    Grouped tokens (n + 1) (p.step token) blocks := by
  obtain ⟨hnewline, hcomment⟩ : token.kind ≠ .newline ∧ token.kind.isComment = false := by
    simpa [TokenKind.isCode] using hcode
  have hline : token.line = lineAt tokens n := hlined.line n token htoken
  rw [Progress.step, if_neg hnewline, if_neg (by simp [hcomment])]
  refine ⟨?_, h.joined, ?_, h.ordered.mono (Nat.le_succ n), ?_, ?_⟩
  · rw [placed_succ htoken, hcomment, h.comments]
    simp
  · rw [placed_succ htoken, hcode]
    exact List.rel_append h.docs (.cons ⟨rfl, h.pending.doc_iff h.ordered hline⟩ .nil)
  · refine .closed rfl h.pending.groups fun block hblock => ?_
    exact (codeBetween_succ htoken (h.ordered.before block hblock)).2 (.inr hcode)
  · show ∃ k code, k < n + 1 ∧ tokens[k]? = some code ∧ code.kind.isCode = true ∧
      ¬ CodeBetween tokens k (n + 1) ∧ lineAt tokens (n + 1) = code.endLine + 0
    refine ⟨n, token, by omega, htoken, hcode, ?_, ?_⟩
    · rintro ⟨k, _, hlo, hhi, -⟩
      omega
    · rw [lineAt_succ htoken, ← hline]
      rfl

/-- A comment joins the last block, or opens one of its own; code that stands before it keeps its
documentation. -/
theorem Grouped.comment (h : Grouped tokens n p blocks) (htoken : tokens[n]? = some token)
    (hcomment : token.kind.isComment = true) {p' : Progress} {blocks' : List Block}
    (hreceives : Receives (token, n) blocks blocks')
    (hnew : ∀ a, (blocks.flatMap Block.comments).getLast? = some a →
      (Together blocks' a (token, n) ↔ Close tokens blocks' a (token, n)))
    (hdocs : ∀ c ∈ placed TokenKind.isCode tokens n, ∀ block,
      Documents tokens blocks' block c ↔ Documents tokens blocks block c)
    (hcode : p'.code = p.code) (hpending : Pending tokens (n + 1) p' blocks')
    (hlast : LastCode tokens (n + 1) p'.state) : Grouped tokens (n + 1) p' blocks' := by
  have hisCode := (TokenKind.not_code_of_isComment hcomment).2
  have hother : ∀ c ∈ blocks.flatMap Block.comments, c ≠ (token, n) := by
    rintro c hc rfl
    rw [h.comments] at hc
    exact absurd (mem_placed hc).1 (Nat.lt_irrefl n)
  refine ⟨?_, fun a b hpair => ?_, ?_, hreceives.ordered rfl h.ordered, hpending, hlast⟩
  · rw [hreceives.comments, placed_succ htoken, hcomment, h.comments]
    simp
  · rw [hreceives.comments] at hpair
    rcases infix_pair_concat hpair with hold | ⟨ha, rfl⟩
    · have hane := hother a (hold.subset (by simp))
      have hbne := hother b (hold.subset (by simp))
      rw [hreceives.together_iff hane hbne, hreceives.close_iff hane]
      exact h.joined a b hold
    · exact hnew a ha
  · rw [placed_succ htoken, hisCode, hcode, if_neg Bool.false_ne_true, List.append_nil]
    refine List.forall₂_iff_zip.2 ⟨h.docs.length_eq, fun {code c} hzip => ?_⟩
    obtain ⟨htoken, hdoc⟩ := (List.forall₂_iff_zip.1 h.docs).2 hzip
    refine ⟨htoken, fun g => ?_⟩
    simp only [hdoc g, hdocs c (List.of_mem_zip hzip).2]

theorem getLast?_flatMap_comments (closed : List Block) (last : Block) :
    ((closed ++ [last]).flatMap Block.comments).getLast? = some last.last := by
  simp [List.getLast?_append, Block.getLast?_comments]

/-- The pending group admits the comments that are close to its last one. -/
theorem Receives.close_iff_admits {closed blocks' : List Block} {last : Block} {trailing : Bool}
    (hreceives : Receives (token, n) (closed ++ [last]) blocks') (hordered : Ordered n (closed ++ [last]))
    (hline : token.line = lineAt tokens n)
    (htrailing : trailing = true ↔ TrailsCode tokens last.first)
    (hcode : ¬ CodeBetween tokens last.last.2 n) {since : Nat}
    (hat : lineAt tokens n = last.last.1.endLine + since) :
    Close tokens blocks' last.last (token, n) ↔
      Layout.OpenGroup.admits ⟨last.group, trailing⟩ since = true := by
  have hne : last.last ≠ (token, n) := by
    intro heq
    have hbefore := hordered.before last (by simp)
    rw [heq] at hbefore
    exact Nat.lt_irrefl n hbefore
  rw [hreceives.close_iff hne, Close, hordered.trailing_last, ← htrailing]
  have hnear : token.line ≤ last.last.1.endLine + 1 ↔ since ≤ 1 := by omega
  have hsame : token.line = last.last.1.endLine ↔ since = 0 := by omega
  rw [hnear, hsame]
  simp only [hcode, not_false_eq_true, true_and, Layout.OpenGroup.admits, Bool.or_eq_true,
    Bool.and_eq_true, decide_eq_true_eq, Bool.not_eq_true']
  cases trailing <;> simp <;> omega

/-- The comment joins the pending block. -/
theorem Grouped.grows {closed : List Block} {last : Block} {trailing : Bool}
    (h : Grouped tokens n p (closed ++ [last])) (hlined : Lined tokens)
    (htoken : tokens[n]? = some token) (hcomment : token.kind.isComment = true)
    (hpending : p.state.pending = some ⟨last.group, trailing⟩)
    (hgroups : p.groups = closed.map Block.group)
    (htrailing : trailing = true ↔ TrailsCode tokens last.first)
    (hcode : ¬ CodeBetween tokens last.last.2 n)
    (hat : lineAt tokens n = last.last.1.endLine + p.state.sinceComment)
    (hadmits : Layout.OpenGroup.admits ⟨last.group, trailing⟩ p.state.sinceComment = true) :
    Grouped tokens (n + 1) (p.step token) (closed ++ [last.grow (token, n)]) := by
  obtain ⟨hnewline, hisCode⟩ := TokenKind.not_code_of_isComment hcomment
  have hline : token.line = lineAt tokens n := hlined.line n token htoken
  have hreceives : Receives (token, n) (closed ++ [last]) (closed ++ [last.grow (token, n)]) :=
    .grows closed last
  have hclose := (hreceives.close_iff_admits h.ordered hline htrailing hcode hat).2 hadmits
  have hadmitted : p.state.pending.filter (·.admits p.state.sinceComment) =
      some ⟨last.group, trailing⟩ := by
    rw [hpending, Option.filter_some, if_pos hadmits]
  have hstep : p.step token = { p with state := { p.state with
      pending := some ⟨(last.grow (token, n)).group, trailing⟩
      sinceComment := 0
      sinceCode := p.state.sinceCode + Layout.innerNewlines token } } := by
    rw [Progress.step, if_neg hnewline, if_pos hcomment, hadmitted]
    simp [Block.group]
  rw [hstep]
  refine h.comment htoken hcomment hreceives (fun a ha => ?_) (fun c hc block => ?_) rfl ?_ ?_
  · obtain rfl : last.last = a := by
      rw [getLast?_flatMap_comments] at ha
      exact Option.some.inj ha
    refine ⟨fun _ => hclose, fun _ => ⟨last.grow (token, n), by simp, ?_, by simp⟩⟩
    rw [Block.comments_grow]
    exact List.mem_append_left _ (List.mem_of_getLast? last.getLast?_comments)
  · -- all code so far stands before the block
    obtain ⟨hlt, hget, hkind⟩ := mem_placed hc
    have hle : c.2 ≤ last.last.2 := by
      by_contra hbehind
      exact hcode ⟨c.2, c.1, by omega, hlt, hget, hkind⟩
    rw [documents_append_iff, documents_append_iff]
    · simpa using hle
    · simpa using hlt.le
  · refine .opened rfl hgroups htrailing ?_ ?_
    · rw [Block.last_grow]
      rintro ⟨k, _, hlo, hhi, -⟩
      omega
    · rw [Block.last_grow, lineAt_succ htoken, ← hline]
      rfl
  · exact h.lastCode.skip htoken hisCode rfl rfl

/-- The comment opens a block. -/
theorem Grouped.opens (h : Grouped tokens n p blocks) (hlined : Lined tokens)
    (htoken : tokens[n]? = some token) (hcomment : token.kind.isComment = true)
    (hrefused : p.state.pending.filter (·.admits p.state.sinceComment) = none)
    (hfar : ∀ a, (blocks.flatMap Block.comments).getLast? = some a →
      ¬ Close tokens (blocks ++ [⟨(token, n), []⟩]) a (token, n)) :
    Grouped tokens (n + 1) (p.step token) (blocks ++ [⟨(token, n), []⟩]) := by
  obtain ⟨hnewline, hisCode⟩ := TokenKind.not_code_of_isComment hcomment
  have hline : token.line = lineAt tokens n := hlined.line n token htoken
  have hstep : p.step token = { p with
      groups := p.groups ++ p.pending
      state := { p.state with
        pending := some ⟨Block.group ⟨(token, n), []⟩, p.state.sinceCode = 0 && p.state.seenCode⟩
        sinceComment := 0
        sinceCode := p.state.sinceCode + Layout.innerNewlines token } } := by
    rw [Progress.step, if_neg hnewline, if_pos hcomment, hrefused]
    rfl
  rw [hstep]
  refine h.comment htoken hcomment (.opens blocks) (fun a ha => ?_) (fun c hc block => ?_) rfl ?_ ?_
  · refine ⟨fun htogether => ?_, fun hclose => absurd hclose (hfar a ha)⟩
    -- no block of before holds the comment, and its own holds no other
    obtain ⟨block, hblock, hmem, hnew⟩ := htogether
    have hold : ∀ c ∈ blocks.flatMap Block.comments, c.2 < n := by
      intro c hc
      rw [h.comments] at hc
      exact (mem_placed hc).1
    rcases List.mem_append.1 hblock with hblock | hblock
    · exact absurd (hold _ (List.mem_flatMap.2 ⟨block, hblock, hnew⟩)) (Nat.lt_irrefl n)
    · obtain rfl := List.mem_singleton.1 hblock
      obtain rfl := List.mem_singleton.1 hmem
      exact absurd (hold _ (List.mem_of_getLast? ha)) (Nat.lt_irrefl n)
  · rw [documents_append_iff]
    simpa [Block.last] using (mem_placed hc).1.le
  · refine .opened rfl h.pending.groups (h.lastCode.trailsCode_iff hline) ?_ ?_
    · rintro ⟨k, _, hlo, hhi, -⟩
      have hlo : n < k := hlo
      omega
    · rw [lineAt_succ htoken, ← hline]
      rfl
  · exact h.lastCode.skip htoken hisCode rfl rfl

/-- **One more token keeps to the rule.** -/
theorem Grouped.step (h : Grouped tokens n p blocks) (hlined : Lined tokens)
    (htoken : tokens[n]? = some token) : ∃ blocks', Grouped tokens (n + 1) (p.step token) blocks' := by
  by_cases hnewline : token.kind = .newline
  · exact ⟨blocks, h.newline hlined htoken hnewline⟩
  cases hcomment : token.kind.isComment with
  | false => exact ⟨blocks, h.code hlined htoken (by simp [TokenKind.isCode, hnewline, hcomment])⟩
  | true =>
    have hline : token.line = lineAt tokens n := hlined.line n token htoken
    cases h.pending with
    | closed hnone hgroups hbetween =>
      refine ⟨_, h.opens hlined htoken hcomment (by rw [hnone]; rfl) fun a ha hclose => ?_⟩
      -- code has followed the last comment
      rcases List.eq_nil_or_concat blocks with rfl | ⟨closed, last, rfl⟩
      · cases ha
      · rw [List.concat_eq_append, getLast?_flatMap_comments] at ha
        obtain rfl := Option.some.inj ha
        exact hclose.1 (hbetween last (by simp))
    | @opened closed last trailing hsome hgroups htrailing hcode hat =>
      cases hadmits : Layout.OpenGroup.admits ⟨last.group, trailing⟩ p.state.sinceComment with
      | true => exact ⟨_, h.grows hlined htoken hcomment hsome hgroups htrailing hcode hat hadmits⟩
      | false =>
        refine ⟨_, h.opens hlined htoken hcomment (by simp [hsome, hadmits]) fun a ha hclose => ?_⟩
        rw [getLast?_flatMap_comments] at ha
        obtain rfl := Option.some.inj ha
        rw [(Receives.opens _).close_iff_admits h.ordered hline htrailing hcode hat, hadmits] at hclose
        cases hclose

/-- Any number of tokens keep to the rule. -/
theorem exists_grouped (hlined : Lined tokens) (hn : n ≤ tokens.length) :
    ∃ blocks, Grouped tokens n ((tokens.take n).foldl Progress.step {}) blocks := by
  induction n with
  | zero =>
    refine ⟨[], rfl, fun a b hpair => ?_, .nil, ⟨by simp, by simp, .nil⟩, .closed rfl rfl (by simp), ?_⟩
    · simp at hpair
    · intro k token hk
      omega
  | succ n ih =>
    obtain ⟨blocks, hblocks⟩ := ih (by omega)
    have htoken : tokens[n]? = some tokens[n] := List.getElem?_eq_getElem (by omega)
    rw [List.take_add_one, htoken, Option.toList_some, List.foldl_append, List.foldl_cons,
      List.foldl_nil]
    exact hblocks.step hlined htoken

end Step

/-- **Comments stand together, and document code, by their lines.** The groups of a layout are blocks
of comments, which hold all comments in their order. Two neighbours are in one block exactly if no
code stands between them and the second starts at most one line below the end of the first, or on
the very line of it where the block trails code. A code token is documented by a group exactly if
that is the last block before it, with no code between them, which does not trail code and ends on
the line right above the token. -/
theorem ofTokens_line_rule {source : String} {tokens : List Token}
    (h : Token.ofText source = .ok tokens) :
    ∃ blocks : List Block,
      (Layout.ofTokens tokens).groups = blocks.map Block.group ∧
      blocks.flatMap Block.comments = tokens.zipIdx.filter (fun c => c.1.kind.isComment) ∧
      (∀ a b, [a, b] <:+: blocks.flatMap Block.comments →
        (Together blocks a b ↔ Close tokens blocks a b)) ∧
      List.Forall₂ (fun (code : Code) c => code.toToken = c.1 ∧
          ∀ g, code.doc = some g ↔ ∃ block, Documents tokens blocks block c ∧ g = block.group)
        (Layout.ofTokens tokens).code (tokens.zipIdx.filter fun c => c.1.kind.isCode) := by
  have hlined := lined_of_ofText h
  obtain ⟨blocks, hblocks⟩ := exists_grouped hlined (Nat.le_refl tokens.length)
  rw [List.take_length] at hblocks
  have hcomments := hblocks.comments
  have hdocs := hblocks.docs
  rw [placed_length] at hcomments hdocs
  rw [Layout.ofTokens_eq_foldl]
  exact ⟨blocks, hblocks.pending.groups, hcomments, hblocks.joined, hdocs⟩

/-- A comment behind code, and one below it that documents the next line. -/
theorem ofTokens_line_rule_trailing :
    let tokens : List Token := [⟨.identifier, "a", 1⟩, ⟨.lineComment, "// b", 1⟩, ⟨.newline, "\n", 1⟩,
      ⟨.lineComment, "// c", 2⟩, ⟨.newline, "\n", 2⟩, ⟨.identifier, "d", 3⟩]
    Token.ofText "a // b\n// c\nd" = .ok tokens ∧
      (Layout.ofTokens tokens).groups = [⟨1, 1, ["// b"]⟩, ⟨2, 2, ["// c"]⟩] ∧
      ∃ blocks : List Block, (Layout.ofTokens tokens).groups = blocks.map Block.group ∧
        ∀ a b, [a, b] <:+: blocks.flatMap Block.comments →
          (Together blocks a b ↔ Close tokens blocks a b) := by
  intro tokens
  have hok : Token.ofText "a // b\n// c\nd" = .ok tokens := by decide +kernel
  obtain ⟨blocks, hgroups, -, hjoined, -⟩ := ofTokens_line_rule hok
  exact ⟨hok, by decide, blocks, hgroups, hjoined⟩

end ApiDocs.Source
