/-
  ApiDocs.Proofs.Source.Insides

  Bodies and initialisers declare nothing. The pairs of brackets that stand behind a function's
  name, or in a statement that starts with no known word, hide what they enclose (`Hidden`): if
  the tokens inside are replaced by others whose brackets are balanced, then the code in front of
  the pair and behind it stays as it is (`code_pair`), only one tree changes (`ofCode_pair`), the
  statements are those before but for one (`split_pair`), and this one adds what it added before
  (`add_pair`). Hence token lists that are alike outside of hidden pairs declare the same.
-/

import ApiDocs.Proofs.Source.Places

namespace ApiDocs.Source

/-- Every opening bracket among the kinds has its closing one. The shapes of the two may
differ. -/
inductive TokenKind.Balanced : List TokenKind → Prop where
  | nil : Balanced []
  | other {kind : TokenKind} {kinds : List TokenKind} (hopening : kind.isOpening = false)
      (hclosing : kind.isClosing = false) (h : Balanced kinds) : Balanced (kind :: kinds)
  | pair {opening closing : TokenKind} {inside kinds : List TokenKind}
      (hopening : opening.isOpening = true) (hinside : Balanced inside)
      (hclosing : closing.isClosing = true) (h : Balanced kinds) :
      Balanced (opening :: inside ++ closing :: kinds)

/-- The words that start a statement which declares something. -/
def declaringWords : List String := ["package", "import", "type", "func"]

/-- What stands in brackets at the end of the statement does not matter: the statement starts
with no known word, or with `func` and the function's name is in front of the brackets. -/
def Statement.Skips (s : Statement) : Prop :=
  (∀ word ∈ declaringWords, s.head.leafText? .identifier ≠ some word) ∨
    (s.head.leafText? .identifier = some "func" ∧
      (FuncDecl.read? { s with tail := s.tail.dropLast }).isSome)

/-- Behind the tokens `before`, the bracket opens an outermost pair that hides what is in it: all
brackets in `before` are closed, and the statement that the bracket belongs to skips the pair. -/
def Hidden (before : List Token) (opening : Token) : Prop :=
  ∃ trees code s, Tree.ofCode (Layout.ofTokens before).code = .ok trees ∧
    (Layout.ofTokens (before ++ [opening])).code = (Layout.ofTokens before).code ++ [code] ∧
    (Statement.split (trees ++ [.leaf code])).getLast? = some s ∧ s.Skips

/-- Behind the tokens `before`, the two token lists are the same up to their lines, except for
the insides of hidden pairs of brackets. -/
inductive AlikeOutside : List Token → List Token → List Token → Prop where
  | same {before tokens tokens' : List Token} (h : tokens.map Token.form = tokens'.map Token.form) :
      AlikeOutside before tokens tokens'
  | pair {before front front' inside inside' tokens tokens' : List Token}
      {opening opening' closing closing' : Token}
      (hfront : front.map Token.form = front'.map Token.form)
      (hopening : opening.form = opening'.form) (hclosing : closing.form = closing'.form)
      (hopens : opening.kind.isOpening = true) (hcloses : closing.kind.isClosing = true)
      (hinside : TokenKind.Balanced (inside.map (·.kind)))
      (hinside' : TokenKind.Balanced (inside'.map (·.kind)))
      (hhidden : Hidden (before ++ front) opening)
      (h : AlikeOutside (before ++ front ++ opening :: inside ++ [closing]) tokens tokens') :
      AlikeOutside before (front ++ opening :: inside ++ closing :: tokens)
        (front' ++ opening' :: inside' ++ closing' :: tokens')

/-! ## Layout -/

namespace Layout

/-- The code of the first tokens does not depend on what follows them. -/
theorem read_append (s : State) (tokens : List Token) :
    ∃ s', ∀ following, (read s (tokens ++ following)).code =
      (read s tokens).code ++ (read s' following).code := by
  induction tokens generalizing s with
  | nil => exact ⟨s, fun following => rfl⟩
  | cons token tokens ih =>
    simp only [List.cons_append, read]
    split
    · exact ih _
    split
    · -- a comment changes the state and the groups, but adds no code
      split <;> exact ih _
    · obtain ⟨s', hs'⟩ := ih { seenCode := true }
      exact ⟨s', fun following => by simp [hs']⟩

/-- A bracket is code, and behind it all that is known is that there is code. -/
theorem read_bracket {token : Token}
    (h : token.kind.isOpening = true ∨ token.kind.isClosing = true) (s : State) :
    ∃ code : Code, code.toToken = token ∧ ∀ tokens,
      (read s (token :: tokens)).code = code :: (read { seenCode := true } tokens).code := by
  have hkind : token.kind ≠ .newline ∧ token.kind.isComment = false := by
    cases hkind : token.kind <;>
      simp_all [TokenKind.isOpening, TokenKind.isClosing, TokenKind.isComment]
  exact ⟨_, rfl, fun tokens => by rw [read, if_neg hkind.1, hkind.2, if_neg Bool.false_ne_true]⟩

end Layout

/-! ## Bracket trees -/

theorem TokenKind.Balanced.filter {p : TokenKind → Bool}
    (hp : ∀ kind : TokenKind, p kind = false → kind.isOpening = false ∧ kind.isClosing = false)
    {kinds : List TokenKind} (h : Balanced kinds) : Balanced (kinds.filter p) := by
  induction h with
  | nil => exact .nil
  | @other kind kinds hopening hclosing _ ih =>
    rw [List.filter_cons]
    split
    · exact .other hopening hclosing ih
    · exact ih
  | @pair opening closing inside kinds hopening _ hclosing _ hinside ih =>
    have hkept : p opening = true := by
      by_contra hnot
      simp [hp opening (by simpa using hnot)] at hopening
    have hkept' : p closing = true := by
      by_contra hnot
      simp [hp closing (by simpa using hnot)] at hclosing
    rw [List.filter_append, List.filter_cons, if_pos hkept, List.filter_cons, if_pos hkept']
    exact .pair hopening hinside hclosing ih

namespace Layout

/-- The kinds of the code are those of the tokens, without line ends and comments. -/
theorem read_kinds (s : State) (tokens : List Token) :
    (read s tokens).code.map (·.kind) =
      (tokens.map (·.kind)).filter fun kind => kind ≠ .newline && !kind.isComment := by
  induction tokens generalizing s with
  | nil => rfl
  | cons token tokens ih =>
    rw [read]
    split
    · simp [*]
    split
    · split <;> simp [*]
    · simp [*]

/-- What is left of balanced tokens without line ends and comments is balanced. -/
theorem balanced_code {tokens : List Token} (h : TokenKind.Balanced (tokens.map (·.kind)))
    (s : State) : TokenKind.Balanced ((read s tokens).code.map (·.kind)) := by
  rw [read_kinds]
  refine h.filter fun kind hkind => ?_
  cases kind <;> simp_all [TokenKind.isComment, TokenKind.isOpening, TokenKind.isClosing]

end Layout

namespace Tree

/-- Code whose brackets are balanced forms trees. -/
theorem exists_listCodes {codes : List Code} (h : TokenKind.Balanced (codes.map (·.kind))) :
    ∃ trees, (∀ tree ∈ trees, tree.Balanced) ∧ listCodes trees = codes := by
  generalize hkinds : codes.map (·.kind) = kinds at h
  induction h generalizing codes with
  | nil => exact ⟨[], by simp, by simpa [listCodes] using hkinds.symm⟩
  | other hopening hclosing _ ih =>
    obtain ⟨code, codes, rfl, rfl, hcodes⟩ := List.map_eq_cons_iff.1 hkinds
    obtain ⟨trees, hbalanced, rfl⟩ := ih hcodes
    exact ⟨.leaf code :: trees, List.forall_mem_cons.2 ⟨.leaf hopening hclosing, hbalanced⟩, rfl⟩
  | pair hopening _ hclosing _ hinside ih =>
    obtain ⟨front, back, rfl, hfront, hback⟩ := List.map_eq_append_iff.1 hkinds
    obtain ⟨opening, inside, rfl, rfl, hcodes⟩ := List.map_eq_cons_iff.1 hfront
    obtain ⟨closing, following, rfl, rfl, hcodes'⟩ := List.map_eq_cons_iff.1 hback
    obtain ⟨body, hbody, rfl⟩ := hinside hcodes
    obtain ⟨trees, hbalanced, rfl⟩ := ih hcodes'
    refine ⟨.group opening body closing :: trees,
      List.forall_mem_cons.2 ⟨.group hopening hclosing hbody, hbalanced⟩, ?_⟩
    simp [listCodes, codes]

/-- Code that forms trees is read up to its end before what follows it. -/
theorem build_append {frames : List Frame} {level trees : List Tree} {codes : List Code}
    (h : build frames level codes = .ok trees) (following : List Code) :
    build frames level (codes ++ following) = build [] trees.reverse following := by
  induction codes generalizing frames level with
  | nil =>
    -- trees are given only if no bracket is left open
    rw [build] at h
    cases hlast : frames.getLast? with
    | some frame => simp [hlast] at h
    | none =>
      rw [hlast, Except.ok.injEq] at h
      rw [List.getLast?_eq_none_iff.1 hlast, ← h, List.reverse_reverse, List.nil_append]
  | cons code codes ih =>
    rw [List.cons_append]
    cases hopening : code.kind.isOpening with
    | true =>
      rw [build_opening _ _ _ hopening] at h ⊢
      exact ih h
    | false =>
      cases hclosing : code.kind.isClosing with
      | true =>
        rcases frames with _ | ⟨⟨opening, before⟩, frames⟩
        · simp [build_unexpected hopening hclosing] at h
        · rw [build_closing _ _ _ hopening hclosing] at h ⊢
          exact ih h
      | false =>
        rw [build_leaf _ _ _ hopening hclosing] at h ⊢
        exact ih h

/-- A level with earlier trees in front of it, if it is the outermost one. -/
def levelOnto (base : List Tree) (frames : List Frame) (level : List Tree) : List Tree :=
  if frames.isEmpty then level ++ base else level

theorem levelOnto_cons (base : List Tree) (frames : List Frame) (tree : Tree) (level : List Tree) :
    levelOnto base frames (tree :: level) = tree :: levelOnto base frames level := by
  cases frames <;> rfl

/-- The frames with earlier trees in front of the outermost one. -/
def framesOnto (base : List Tree) : List Frame → List Frame
  | [] => []
  | (opening, before) :: frames => (opening, levelOnto base frames before) :: framesOnto base frames

/-- Trees that were read before stand in front of those that are read from the code. -/
theorem build_onto (base : List Tree) (frames : List Frame) (level : List Tree)
    (codes : List Code) :
    (build (framesOnto base frames) (levelOnto base frames level) codes).toOption =
      (build frames level codes).toOption.map (base.reverse ++ ·) := by
  induction codes generalizing frames level with
  | nil =>
    rcases frames with _ | ⟨frame, frames⟩
    · simp [build, framesOnto, levelOnto, Except.toOption]
    · simp [build, framesOnto, List.getLast?_cons, Except.toOption]
  | cons code codes ih =>
    cases hopening : code.kind.isOpening with
    | true =>
      rw [build_opening _ _ _ hopening, build_opening _ _ _ hopening]
      exact ih ((code, level) :: frames) []
    | false =>
      cases hclosing : code.kind.isClosing with
      | true =>
        rcases frames with _ | ⟨⟨opening, before⟩, frames⟩
        · rw [framesOnto, build_unexpected hopening hclosing, build_unexpected hopening hclosing]
          rfl
        · rw [framesOnto, build_closing _ _ _ hopening hclosing,
            build_closing _ _ _ hopening hclosing, ← ih, levelOnto_cons]
          rfl
      | false =>
        rw [build_leaf _ _ _ hopening hclosing, build_leaf _ _ _ hopening hclosing, ← ih,
          levelOnto_cons]

/-- A pair of brackets between code that forms trees and other code. -/
theorem ofCode_pair {before inside : List Code} {opening closing : Code} {trees : List Tree}
    (hbefore : ofCode before = .ok trees) (hopening : opening.kind.isOpening = true)
    (hclosing : closing.kind.isClosing = true)
    (hinside : TokenKind.Balanced (inside.map (·.kind))) (following : List Code) :
    ∃ body, (ofCode (before ++ opening :: inside ++ closing :: following)).toOption =
      (ofCode following).toOption.map (trees ++ .group opening body closing :: ·) := by
  obtain ⟨body, hbody, rfl⟩ := exists_listCodes hinside
  have hnot : closing.kind.isOpening = false := by
    cases hkind : closing.kind <;> simp_all [TokenKind.isOpening, TokenKind.isClosing]
  have honto : (build [] (.group opening body closing :: trees.reverse) following).toOption = _ :=
    build_onto (.group opening body closing :: trees.reverse) [] [] following
  refine ⟨body, ?_⟩
  rw [ofCode, List.append_assoc, build_append hbefore, List.cons_append,
    build_opening _ _ _ hopening, build_listCodes fun tree htree => (hbody tree htree).build,
    build_closing _ _ _ hnot hclosing]
  simpa [ofCode] using honto

end Tree

/-! ## Statements -/

namespace Statement

/-- The statement with more trees in front of it. -/
def prepend : List Tree → Statement → Statement
  | [], s => s
  | tree :: trees, s => { s with head := tree, tail := trees ++ s.trees }

/-- A tree that starts a line of its own is the head of a statement, and the rest of the
statements depend only on whether a line end behind the tree ends its statement. -/
theorem split_cons {tree tree' : Tree} (h : tree.isLeaf .semicolon = false)
    (h' : tree'.isLeaf .semicolon = false)
    (hends : tree.last.endsStatement = tree'.last.endsStatement) (following : List Tree) :
    ∃ tail follow rest, split (tree :: following) = ⟨tree, tail, follow⟩ :: rest ∧
      split (tree' :: following) = ⟨tree', tail, follow⟩ :: rest := by
  have hjoins : joins tree following.head? = joins tree' following.head? := by
    cases following <;> simp [joins, hends]
  rw [split, split, h, h', hjoins]
  simp only [Bool.false_eq_true, if_false]
  split
  · split <;> exact ⟨_, _, _, rfl, rfl⟩
  · exact ⟨_, _, _, rfl, rfl⟩

@[simp] theorem prepend_cons (tree : Tree) (line : List Tree) (s : Statement) :
    s.prepend (tree :: line) = ⟨tree, line ++ s.trees, s.follow⟩ := rfl

@[simp] theorem trees_prepend (line : List Tree) (s : Statement) :
    (s.prepend line).trees = line ++ s.trees := by
  cases line <;> rfl

@[simp] theorem follow_prepend (line : List Tree) (s : Statement) :
    (s.prepend line).follow = s.follow := by
  cases line <;> rfl

/-- Trees in front of a statement's head that starts with the given token: some make up statements
of their own, the others belong to the statement. -/
theorem split_append (trees : List Tree) (first : Code) :
    ∃ statements line, ∀ (tree : Tree) (following : List Tree) (s : Statement) rest,
      tree.first = first → tree.isLeaf .semicolon = false → split (tree :: following) = s :: rest →
      split (trees ++ tree :: following) = statements ++ s.prepend line :: rest := by
  induction trees with
  | nil => exact ⟨[], [], fun tree following s rest _ _ hsplit => hsplit⟩
  | cons t trees ih =>
    obtain ⟨statements, line, hline⟩ := ih
    -- whether `t` is joined with what follows it depends only on the next first token
    obtain ⟨joined, code, hnext⟩ : ∃ joined code, ∀ (tree : Tree) (following : List Tree),
        tree.first = first → tree.isLeaf .semicolon = false →
        joins t (trees ++ tree :: following).head? = joined ∧
          (trees ++ tree :: following).head?.map Tree.first = some code := by
      rcases trees with _ | ⟨next, trees⟩
      · exact ⟨!(first.newlineBefore && t.last.endsStatement), first,
          fun tree following hfirst hleaf => by simp [joins, hfirst, hleaf]⟩
      · exact ⟨_, next.first, fun tree following _ _ => ⟨rfl, rfl⟩⟩
    by_cases hsemicolon : t.isLeaf .semicolon = true
    · refine ⟨statements, line, fun tree following s rest hfirst hleaf hsplit => ?_⟩
      rw [List.cons_append, split, if_pos hsemicolon]
      exact hline tree following s rest hfirst hleaf hsplit
    cases joined with
    | false =>
      refine ⟨⟨t, [], some code⟩ :: statements, line,
        fun tree following s rest hfirst hleaf hsplit => ?_⟩
      obtain ⟨hjoins, hcode⟩ := hnext tree following hfirst hleaf
      rw [List.cons_append, split, if_neg hsemicolon, hjoins, if_neg Bool.false_ne_true, hcode,
        hline tree following s rest hfirst hleaf hsplit]
      rfl
    | true =>
      cases statements with
      | nil =>
        refine ⟨[], t :: line, fun tree following s rest hfirst hleaf hsplit => ?_⟩
        obtain ⟨hjoins, -⟩ := hnext tree following hfirst hleaf
        rw [List.cons_append, split, if_neg hsemicolon, hjoins, if_pos rfl,
          hline tree following s rest hfirst hleaf hsplit]
        simp
      | cons s' statements =>
        refine ⟨{ s' with head := t, tail := s'.trees } :: statements, line,
          fun tree following s rest hfirst hleaf hsplit => ?_⟩
        obtain ⟨hjoins, -⟩ := hnext tree following hfirst hleaf
        rw [List.cons_append, split, if_neg hsemicolon, hjoins, if_pos rfl,
          hline tree following s rest hfirst hleaf hsplit]
        rfl

end Statement

section Add

variable {head : Tree} {line : List Tree} {follow : Option Code}

/-- A function whose name is read is the same with more trees behind it. -/
theorem FuncDecl.read?_append (h : (read? ⟨head, line, follow⟩).isSome) (more : List Tree)
    (follow' : Option Code) : read? ⟨head, line ++ more, follow'⟩ = read? ⟨head, line, follow⟩ := by
  rcases line with _ | ⟨tree, _ | ⟨name, line⟩⟩
  · simp [read?] at h
  · cases hbody : tree.body? .leftParen with
    | none => simp [read?, hbody]
    | some body => simp [read?, hbody] at h
  · rfl

theorem Declarations.add_of_func (h : head.leafText? .identifier = some "func") (d : Declarations) :
    d.add ⟨head, line, follow⟩ =
      .ok { d with functions := d.functions ++ (FuncDecl.read? ⟨head, line, follow⟩).toList } := by
  simp only [add, h]

theorem Declarations.add_of_not_declaring
    (h : ∀ word ∈ declaringWords, head.leafText? .identifier ≠ some word) (d : Declarations) :
    d.add ⟨head, line, follow⟩ = .ok d := by
  simp only [declaringWords, List.forall_mem_cons] at h
  unfold add
  split <;> simp_all

/-- A statement adds the same whatever the pair of brackets holds that it skips. -/
theorem Declarations.add_pair {code : Code}
    (hskips : (Statement.prepend line ⟨.leaf code, [], none⟩).Skips) (body body' tail : List Tree)
    (closing closing' : Code) (follow : Option Code) (d : Declarations) :
    d.add (Statement.prepend line ⟨.group code body closing, tail, follow⟩) =
      d.add (Statement.prepend line ⟨.group code body' closing', tail, follow⟩) := by
  rcases line with _ | ⟨head, line⟩
  · rfl
  simp only [Statement.prepend_cons, Statement.trees] at hskips ⊢
  rcases hskips with hwords | ⟨hfunc, hname⟩
  · rw [add_of_not_declaring hwords, add_of_not_declaring hwords]
  · -- the name is in front of the pair
    simp only [List.dropLast_concat] at hname
    rw [add_of_func hfunc, add_of_func hfunc, FuncDecl.read?_append hname,
      FuncDecl.read?_append hname]

end Add

/-- Replacing the inside of a pair that is skipped keeps what the trees declare. -/
theorem SourceUnit.declared_pair {trees : List Tree} {code closing closing' : Code} {s : Statement}
    (hs : (Statement.split (trees ++ [.leaf code])).getLast? = some s) (hskips : s.Skips)
    (hcode : code.kind.isOpening = true) (hclosing : closing.toToken = closing'.toToken)
    (body body' following : List Tree) :
    declared (trees ++ .group code body closing :: following) =
      declared (trees ++ .group code body' closing' :: following) := by
  obtain ⟨statements, line, hline⟩ := Statement.split_append trees code
  have hleaf : (Tree.leaf code).isLeaf .semicolon = false := by
    cases hkind : code.kind <;> simp_all [TokenKind.isOpening, Tree.isLeaf]
  have hlast : Statement.split [.leaf code] = [⟨.leaf code, [], none⟩] := by
    simp [Statement.split, hleaf, Statement.joins]
  rw [hline (.leaf code) [] _ _ rfl hleaf hlast, List.getLast?_concat, Option.some.injEq] at hs
  subst hs
  have hends : (Tree.group code body closing).last.endsStatement =
      (Tree.group code body' closing').last.endsStatement := by
    rw [Tree.last, Tree.last, Code.endsStatement, Code.endsStatement, hclosing]
  obtain ⟨tail, follow, rest, hsplit, hsplit'⟩ :=
    Statement.split_cons (by rfl) (by rfl) hends following
  have hadd := Declarations.add_pair hskips body body' tail closing closing' follow
  rw [declared, declared, hline _ _ _ _ rfl rfl hsplit, hline _ _ _ _ rfl rfl hsplit']
  simp only [List.foldlM_append, List.foldlM_cons, hadd]

/-! ## Tokens -/

/-- The code of tokens with a pair of brackets among them. Of the code outside the pair, only the
layout of the closing bracket depends on the tokens inside. -/
theorem Layout.code_pair {opening closing : Token} (hopens : opening.kind.isOpening = true)
    (hcloses : closing.kind.isClosing = true) (before tokens : List Token) :
    ∃ code : Code, code.toToken = opening ∧
      (ofTokens (before ++ [opening])).code = (ofTokens before).code ++ [code] ∧
      ∀ inside, ∃ code' : Code, code'.toToken = closing ∧
        (ofTokens (before ++ opening :: inside ++ closing :: tokens)).code =
          (ofTokens before).code ++ code :: (read { seenCode := true } inside).code ++
            code' :: (read { seenCode := true } tokens).code := by
  obtain ⟨s, hs⟩ := read_append {} before
  obtain ⟨code, hcode, hread⟩ := read_bracket (.inl hopens) s
  refine ⟨code, hcode, ?_, fun inside => ?_⟩
  · rw [ofTokens, hs, hread]
    rfl
  · obtain ⟨s', hs'⟩ := read_append { seenCode := true } inside
    obtain ⟨code', hcode', hread'⟩ := read_bracket (.inr hcloses) s'
    refine ⟨code', hcode', ?_⟩
    rw [ofTokens, List.append_assoc, hs, List.cons_append, hread, hs', hread', List.append_assoc,
      List.cons_append]
    rfl

namespace SourceUnit

/-- Replacing the inside of one hidden pair of brackets keeps the declarations. -/
theorem declarations_pair {before inside inside' : List Token} {opening closing : Token}
    (hopens : opening.kind.isOpening = true) (hcloses : closing.kind.isClosing = true)
    (hinside : TokenKind.Balanced (inside.map (·.kind)))
    (hinside' : TokenKind.Balanced (inside'.map (·.kind))) (hhidden : Hidden before opening)
    (path : String) (tokens : List Token) :
    (ofTokens path (before ++ opening :: inside ++ closing :: tokens)).toOption.map declarations =
      (ofTokens path (before ++ opening :: inside' ++ closing :: tokens)).toOption.map
        declarations := by
  obtain ⟨trees, code, s, htrees, hcode, hsplit, hskips⟩ := hhidden
  obtain ⟨code₁, htoken, hfirst, hpair⟩ := Layout.code_pair hopens hcloses before tokens
  obtain rfl : code = code₁ := by simpa using hcode.symm.trans hfirst
  subst htoken
  -- in the two codes only the insides and the layout of the closing bracket differ
  obtain ⟨closing₁, rfl, hlayout⟩ := hpair inside
  obtain ⟨closing₂, hclosing, hlayout'⟩ := hpair inside'
  have hcloses' : closing₂.kind.isClosing = true := by rw [hclosing, hcloses]
  obtain ⟨body, hbody⟩ := Tree.ofCode_pair htrees hopens hcloses
    (Layout.balanced_code hinside { seenCode := true })
    (Layout.read { seenCode := true } tokens).code
  obtain ⟨body', hbody'⟩ := Tree.ofCode_pair htrees hopens hcloses'
    (Layout.balanced_code hinside' { seenCode := true })
    (Layout.read { seenCode := true } tokens).code
  rw [declarations_ofTokens, declarations_ofTokens, hlayout, hlayout', hbody, hbody']
  cases (Tree.ofCode (Layout.read { seenCode := true } tokens).code).toOption with
  | none => rfl
  | some following => exact declared_pair hsplit hskips hopens hclosing.symm body body' following

/-- **What stands in hidden pairs of brackets does not matter to what a unit declares.** If two
token lists are the same up to lines outside of such pairs, and the brackets inside of them are
balanced, then either both are units or none is, and the two units declare the same, up to
lines. -/
theorem declarations_of_alikeOutside (path : String) {tokens tokens' : List Token}
    (h : AlikeOutside [] tokens tokens') :
    (ofTokens path tokens).toOption.map (·.declarations.unplaced) =
      (ofTokens path tokens').toOption.map (·.declarations.unplaced) := by
  suffices hbehind : ∀ before, AlikeOutside before tokens tokens' →
      (ofTokens path (before ++ tokens)).toOption.map (·.declarations.unplaced) =
        (ofTokens path (before ++ tokens')).toOption.map (·.declarations.unplaced) from
    hbehind [] h
  clear h
  intro before h
  induction h with
  | @same before tokens tokens' h => exact declarations_of_forms path (by simp [h])
  | @pair before front front' inside inside' tokens tokens' opening opening' closing closing'
      hfront hopening hclosing hopens hcloses hinside hinside' hhidden _ ih =>
    -- first what follows the pair is replaced, then the inside, and last the places
    have hpair := declarations_pair hopens hcloses hinside hinside' hhidden path tokens'
    have hforms : (before ++ front ++ opening :: inside' ++ closing :: tokens').map Token.form =
        (before ++ (front' ++ opening' :: inside' ++ closing' :: tokens')).map Token.form := by
      simp [hfront, hopening, hclosing]
    calc (ofTokens path (before ++ (front ++ opening :: inside ++ closing :: tokens))).toOption.map
          (·.declarations.unplaced)
        = (ofTokens path (before ++ front ++ opening :: inside ++ closing :: tokens')).toOption.map
          (·.declarations.unplaced) := by simpa using ih
      _ = (ofTokens path (before ++ front ++ opening :: inside' ++ closing :: tokens')).toOption.map
          (·.declarations.unplaced) := by
        simpa [Function.comp_def] using congrArg (Option.map Declarations.unplaced) hpair
      _ = _ := declarations_of_forms path hforms

/-- Two bodies of one function, the second one on more lines and with a comment. -/
theorem declarations_of_two_bodies :
    (ofTokens "p" ([⟨.identifier, "package", 1⟩, ⟨.identifier, "p", 1⟩, ⟨.newline, "\n", 1⟩,
          ⟨.identifier, "func", 2⟩, ⟨.identifier, "f", 2⟩, ⟨.leftParen, "(", 2⟩,
          ⟨.rightParen, ")", 2⟩] ++
        ⟨.leftBrace, "\x7b", 2⟩ :: [⟨.identifier, "x", 2⟩] ++
        ⟨.rightBrace, "\x7d", 2⟩ :: [⟨.newline, "\n", 2⟩])).toOption.map
          (·.declarations.unplaced) =
      (ofTokens "p" ([⟨.identifier, "package", 1⟩, ⟨.identifier, "p", 1⟩, ⟨.newline, "\n", 1⟩,
          ⟨.identifier, "func", 2⟩, ⟨.identifier, "f", 2⟩, ⟨.leftParen, "(", 2⟩,
          ⟨.rightParen, ")", 2⟩] ++
        ⟨.leftBrace, "\x7b", 2⟩ :: [⟨.lineComment, "// note", 2⟩, ⟨.newline, "\n", 2⟩,
          ⟨.leftBracket, "[", 3⟩, ⟨.rightParen, ")", 3⟩, ⟨.newline, "\n", 3⟩] ++
        ⟨.rightBrace, "\x7d", 4⟩ :: [⟨.newline, "\n", 4⟩])).toOption.map
          (·.declarations.unplaced) := by
  have hinside : TokenKind.Balanced [.identifier] := .other rfl rfl .nil
  have hinside' :
      TokenKind.Balanced [.lineComment, .newline, .leftBracket, .rightParen, .newline] :=
    .other rfl rfl (.other rfl rfl (.pair rfl .nil rfl (.other rfl rfl .nil)))
  exact declarations_of_alikeOutside "p" <| .pair rfl rfl rfl rfl rfl hinside hinside'
    ⟨_, _, _, rfl, rfl, rfl, .inr ⟨rfl, rfl⟩⟩ (.same rfl)

end SourceUnit
end ApiDocs.Source
