/-
  ApiDocs.Proofs.Source.Trees

  From forms to statements, without comments. The code tokens of a text are laid out from its
  forms (`Lays`): line ends are dropped, and each token keeps whether one stood before it. Code
  tokens whose brackets are balanced form the trees that they were taken from
  (`ofCode_listCodes`). And lines that are separated by line ends or semicolons are the
  statements that splitting gives (`Lines.split`).
-/

import ApiDocs.Proofs.Source.Spelling
import ApiDocs.Source.Statement
import Mathlib.Data.List.Forall2

namespace ApiDocs.Source

/-! ## Layout -/

/-- The code token has this form, no comment documents it, and a line ends before it if `newline`
says so. -/
structure Code.Shows (code : Code) (form : Form) (newline : Bool) : Prop where
  kind : code.kind = form.kind
  text : code.text = form.text
  newlineBefore : code.newlineBefore = newline
  doc : code.doc = none

/-- The forms are laid out as these code tokens. The first flag says whether a line ends before
the forms, the last one whether a line ends behind the last token. -/
inductive Lays : Bool → List Form → List Code → Bool → Prop where
  | nil (newline : Bool) : Lays newline [] [] newline
  | newline {start stop : Bool} {form : Form} {forms : List Form} {codes : List Code}
      (hkind : form.kind = .newline) (h : Lays true forms codes stop) :
      Lays start (form :: forms) codes stop
  | code {start stop : Bool} {form : Form} {forms : List Form} {code : Code} {codes : List Code}
      (hkind : form.kind ≠ .newline) (hcode : code.Shows form start)
      (h : Lays false forms codes stop) : Lays start (form :: forms) (code :: codes) stop

theorem Lays.cons_inv {start stop : Bool} {form : Form} {forms : List Form} {codes : List Code}
    (h : Lays start (form :: forms) codes stop) (hkind : (form.kind == .newline) = false) :
    ∃ code rest, codes = code :: rest ∧ code.Shows form start ∧ Lays false forms rest stop := by
  cases h with
  | newline hkind' => exact absurd hkind' (beq_eq_false_iff_ne.1 hkind)
  | code _ hcode h => exact ⟨_, _, rfl, hcode, h⟩

theorem Lays.append_inv {start stop : Bool} {forms forms' : List Form} {codes : List Code}
    (h : Lays start (forms ++ forms') codes stop) :
    ∃ codes₁ codes₂ middle, codes = codes₁ ++ codes₂ ∧ Lays start forms codes₁ middle ∧
      Lays middle forms' codes₂ stop := by
  induction forms generalizing start codes with
  | nil => exact ⟨[], codes, start, rfl, .nil start, h⟩
  | cons form forms ih =>
    cases h with
    | newline hkind h =>
      obtain ⟨codes₁, codes₂, middle, rfl, h₁, h₂⟩ := ih h
      exact ⟨codes₁, codes₂, middle, rfl, .newline hkind h₁, h₂⟩
    | @code _ _ _ _ code _ hkind hcode h =>
      obtain ⟨codes₁, codes₂, middle, rfl, h₁, h₂⟩ := ih h
      exact ⟨code :: codes₁, codes₂, middle, rfl, .code hkind hcode h₁, h₂⟩

/-- Tokens without comments are laid out from their forms, and no comment is left. -/
theorem lays_read {tokens : List Token} (h : ∀ token ∈ tokens, token.kind.isComment = false)
    {s : Layout.State} (hpending : s.pending = none) :
    (Layout.read s tokens).groups = [] ∧
      ∃ stop, Lays (0 < s.sinceCode) (tokens.map Token.form) (Layout.read s tokens).code stop := by
  induction tokens generalizing s with
  | nil => exact ⟨by simp [Layout.read, hpending], _, .nil _⟩
  | cons token tokens ih =>
    obtain ⟨hcomment, htokens⟩ := List.forall_mem_cons.1 h
    by_cases hkind : token.kind = .newline
    · rw [Layout.read, if_pos hkind]
      obtain ⟨hgroups, stop, hlays⟩ := ih htokens (s := { s with
        sinceComment := s.sinceComment + 1, sinceCode := s.sinceCode + 1 }) hpending
      refine ⟨hgroups, stop, .newline hkind ?_⟩
      simpa using hlays
    · -- a code token starts afresh: nothing is pending and no line has ended behind it
      obtain ⟨hgroups, stop, hlays⟩ := ih htokens (s := { seenCode := true }) rfl
      rw [Layout.read, if_neg hkind, if_neg (by simp [hcomment])]
      refine ⟨by simp [hpending, hgroups], stop, .code hkind ⟨rfl, rfl, rfl, ?_⟩ ?_⟩
      · simp [hpending]
      · simpa using hlays

/-! ## Brackets -/

/-- Every bracket of the tree is opened and closed by brackets. -/
inductive Tree.Balanced : Tree → Prop where
  | leaf {code : Code} (hopening : code.kind.isOpening = false)
      (hclosing : code.kind.isClosing = false) : Balanced (.leaf code)
  | group {opening closing : Code} {body : List Tree} (hopening : opening.kind.isOpening = true)
      (hclosing : closing.kind.isClosing = true) (hbody : ∀ tree ∈ body, Balanced tree) :
      Balanced (.group opening body closing)

namespace Tree

theorem listCodes_append (trees trees' : List Tree) :
    listCodes (trees ++ trees') = listCodes trees ++ listCodes trees' := by
  induction trees with
  | nil => rfl
  | cons tree trees ih => rw [List.cons_append, listCodes, listCodes, ih, List.append_assoc]

section Build

variable {code : Code} (frames : List Frame) (level : List Tree) (rest : List Code)

theorem build_opening (h : code.kind.isOpening = true) :
    build frames level (code :: rest) = build ((code, level) :: frames) [] rest := by
  rw [build.eq_def]
  simp [h]

theorem build_closing (hopening : code.kind.isOpening = false) (h : code.kind.isClosing = true)
    (opening : Code) (before : List Tree) :
    build ((opening, before) :: frames) level (code :: rest) =
      build frames (group opening level.reverse code :: before) rest := by
  rw [build.eq_def]
  simp [hopening, h]

theorem build_leaf (hopening : code.kind.isOpening = false) (h : code.kind.isClosing = false) :
    build frames level (code :: rest) = build frames (leaf code :: level) rest := by
  rw [build.eq_def]
  simp [hopening, h]

end Build

/-- Trees whose tokens are read one after the other. -/
theorem build_listCodes {trees : List Tree}
    (h : ∀ tree ∈ trees, ∀ frames level rest,
      build frames level (codes tree ++ rest) = build frames (tree :: level) rest)
    (frames : List Frame) (level : List Tree) (rest : List Code) :
    build frames level (listCodes trees ++ rest) = build frames (trees.reverse ++ level) rest := by
  induction trees generalizing level with
  | nil => rfl
  | cons tree trees ih =>
    obtain ⟨htree, htrees⟩ := List.forall_mem_cons.1 h
    rw [listCodes, List.append_assoc, htree, ih htrees, List.reverse_cons, List.append_assoc]
    rfl

/-- The tokens of a balanced tree are read as this tree. -/
theorem Balanced.build {tree : Tree} (h : tree.Balanced) (frames : List Frame) (level : List Tree)
    (rest : List Code) :
    build frames level (codes tree ++ rest) = build frames (tree :: level) rest := by
  induction h generalizing frames level rest with
  | leaf hopening hclosing => rw [codes, List.singleton_append, build_leaf _ _ _ hopening hclosing]
  | @group opening closing body hopening hclosing _ ih =>
    have hnot : closing.kind.isOpening = false := by
      cases hkind : closing.kind <;> simp_all [TokenKind.isOpening, TokenKind.isClosing]
    rw [codes, List.append_assoc, List.cons_append, build_opening _ _ _ hopening,
      build_listCodes ih, List.singleton_append, build_closing _ _ _ hnot hclosing]
    simp

theorem ofCode_listCodes {trees : List Tree} (h : ∀ tree ∈ trees, tree.Balanced) :
    ofCode (listCodes trees) = .ok trees := by
  have hbuild := build_listCodes (fun tree htree => (h tree htree).build) [] [] []
  rw [List.append_nil] at hbuild
  rw [ofCode, hbuild]
  simp [build]

end Tree

/-- A token that is no bracket is a balanced tree. -/
theorem Code.Shows.balanced {code : Code} {form : Form} {newline : Bool}
    (h : code.Shows form newline) (hopening : form.kind.isOpening = false)
    (hclosing : form.kind.isClosing = false) : (Tree.leaf code).Balanced :=
  .leaf (by rw [h.kind, hopening]) (by rw [h.kind, hclosing])

/-! ## Statements -/

/-- The trees stand in one line: there is no semicolon among them, and no line ends before any
but the first of them, where one does if the flag says so. Nor is any of them documented. -/
inductive Joined : Bool → List Tree → Prop where
  | nil (newline : Bool) : Joined newline []
  | cons {newline : Bool} {tree : Tree} {trees : List Tree}
      (hsemicolon : tree.isLeaf .semicolon = false) (hdoc : tree.first.doc = none)
      (hnewline : tree.first.newlineBefore = newline) (h : Joined false trees) :
      Joined newline (tree :: trees)

theorem Joined.append {newline : Bool} {trees trees' : List Tree} (h : Joined newline trees)
    (hne : trees ≠ []) (h' : Joined false trees') : Joined newline (trees ++ trees') := by
  induction h with
  | nil => exact absurd rfl hne
  | @cons newline tree trees hsemicolon hdoc hnewline h ih =>
    refine .cons hsemicolon hdoc hnewline ?_
    cases trees with
    | nil => exact h'
    | cons next trees => exact ih (List.cons_ne_nil next trees)

/-- There is a last tree, and a line end behind it ends the statement. -/
def Ends (trees : List Tree) : Prop :=
  ∃ tree, trees.getLast? = some tree ∧ tree.last.endsStatement = true

/-- The trees start with a semicolon or on a new line, if there are any. -/
def Breaks (trees : List Tree) : Prop :=
  ∀ tree ∈ trees.head?, tree.isLeaf .semicolon = true ∨ tree.first.newlineBefore = true

/-- A line is a statement. -/
theorem split_line {newline : Bool} {line following : List Tree} (h : Joined newline line)
    (hends : Ends line) (hbreaks : Breaks following) :
    ∃ s, Statement.split (line ++ following) = s :: Statement.split following ∧ s.trees = line := by
  induction h with
  | nil =>
    obtain ⟨tree, hlast, -⟩ := hends
    cases hlast
  | @cons newline tree trees hsemicolon hdoc hnewline h ih =>
    cases h with
    | nil =>
      -- what follows starts another statement
      have hjoins : Statement.joins tree following.head? = false := by
        obtain ⟨last, hlast, hends⟩ := hends
        obtain rfl : tree = last := by simpa using hlast
        cases hhead : following.head? with
        | none => rfl
        | some next =>
          rcases hbreaks next hhead with hnext | hnext
          · simp [Statement.joins, hnext]
          · simp [Statement.joins, hnext, hends]
      refine ⟨⟨tree, [], following.head?.map Tree.first⟩, ?_, rfl⟩
      rw [List.singleton_append, Statement.split, if_neg (by simp [hsemicolon]),
        if_neg (by simp [hjoins])]
    | @cons _ next trees hnext hdoc' hsame h =>
      -- the next tree goes on with the statement
      have hjoins : Statement.joins tree (some next) = true := by
        simp [Statement.joins, hnext, hsame]
      have hends' : Ends (next :: trees) := by
        obtain ⟨last, hlast, hends⟩ := hends
        exact ⟨last, by simpa using hlast, hends⟩
      obtain ⟨s, hsplit, htrees⟩ := ih hends'
      refine ⟨{ s with head := tree, tail := s.trees }, ?_, by rw [← htrees]; rfl⟩
      rw [List.cons_append, Statement.split, if_neg (by simp [hsemicolon]), List.cons_append,
        List.head?_cons, if_pos hjoins, ← List.cons_append, hsplit]

/-! ## Lines -/

/-- A line end or a semicolon. -/
def Form.IsBreak (form : Form) : Prop :=
  form = sign .newline '\n' ∨ form = sign .semicolon ';'

/-- The forms are these lines, with breaks between them and any further ones. -/
inductive Lines : List (List Form) → List Form → Prop where
  | nil : Lines [] []
  | skip {form : Form} {lines : List (List Form)} {forms : List Form} (hbreak : form.IsBreak)
      (h : Lines lines forms) : Lines lines (form :: forms)
  | last (line : List Form) : Lines [line] line
  | cons {form : Form} {lines : List (List Form)} {forms : List Form} (line : List Form)
      (hbreak : form.IsBreak) (h : Lines lines forms) : Lines (line :: lines) (line ++ form :: forms)

/-- The forms are laid out as the tokens of balanced trees of which something holds, and no line
ends behind them. What holds may depend on whether a line ends before them. -/
def Yields (forms : List Form) (P : Bool → List Tree → Prop) : Prop :=
  ∀ start codes stop, Lays start forms codes stop → stop = false ∧
    ∃ trees, Tree.listCodes trees = codes ∧ (∀ tree ∈ trees, tree.Balanced) ∧ P start trees

section Lines

variable {α : Type} {P : α → List Tree → Prop} {items : List α} {lines : List (List Form)}
  {forms : List Form}

/-- The code tokens are those of balanced trees, which split into statements for these items. -/
structure SplitsInto (P : α → List Tree → Prop) (items : List α) (codes : List Code)
    (trees : List Tree) : Prop where
  codes_eq : Tree.listCodes trees = codes
  balanced : ∀ tree ∈ trees, tree.Balanced
  statements : List.Forall₂ (fun item (s : Statement) => P item s.trees) items (Statement.split trees)

/-- A break before lines. -/
theorem splitsInto_break {form : Form} (hbreak : form.IsBreak) {stop : Bool}
    (h : ∀ start codes, Lays start forms codes stop →
      ∃ trees, SplitsInto P items codes trees ∧ (start = true → Breaks trees))
    {start : Bool} {codes : List Code} (hlays : Lays start (form :: forms) codes stop) :
    ∃ trees, SplitsInto P items codes trees ∧ Breaks trees := by
  rcases hbreak with rfl | rfl
  · cases hlays with
    | newline _ hlays =>
      obtain ⟨trees, hsplits, hbreaks⟩ := h true codes hlays
      exact ⟨trees, hsplits, hbreaks rfl⟩
    | code hkind => exact absurd rfl hkind
  · obtain ⟨code, rest, rfl, hcode, hlays⟩ := hlays.cons_inv rfl
    obtain ⟨trees, ⟨hcodes, hbalanced, hstatements⟩, -⟩ := h false rest hlays
    have hkind : code.kind = .semicolon := hcode.kind
    have hleaf : (Tree.leaf code).isLeaf .semicolon = true := by simp [Tree.isLeaf, hkind]
    refine ⟨.leaf code :: trees, ⟨?_, ?_, ?_⟩, ?_⟩
    · rw [Tree.listCodes, Tree.codes, hcodes, List.singleton_append]
    · exact List.forall_mem_cons.2 ⟨hcode.balanced rfl rfl, hbalanced⟩
    · rwa [Statement.split, if_pos hleaf]
    · intro tree htree
      obtain rfl : Tree.leaf code = tree := by simpa using htree
      exact .inl hleaf

/-- A line, and what is split behind it. -/
theorem SplitsInto.line {item : α} {start : Bool} {codes codes' : List Code}
    {trees trees' : List Tree} (hcodes : Tree.listCodes trees = codes)
    (hbalanced : ∀ tree ∈ trees, tree.Balanced) (hjoined : Joined start trees) (hends : Ends trees)
    (hP : P item trees) (h : SplitsInto P items codes' trees') (hbreaks : Breaks trees') :
    SplitsInto P (item :: items) (codes ++ codes') (trees ++ trees') ∧
      (start = true → Breaks (trees ++ trees')) := by
  obtain ⟨s, hsplit, htrees⟩ := split_line hjoined hends hbreaks
  refine ⟨⟨?_, ?_, ?_⟩, ?_⟩
  · rw [Tree.listCodes_append, hcodes, h.codes_eq]
  · exact List.forall_mem_append.2 ⟨hbalanced, h.balanced⟩
  · rw [hsplit]
    exact .cons (htrees ▸ hP) h.statements
  · rintro rfl tree htree
    cases hjoined with
    | nil =>
      obtain ⟨last, hlast, -⟩ := hends
      cases hlast
    | @cons _ first trees _ _ hnewline _ =>
      obtain rfl : first = tree := by simpa using htree
      exact .inr hnewline

/-- Lines with breaks between them are the statements of their trees. -/
theorem Lines.split (h : Lines lines forms)
    (hlines : List.Forall₂ (fun item line =>
      Yields line fun start trees => Joined start trees ∧ Ends trees ∧ P item trees) items lines)
    {start stop : Bool} {codes : List Code} (hlays : Lays start forms codes stop) :
    ∃ trees, SplitsInto P items codes trees ∧ (start = true → Breaks trees) := by
  induction h generalizing items start codes with
  | nil =>
    cases hlays
    cases hlines
    exact ⟨[], ⟨rfl, by simp, by simp [Statement.split]⟩, by simp [Breaks]⟩
  | skip hbreak _ ih =>
    obtain ⟨trees, hsplits, hbreaks⟩ := splitsInto_break hbreak (fun _ _ => ih hlines) hlays
    exact ⟨trees, hsplits, fun _ => hbreaks⟩
  | last line =>
    cases hlines with
    | cons hline hlines =>
      cases hlines
      obtain ⟨-, trees, hcodes, hbalanced, hjoined, hends, hP⟩ := hline start codes stop hlays
      have hnone : SplitsInto P [] [] [] := ⟨rfl, by simp, by simp [Statement.split]⟩
      have hsplits := SplitsInto.line hcodes hbalanced hjoined hends hP hnone (by simp [Breaks])
      rw [List.append_nil, List.append_nil] at hsplits
      exact ⟨trees, hsplits⟩
  | cons line hbreak _ ih =>
    cases hlines with
    | cons hline hlines =>
      -- the line ends at the break, and what follows the break is split on its own
      obtain ⟨codes₁, codes₂, middle, rfl, hlays₁, hlays₂⟩ := hlays.append_inv
      obtain ⟨-, trees, hcodes, hbalanced, hjoined, hends, hP⟩ := hline start codes₁ middle hlays₁
      obtain ⟨trees', hsplits, hbreaks⟩ := splitsInto_break hbreak (fun _ _ => ih hlines) hlays₂
      exact ⟨trees ++ trees', SplitsInto.line hcodes hbalanced hjoined hends hP hsplits hbreaks⟩

end Lines

end ApiDocs.Source
