/-
  ApiDocs.Proofs.Source.Declaration

  Units without comments, statement by statement. Each line of a text adds something to the
  declarations of its unit (`Adds`), and the unit has what its lines add, in order
  (`ofText_of_lines`). So a package clause and a type declaration, with any blanks and breaks,
  are read as a unit with exactly this type (`SourceUnit.ofText_of_declares`).
-/

import ApiDocs.Proofs.Source.ReadBack

namespace ApiDocs.Source

/-! ## Texts of lexical forms -/

theorem Spells.lexical {forms : List Form} {cs : List Char} (h : Spells forms cs) :
    ∀ form ∈ forms, form.Lexical := by
  induction h with
  | nil => simp
  | cons _ hform _ _ ih => exact List.forall_mem_cons.2 ⟨hform, ih⟩

theorem Form.Lexical.not_isComment {form : Form} (h : form.Lexical) : form.kind.isComment = false := by
  cases h with
  | word | number | raw | dot => rfl
  | @sign kind c h =>
    unfold Lexeme.punctuation? at h
    split at h <;> cases h <;> rfl

/-- No lexeme starts with a byte order mark. -/
theorem read_mark (cs : List Char) : Lexeme.read '\ufeff' cs = .rejected ['\ufeff'] := by
  have hname : isNameStart '\ufeff' = false := by decide +kernel
  rw [Lexeme.read, hname]
  rfl

theorem Form.Lexical.head_ne_mark {form : Form} (h : form.Lexical) :
    form.text.toList.head? ≠ some '\ufeff' := by
  have hend : ∀ c ∈ ([] : List Char).head?, form.goesOn c = false := by simp
  obtain ⟨c, cs, htext, -, hread⟩ := h.read hend
  rw [htext, List.head?_cons]
  intro hmark
  obtain rfl : c = '\ufeff' := Option.some.inj hmark
  rw [read_mark] at hread
  cases hread

theorem Spells.dropMark {forms : List Form} {cs : List Char} (h : Spells forms cs) :
    Token.dropMark cs = cs := by
  have hhead : cs.head? ≠ some '\ufeff' := by
    have hskip : isSkipped '\ufeff' = false := by decide
    cases h with
    | nil hblanks =>
      intro hmark
      rw [hblanks _ (List.mem_of_mem_head? hmark)] at hskip
      cases hskip
    | @cons form forms blanks rest hblanks hform hrest h =>
      cases blanks with
      | nil =>
        obtain ⟨c, cs, htext, -⟩ := hform.read hrest
        have hmark := hform.head_ne_mark
        rw [htext] at hmark ⊢
        exact hmark
      | cons c blanks =>
        intro hmark
        obtain rfl : c = '\ufeff' := Option.some.inj hmark
        rw [hblanks _ List.mem_cons_self] at hskip
        cases hskip
  unfold Token.dropMark
  split
  · exact absurd rfl hhead
  · rfl

/-! ## What lines add -/

/-- A statement of these trees changes the declarations in this way. -/
def Adds (change : Declarations → Declarations) (trees : List Tree) : Prop :=
  ∀ s : Statement, s.trees = trees → ∀ d : Declarations, d.add s = .ok (change d)

/-- The line is a statement that changes the declarations in this way. -/
def AddsLine (change : Declarations → Declarations) (line : List Form) : Prop :=
  Yields line fun start trees => Joined start trees ∧ Ends trees ∧ Adds change trees

theorem foldlM_of_adds {changes : List (Declarations → Declarations)} {statements : List Statement}
    (h : List.Forall₂ (fun change (s : Statement) => Adds change s.trees) changes statements)
    (d : Declarations) :
    statements.foldlM Declarations.add d = .ok (changes.foldl (fun d change => change d) d) := by
  induction h generalizing d with
  | nil => rfl
  | cons hs _ ih =>
    rw [List.foldlM_cons, hs _ rfl d]
    exact ih _

/-- A unit has what its lines add to it. -/
theorem ofText_of_lines {changes : List (Declarations → Declarations)} {lines : List (List Form)}
    {forms : List Form} {text package : String} {d : Declarations} (path : String)
    (hadds : List.Forall₂ AddsLine changes lines) (hlines : Lines lines forms)
    (hspells : Spells forms text.toList) (hd : changes.foldl (fun d change => change d) {} = d)
    (hpackage : d.package = some package) :
    SourceUnit.ofText path text =
      .ok ⟨path, package, d.imports, d.types, d.functions, []⟩ := by
  -- from the text to its tokens
  obtain ⟨tokens, hscan, hforms⟩ := scan_of_spells hspells 1
  have hcomments : ∀ token ∈ tokens, token.kind.isComment = false := by
    intro token htoken
    have hmem : token.form ∈ forms := hforms ▸ List.mem_map_of_mem htoken
    exact (hspells.lexical _ hmem).not_isComment
  -- from the tokens to bracket trees and their statements
  obtain ⟨hgroups, stop, hlays⟩ := lays_read hcomments (s := {}) rfl
  rw [hforms] at hlays
  obtain ⟨trees, hsplits, -⟩ := hlines.split hadds hlays
  have htop : topLevel (Layout.ofTokens tokens).code = .ok (Statement.split trees) := by
    rw [topLevel, Layout.ofTokens, ← hsplits.codes_eq, Tree.ofCode_listCodes hsplits.balanced]
  -- from the statements to declarations
  have hfold := foldlM_of_adds hsplits.statements {}
  rw [hd] at hfold
  rw [SourceUnit.ofText, Token.ofText, hspells.dropMark, hscan]
  simp only [SourceUnit.ofTokens, htop, bind, Except.bind, hfold, hpackage]
  rw [Layout.ofTokens, hgroups]
  rfl

/-! ## A package clause and a type -/

/-- A package clause sets the name of the package. -/
theorem addsLine_package (package : String) :
    AddsLine (fun d => { d with package := some package }) [.word "package", .word package] := by
  intro start codes stop hlays
  obtain ⟨code, rest, rfl, hcode, hlays⟩ := hlays.cons_inv rfl
  obtain ⟨name, rest, rfl, hname, hlays⟩ := hlays.cons_inv rfl
  cases hlays
  have hword : code.kind = .identifier ∧ code.text = "package" := ⟨hcode.kind, hcode.text⟩
  have hpackage : name.kind = .identifier ∧ name.text = package := ⟨hname.kind, hname.text⟩
  refine ⟨rfl, [.leaf code, .leaf name], rfl, ?_, ?_, ?_, ?_⟩
  · simpa using ⟨hcode.balanced rfl rfl, hname.balanced rfl rfl⟩
  · exact .leaf hcode rfl (.leaf hname rfl (.nil false))
  · exact (EndsType.append (.word hname.kind) [.leaf code]).ends
  · rintro ⟨head, tail, follow⟩ htrees d
    obtain ⟨rfl, rfl⟩ := List.cons.inj htrees
    simp [Declarations.add, Tree.leafText?, hword, hpackage]

/-- What starts a type is neither a list of type parameters nor an equals sign. -/
theorem StartsType.drop_eq {trees : List Tree} (h : StartsType trees) :
    dropEquals (dropTypeParameters trees) = trees := by
  cases h with
  | leaf hkind => rcases hkind with hkind | hkind <;> simp [dropTypeParameters, dropEquals, hkind]
  | group _ hbody => simp [dropTypeParameters, dropEquals, hbody]

/-- A type declaration adds its type. -/
theorem addsLine_type {type : TypeExpr} {forms : List Form} (name : String)
    (h : Yields forms (TypeTrees type)) :
    AddsLine (fun d => { d with types := d.types ++ [⟨name, type, none⟩] })
      (.word "type" :: .word name :: forms) := by
  intro start codes stop hlays
  obtain ⟨code, rest, rfl, hcode, hlays⟩ := hlays.cons_inv rfl
  obtain ⟨title, rest, rfl, htitle, hlays⟩ := hlays.cons_inv rfl
  obtain ⟨hstop, trees, rfl, hbalanced, htrees⟩ := h _ _ _ hlays
  have hword : code.kind = .identifier ∧ code.text = "type" := ⟨hcode.kind, hcode.text⟩
  have hname : title.kind = .identifier ∧ title.text = name := ⟨htitle.kind, htitle.text⟩
  refine ⟨hstop, .leaf code :: .leaf title :: trees, rfl, ?_, ?_, ?_, ?_⟩
  · exact List.forall_mem_cons.2 ⟨hcode.balanced rfl rfl,
      List.forall_mem_cons.2 ⟨htitle.balanced rfl rfl, hbalanced⟩⟩
  · exact .leaf hcode rfl (.leaf htitle rfl htrees.joined)
  · exact (htrees.ends.append [.leaf code, .leaf title]).ends
  · rintro ⟨head, tail, follow⟩ hs d
    obtain ⟨rfl, rfl⟩ := List.cons.inj hs
    have hdoc : code.doc = none := hcode.doc
    simp [Declarations.add, TypeDecl.readAll, TypeDecl.read, Tree.leafText?, Tree.body?, Tree.first,
      hword, hname, hdoc, htrees.starts.drop_eq, htrees.read]

/-- The text is a package clause and the declaration of one type, with any breaks around them. -/
def Declares (package name : String) (type : TypeExpr) (text : String) : Prop :=
  ∃ written forms, Written (.type type) written ∧
    Lines [[.word "package", .word package], .word "type" :: .word name :: written] forms ∧
    Spells forms text.toList

/-- **Every type is read back as written.** There are texts that declare it, and each of them is
read as a unit with exactly one type, which has the name and the type that were written. -/
theorem SourceUnit.ofText_of_declares {package name : String} {type : TypeExpr}
    (hpackage : isIdentifier package = true) (hname : isIdentifier name = true)
    (htype : Renderable type) (path : String) :
    (∃ text, Declares package name type text) ∧
    ∀ text, Declares package name type text →
      SourceUnit.ofText path text = .ok {
        path, package
        imports := []
        types := [{ name, type, doc := none }]
        functions := []
        comments := [] } := by
  constructor
  · obtain ⟨written, hwritten, hlexical⟩ := htype.exists_written
    have hbreak : (Form.sign .newline '\n').IsBreak := .inl rfl
    have hnewline : (Form.sign .newline '\n').Lexical := .sign rfl
    have hlines := Lines.cons [.word "package", .word package] hbreak
      (.last (.word "type" :: .word name :: written))
    have hclause : ∀ form ∈ [Form.word "package", .word package], form.Lexical := by
      simpa using ⟨Form.Lexical.word (by decide), Form.Lexical.word hpackage⟩
    have hdeclaration : ∀ form ∈ .word "type" :: .word name :: written, form.Lexical :=
      List.forall_mem_cons.2 ⟨.word (by decide), List.forall_mem_cons.2 ⟨.word hname, hlexical⟩⟩
    obtain ⟨text, hspells⟩ := exists_spells (List.forall_mem_append.2
      ⟨hclause, List.forall_mem_cons.2 ⟨hnewline, hdeclaration⟩⟩)
    exact ⟨text, written, _, hwritten, hlines, hspells⟩
  · rintro text ⟨written, forms, hwritten, hlines, hspells⟩
    have hadds := List.Forall₂.cons (addsLine_package package)
      (.cons (addsLine_type name hwritten.reads) .nil)
    exact ofText_of_lines path hadds hlines hspells rfl rfl

/-- A struct with a field named by a keyword, embedded fields and a nested struct. -/
def basket : TypeExpr :=
  .struct [
    ⟨["A", "B"], .map .function (.pointer (.named (some "q") "T")), some "json:\"a\"\n", none⟩,
    ⟨[], .pointer (.named none "E"), none, none⟩,
    ⟨["func"], .struct [⟨[], .named (some "p") "map_", some "", none⟩], none, none⟩,
    ⟨["C"], .channel (.slice (.array .interface)), none, none⟩]

theorem SourceUnit.ofText_of_declares_basket :
    Renderable basket ∧ ∃ text, Declares "p" "N" basket text ∧
      SourceUnit.ofText "n.go" text = .ok {
        path := "n.go"
        package := "p"
        imports := []
        types := [{ name := "N", type := basket, doc := none }]
        functions := []
        comments := [] } := by
  have hinner : Renderable (.struct [⟨[], .named (some "p") "map_", some "", none⟩]) := by
    refine .struct (by decide) ?_
    simpa using Renderable.qualified (by decide) (by decide)
  have hbasket : Renderable basket := by
    have hnamed : Renderable (.named none "E") := .named (by decide)
    have hqualified : Renderable (.named (some "q") "T") := .qualified (by decide) (by decide)
    refine .struct (by decide) ?_
    simpa using ⟨.map .function (.pointer hqualified), .pointer hnamed, hinner,
      .channel (.slice (.array .interface))⟩
  have hpackage : isIdentifier "p" = true := by decide
  have hname : isIdentifier "N" = true := by decide
  obtain ⟨⟨text, hdeclares⟩, hread⟩ := ofText_of_declares hpackage hname hbasket "n.go"
  exact ⟨hbasket, text, hdeclares, hread text hdeclares⟩

end ApiDocs.Source
