/-
  ApiDocs.Proofs.Source.ReadBack

  What is written is read back. The forms of a type yield trees from which reading gives this
  type, and the forms of a field line yield trees from which reading gives this field
  (`Written.reads`, by induction on how the phrase is written). So a text that spells a package
  clause and a type declaration is read as a unit with just this type.
-/

import ApiDocs.Proofs.Source.Literals
import ApiDocs.Proofs.Source.Rendering
import ApiDocs.Source.Unit

namespace ApiDocs.Source

/-! ## Reading types from trees -/

namespace TypeExpr

section Read

variable {code opening closing : Code} (body trees : List Tree)

theorem read_named (hkind : code.kind = .identifier) (hname : code.text ∉ typeWords) :
    (read [.leaf code]).1 = .named none code.text := by
  simp only [typeWords, List.mem_cons, List.not_mem_nil, or_false, not_or] at hname
  rw [read.eq_def]
  simp [hkind, hname, readName]

theorem read_qualified {dot member : Code} (hkind : code.kind = .identifier)
    (hname : code.text ∉ typeWords) (hdot : dot.kind = .dot) (hmember : member.kind = .identifier) :
    (read [.leaf code, .leaf dot, .leaf member]).1 = .named (some code.text) member.text := by
  simp only [typeWords, List.mem_cons, List.not_mem_nil, or_false, not_or] at hname
  rw [read.eq_def]
  simp [hkind, hname, readName, hdot, hmember]

theorem read_pointer (h : code.kind = .star) :
    (read (.leaf code :: trees)).1 = .pointer (read trees).1 := by
  rw [read.eq_def]
  simp [h]

theorem read_slice (h : opening.kind = .leftBracket) :
    (read (.group opening [] closing :: trees)).1 = .slice (read trees).1 := by
  rw [read.eq_def]
  simp [h]

theorem read_array (h : opening.kind = .leftBracket) (length : Tree) :
    (read (.group opening [length] closing :: trees)).1 = .array (read trees).1 := by
  rw [read.eq_def]
  simp [h]

theorem read_map (hkind : code.kind = .identifier) (htext : code.text = "map")
    (h : opening.kind = .leftBracket) :
    (read (.leaf code :: .group opening body closing :: trees)).1 =
      .map (read body).1 (read trees).1 := by
  rw [read.eq_def]
  simp [h, hkind, htext]

theorem read_channel (hkind : code.kind = .identifier) (htext : code.text = "chan") :
    (read (.leaf code :: trees)).1 = .channel (read (dropToken "<-" trees)).1 := by
  rw [read.eq_def]
  simp [hkind, htext]

theorem read_function (hkind : code.kind = .identifier) (htext : code.text = "func") :
    (read (.leaf code :: trees)).1 = .function := by
  rw [read.eq_def]
  simp [hkind, htext]

theorem read_interface (hkind : code.kind = .identifier) (htext : code.text = "interface")
    (h : opening.kind = .leftBrace) :
    (read (.leaf code :: .group opening body closing :: trees)).1 = .interface := by
  rw [read.eq_def]
  simp [h, hkind, htext]

theorem read_struct (hkind : code.kind = .identifier) (htext : code.text = "struct")
    (h : opening.kind = .leftBrace) :
    (read (.leaf code :: .group opening body closing :: trees)).1 = .struct (readFields body) := by
  rw [read.eq_def]
  simp [h, hkind, htext]

end Read

/-- The field of one line, if it is more than a tag. -/
def readField? (doc : Option CommentGroup) (line : List Tree) : Option Field :=
  let tag := (splitTag line).1
  let line := (splitTag line).2
  if line.isEmpty then
    none
  else if embeds line then
    some { names := [], type := (read line).1, tag, doc }
  else
    some { names := (leadingNames line).1, type := (read (leadingNames line).2).1, tag, doc }

theorem readFields_eq (body : List Tree) :
    readFields body =
      (Statement.split body).filterMap fun s => readField? s.head.first.doc s.trees := by
  rw [readFields]
  conv_rhs => rw [← List.attach_map_subtype_val (Statement.split body), List.filterMap_map]
  rfl

end TypeExpr

/-! ## The trees of a type -/

/-- The trees start with a token or a bracket that a type may start with. -/
inductive StartsType : List Tree → Prop where
  | leaf {code : Code} {trees : List Tree} (hkind : code.kind = .identifier ∨ code.kind = .star)
      (htext : code.text ≠ "<-") : StartsType (.leaf code :: trees)
  | group {opening closing : Code} {body trees : List Tree} (hkind : opening.kind = .leftBracket)
      (hbody : isTypeParameters body = false) : StartsType (.group opening body closing :: trees)

/-- The trees end with a token or a bracket that a type may end with. -/
def EndsType (trees : List Tree) : Prop :=
  ∃ tree, trees.getLast? = some tree ∧ tree.last.endsStatement = true ∧
    tree.isLeaf .string = false ∧ tree.isLeaf .rawString = false

theorem EndsType.append {trees : List Tree} (h : EndsType trees) (before : List Tree) :
    EndsType (before ++ trees) := by
  obtain ⟨tree, hlast, hends⟩ := h
  exact ⟨tree, by rw [List.getLast?_append, hlast]; rfl, hends⟩

theorem EndsType.ends {trees : List Tree} (h : EndsType trees) : Ends trees := by
  obtain ⟨tree, hlast, hends, -⟩ := h
  exact ⟨tree, hlast, hends⟩

theorem EndsType.ne_nil {trees : List Tree} (h : EndsType trees) : trees ≠ [] := by
  rintro rfl
  obtain ⟨tree, hlast, -⟩ := h
  cases hlast

/-- A line that ends with its type has no tag. -/
theorem EndsType.splitTag {trees : List Tree} (h : EndsType trees) :
    splitTag trees = (none, trees) := by
  obtain ⟨tree, hlast, -, hstring, hraw⟩ := h
  rw [Source.splitTag, hlast]
  cases tree with
  | group => rfl
  | leaf code =>
    have hkind : ¬ code.kind.isString = true := by
      cases hk : code.kind <;> simp_all [Tree.isLeaf, TokenKind.isString]
    simp [hkind]

/-- The trees are those of a type. -/
structure TypeTrees (type : TypeExpr) (start : Bool) (trees : List Tree) : Prop where
  joined : Joined start trees
  starts : StartsType trees
  ends : EndsType trees
  read : (TypeExpr.read trees).1 = type
  embeds : type.isEmbeddable = true → embeds trees = true

/-- The trees are those of a field line. -/
structure FieldTrees (field : Field) (start : Bool) (trees : List Tree) : Prop where
  joined : Joined start trees
  ends : Ends trees
  read : TypeExpr.readField? none trees = some field

/-- The trees are those of the phrase. -/
def Phrase.Reads : Phrase → Bool → List Tree → Prop
  | .type expected => TypeTrees expected
  | .field expected => FieldTrees expected

theorem StartsType.dropToken {trees : List Tree} (h : StartsType trees) :
    dropToken "<-" trees = trees := by
  cases h with
  | leaf _ htext => rw [Source.dropToken, if_neg htext]
  | group => rfl

/-! ### Single tokens -/

section Leaf

variable {code opening closing : Code} {form : Form} {start : Bool} {body trees : List Tree}

theorem Joined.leaf (h : code.Shows form start) (hkind : (form.kind == .semicolon) = false)
    (htrees : Joined false trees) : Joined start (.leaf code :: trees) :=
  .cons (by simp [Tree.isLeaf, h.kind, beq_eq_false_iff_ne.1 hkind]) h.doc h.newlineBefore htrees

theorem Joined.group (h : opening.Shows form start) (htrees : Joined false trees) :
    Joined start (.group opening body closing :: trees) :=
  .cons rfl h.doc h.newlineBefore htrees

theorem EndsType.word (h : code.kind = .identifier) : EndsType [.leaf code] :=
  ⟨.leaf code, rfl, by simp [Tree.last, Code.endsStatement, h], by simp [Tree.isLeaf, h],
    by simp [Tree.isLeaf, h]⟩

theorem EndsType.group (h : closing.endsStatement = true) : EndsType [.group opening body closing] :=
  ⟨_, rfl, h, rfl, rfl⟩

theorem StartsType.word {text : String} (h : code.Shows (.word text) start) (htext : text ≠ "<-") :
    StartsType (.leaf code :: trees) :=
  .leaf (.inl h.kind) (by rw [h.text]; exact htext)

theorem IsTypeName.ne_arrow {text : String} (h : IsTypeName text) : text ≠ "<-" := by
  rintro rfl
  exact absurd h.1 (by decide)

end Leaf

/-! ### One lemma for each way to write a type -/

section Types

variable {type : TypeExpr} {forms : List Form}

theorem yields_named {name : String} (h : IsTypeName name) :
    Yields [.word name] (TypeTrees (.named none name)) := by
  intro start codes stop hlays
  obtain ⟨code, rest, rfl, hcode, hlays⟩ := hlays.cons_inv rfl
  cases hlays
  have hkind : code.kind = .identifier := hcode.kind
  have htext : code.text = name := hcode.text
  refine ⟨rfl, [.leaf code], rfl, by simpa using hcode.balanced rfl rfl, ?_⟩
  constructor
  · exact .leaf hcode rfl (.nil false)
  · exact .word hcode h.ne_arrow
  · exact .word hkind
  · rw [TypeExpr.read_named hkind (by rw [htext]; exact h.2), htext]
  · intro _
    simp [embeds, hkind]

theorem yields_qualified {qualifier name : String} (h : IsTypeName qualifier) :
    Yields [.word qualifier, .sign .dot '.', .word name] (TypeTrees (.named (some qualifier) name)) := by
  intro start codes stop hlays
  obtain ⟨code, rest, rfl, hcode, hlays⟩ := hlays.cons_inv rfl
  obtain ⟨dot, rest, rfl, hdot, hlays⟩ := hlays.cons_inv rfl
  obtain ⟨member, rest, rfl, hmember, hlays⟩ := hlays.cons_inv rfl
  cases hlays
  have hkind : code.kind = .identifier := hcode.kind
  have htext : code.text = qualifier := hcode.text
  have hread := TypeExpr.read_qualified hkind (by rw [htext]; exact h.2) hdot.kind hmember.kind
  refine ⟨rfl, [.leaf code, .leaf dot, .leaf member], rfl, ?_, ?_⟩
  · simpa using ⟨hcode.balanced rfl rfl, hdot.balanced rfl rfl, hmember.balanced rfl rfl⟩
  constructor
  · exact .leaf hcode rfl (.leaf hdot rfl (.leaf hmember rfl (.nil false)))
  · exact .word hcode h.ne_arrow
  · exact EndsType.append (.word hmember.kind) [.leaf code, .leaf dot]
  · rw [hread, htext, hmember.text]
    rfl
  · intro _
    have hpoint : dot.kind = .dot := hdot.kind
    simp [embeds, hkind, hpoint]

theorem yields_pointer (h : Yields forms (TypeTrees type)) :
    Yields (.sign .star '*' :: forms) (TypeTrees (.pointer type)) := by
  intro start codes stop hlays
  obtain ⟨code, rest, rfl, hcode, hlays⟩ := hlays.cons_inv rfl
  obtain ⟨hstop, trees, rfl, hbalanced, htrees⟩ := h _ _ _ hlays
  have hkind : code.kind = .star := hcode.kind
  refine ⟨hstop, .leaf code :: trees, rfl,
    List.forall_mem_cons.2 ⟨hcode.balanced rfl rfl, hbalanced⟩, ?_⟩
  constructor
  · exact .leaf hcode rfl htrees.joined
  · exact .leaf (.inr hkind) (by rw [hcode.text]; decide)
  · exact htrees.ends.append [.leaf code]
  · rw [TypeExpr.read_pointer trees hkind, htrees.read]
  · intro _
    unfold embeds
    split <;> simp_all

theorem yields_slice (h : Yields forms (TypeTrees type)) :
    Yields (.sign .leftBracket '[' :: .sign .rightBracket ']' :: forms) (TypeTrees (.slice type)) := by
  intro start codes stop hlays
  obtain ⟨opening, rest, rfl, hopening, hlays⟩ := hlays.cons_inv rfl
  obtain ⟨closing, rest, rfl, hclosing, hlays⟩ := hlays.cons_inv rfl
  obtain ⟨hstop, trees, rfl, hbalanced, htrees⟩ := h _ _ _ hlays
  have hkind : opening.kind = .leftBracket := hopening.kind
  have hgroup : (Tree.group opening [] closing).Balanced :=
    .group (by rw [hkind]; rfl) (by rw [hclosing.kind]; rfl) (by simp)
  refine ⟨hstop, .group opening [] closing :: trees, rfl,
    List.forall_mem_cons.2 ⟨hgroup, hbalanced⟩, ?_⟩
  constructor
  · exact .group hopening htrees.joined
  · exact .group hkind rfl
  · exact htrees.ends.append [.group opening [] closing]
  · rw [TypeExpr.read_slice trees hkind, htrees.read]
  · intro h
    cases h

theorem yields_array (length : String) (h : Yields forms (TypeTrees type)) :
    Yields (.sign .leftBracket '[' :: .number length :: .sign .rightBracket ']' :: forms)
      (TypeTrees (.array type)) := by
  intro start codes stop hlays
  obtain ⟨opening, rest, rfl, hopening, hlays⟩ := hlays.cons_inv rfl
  obtain ⟨number, rest, rfl, hnumber, hlays⟩ := hlays.cons_inv rfl
  obtain ⟨closing, rest, rfl, hclosing, hlays⟩ := hlays.cons_inv rfl
  obtain ⟨hstop, trees, rfl, hbalanced, htrees⟩ := h _ _ _ hlays
  have hkind : opening.kind = .leftBracket := hopening.kind
  have hgroup : (Tree.group opening [.leaf number] closing).Balanced :=
    .group (by rw [hkind]; rfl) (by rw [hclosing.kind]; rfl)
      (by simpa using hnumber.balanced rfl rfl)
  refine ⟨hstop, .group opening [.leaf number] closing :: trees, rfl,
    List.forall_mem_cons.2 ⟨hgroup, hbalanced⟩, ?_⟩
  constructor
  · exact .group hopening htrees.joined
  · exact .group hkind rfl
  · exact htrees.ends.append [.group opening [.leaf number] closing]
  · rw [TypeExpr.read_array trees hkind, htrees.read]
  · intro h
    cases h

theorem yields_map {key value : TypeExpr} {forms' : List Form} (hkey : Yields forms (TypeTrees key))
    (hvalue : Yields forms' (TypeTrees value)) :
    Yields (.word "map" :: .sign .leftBracket '[' :: (forms ++ .sign .rightBracket ']' :: forms'))
      (TypeTrees (.map key value)) := by
  intro start codes stop hlays
  obtain ⟨code, rest, rfl, hcode, hlays⟩ := hlays.cons_inv rfl
  obtain ⟨opening, rest, rfl, hopening, hlays⟩ := hlays.cons_inv rfl
  obtain ⟨inner, outer, middle, rfl, hinner, houter⟩ := hlays.append_inv
  obtain ⟨closing, rest, rfl, hclosing, houter⟩ := houter.cons_inv rfl
  obtain ⟨-, body, rfl, hbody, htrees⟩ := hkey _ _ _ hinner
  obtain ⟨hstop, trees, rfl, hbalanced, htrees'⟩ := hvalue _ _ _ houter
  have hkind : opening.kind = .leftBracket := hopening.kind
  have hgroup : (Tree.group opening body closing).Balanced :=
    .group (by rw [hkind]; rfl) (by rw [hclosing.kind]; rfl) hbody
  refine ⟨hstop, .leaf code :: .group opening body closing :: trees, ?_, ?_, ?_⟩
  · simp [Tree.listCodes, Tree.codes]
  · exact List.forall_mem_cons.2
      ⟨hcode.balanced rfl rfl, List.forall_mem_cons.2 ⟨hgroup, hbalanced⟩⟩
  constructor
  · exact .leaf hcode rfl (.group hopening htrees'.joined)
  · exact .word hcode (by decide)
  · exact htrees'.ends.append [.leaf code, .group opening body closing]
  · rw [TypeExpr.read_map body trees hcode.kind hcode.text hkind, htrees.read, htrees'.read]
  · intro h
    cases h

theorem yields_channel (h : Yields forms (TypeTrees type)) :
    Yields (.word "chan" :: forms) (TypeTrees (.channel type)) := by
  intro start codes stop hlays
  obtain ⟨code, rest, rfl, hcode, hlays⟩ := hlays.cons_inv rfl
  obtain ⟨hstop, trees, rfl, hbalanced, htrees⟩ := h _ _ _ hlays
  refine ⟨hstop, .leaf code :: trees, rfl,
    List.forall_mem_cons.2 ⟨hcode.balanced rfl rfl, hbalanced⟩, ?_⟩
  constructor
  · exact .leaf hcode rfl htrees.joined
  · exact .word hcode (by decide)
  · exact htrees.ends.append [.leaf code]
  · rw [TypeExpr.read_channel trees hcode.kind hcode.text, htrees.starts.dropToken, htrees.read]
  · intro h
    cases h

/-- A keyword, and what stands in brackets behind it. -/
theorem yields_bracketed {word : String} {left right : Form} (forms : List Form)
    (P : List Tree → Prop)
    (hword : word ≠ "<-") (hleft : left.kind.isOpening = true) (hright : right.kind.isClosing = true)
    (hends : ∀ closing newline, Code.Shows closing right newline → closing.endsStatement = true)
    (htype : type.isEmbeddable = false)
    (hforms : ∀ codes stop, Lays false forms codes stop →
      ∃ body, Tree.listCodes body = codes ∧ (∀ tree ∈ body, tree.Balanced) ∧ P body)
    (hread : ∀ code opening closing body newline, Code.Shows code (.word word) newline →
      Code.Shows opening left false → P body →
      (TypeExpr.read [.leaf code, .group opening body closing]).1 = type) :
    Yields (.word word :: left :: (forms ++ [right])) (TypeTrees type) := by
  intro start codes stop hlays
  have hleft' : (left.kind == .newline) = false := by
    cases hkind : left.kind <;> simp_all [TokenKind.isOpening]
  have hright' : (right.kind == .newline) = false := by
    cases hkind : right.kind <;> simp_all [TokenKind.isClosing]
  obtain ⟨code, rest, rfl, hcode, hlays⟩ := hlays.cons_inv rfl
  obtain ⟨opening, rest, rfl, hopening, hlays⟩ := hlays.cons_inv hleft'
  -- line ends inside the brackets, or before the closing one, do not matter
  obtain ⟨inner, outer, middle, rfl, hinner, houter⟩ := hlays.append_inv
  obtain ⟨closing, rest, rfl, hclosing, houter⟩ := houter.cons_inv hright'
  cases houter
  obtain ⟨body, rfl, hbalanced, hbody⟩ := hforms _ _ hinner
  have hgroup : (Tree.group opening body closing).Balanced :=
    .group (by rw [hopening.kind, hleft]) (by rw [hclosing.kind, hright]) hbalanced
  refine ⟨rfl, [.leaf code, .group opening body closing], ?_, ?_, ?_⟩
  · simp [Tree.listCodes, Tree.codes]
  · simpa using ⟨hcode.balanced rfl rfl, hgroup⟩
  constructor
  · exact .leaf hcode rfl (.group hopening (.nil false))
  · exact .word hcode hword
  · exact EndsType.append (.group (hends closing middle hclosing)) [.leaf code]
  · exact hread code opening closing body start hcode hopening hbody
  · intro h
    rw [htype] at h
    cases h

theorem yields_function :
    Yields [.word "func", .sign .leftParen '(', .sign .rightParen ')'] (TypeTrees .function) := by
  refine yields_bracketed [] (fun _ => True) (by decide) rfl rfl (fun closing newline h => ?_) rfl
    (fun codes stop hlays => ?_) (fun code opening closing body newline hcode _ _ => ?_)
  · simp [Code.endsStatement, h.kind, Form.sign]
  · cases hlays
    exact ⟨[], rfl, by simp, trivial⟩
  · exact TypeExpr.read_function _ hcode.kind hcode.text

theorem yields_interface :
    Yields [.word "interface", .sign .leftBrace '{', .sign .rightBrace '}']
      (TypeTrees .interface) := by
  refine yields_bracketed [] (fun _ => True) (by decide) rfl rfl (fun closing newline h => ?_) rfl
    (fun codes stop hlays => ?_) (fun code opening closing body newline hcode hopening _ => ?_)
  · simp [Code.endsStatement, h.kind, Form.sign]
  · cases hlays
    exact ⟨[], rfl, by simp, trivial⟩
  · exact TypeExpr.read_interface _ _ hcode.kind hcode.text hopening.kind

end Types

/-! ### Field lines -/

theorem Joined.doc {start : Bool} {s : Statement} (h : Joined start s.trees) :
    s.head.first.doc = none := by
  cases h with
  | cons _ hdoc => exact hdoc

/-- Statements that are field lines are read as their fields. -/
theorem readFields_of_split {fields : List Field} {body : List Tree}
    (h : List.Forall₂ (fun field (s : Statement) => ∃ start, FieldTrees field start s.trees) fields
      (Statement.split body)) : TypeExpr.readFields body = fields := by
  rw [TypeExpr.readFields_eq]
  generalize Statement.split body = statements at h
  induction h with
  | nil => rfl
  | @cons field s fields statements hfield _ ih =>
    obtain ⟨start, hfield⟩ := hfield
    rw [List.filterMap_cons, hfield.joined.doc, hfield.read, ih]

theorem yields_struct {lines : List (Field × List Form)} {forms : List Form}
    (h : ∀ line ∈ lines, Yields line.2 (FieldTrees line.1)) (hlines : Lines (lines.map Prod.snd) forms) :
    Yields (.word "struct" :: .sign .leftBrace '{' :: (forms ++ [.sign .rightBrace '}']))
      (TypeTrees (.struct (lines.map Prod.fst))) := by
  have hyields : List.Forall₂ (fun field line => Yields line fun start trees =>
      Joined start trees ∧ Ends trees ∧ ∃ start, FieldTrees field start trees)
      (lines.map Prod.fst) (lines.map Prod.snd) := by
    refine List.forall₂_map_left_iff.2 (List.forall₂_map_right_iff.2
      (List.forall₂_same.2 fun line hline start codes stop hlays => ?_))
    obtain ⟨hstop, trees, hcodes, hbalanced, htrees⟩ := h line hline start codes stop hlays
    exact ⟨hstop, trees, hcodes, hbalanced, htrees.joined, htrees.ends, start, htrees⟩
  refine yields_bracketed forms (fun body => TypeExpr.readFields body = lines.map Prod.fst)
    (by decide) rfl rfl (fun closing newline h => ?_) rfl (fun codes stop hlays => ?_)
    (fun code opening closing body newline hcode hopening hbody => ?_)
  · simp [Code.endsStatement, h.kind, Form.sign]
  · -- the body splits into one statement for each line
    obtain ⟨body, hsplits, -⟩ := hlines.split hyields hlays
    exact ⟨body, hsplits.codes_eq, hsplits.balanced, readFields_of_split hsplits.statements⟩
  · rw [TypeExpr.read_struct body _ hcode.kind hcode.text hopening.kind, hbody]

/-- A tag behind the trees of a line. -/
theorem yields_tag {tag : Option String} {start stop : Bool} {codes : List Code} {trees : List Tree}
    (hlays : Lays false (tagForms tag) codes stop) (hjoined : Joined start trees)
    (hends : EndsType trees) :
    stop = false ∧ ∃ trees', Tree.listCodes trees' = codes ∧ (∀ tree ∈ trees', tree.Balanced) ∧
      Joined start (trees ++ trees') ∧ Ends (trees ++ trees') ∧
      splitTag (trees ++ trees') = (tag, trees) := by
  cases tag with
  | none =>
    cases hlays
    refine ⟨rfl, [], rfl, by simp, ?_⟩
    rw [List.append_nil]
    exact ⟨hjoined, hends.ends, hends.splitTag⟩
  | some content =>
    obtain ⟨code, rest, rfl, hcode, hlays⟩ := hlays.cons_inv rfl
    cases hlays
    have hkind : code.kind = .rawString := hcode.kind
    have htext : code.text.toList = backquote :: (content.toList ++ [backquote]) := by
      rw [hcode.text]
      simp [Form.raw]
    refine ⟨rfl, [.leaf code], rfl, by simpa using hcode.balanced rfl rfl, ?_, ?_, ?_⟩
    · exact hjoined.append hends.ne_nil (.leaf hcode rfl (.nil false))
    · exact ⟨.leaf code, by simp, by simp [Tree.last, Code.endsStatement, hkind]⟩
    · simp [splitTag, hkind, TokenKind.isString, htext, unquote_raw]

/-- The trees are those of names and a type, in a line without a tag. -/
structure NamedTrees (names : List String) (type : TypeExpr) (start : Bool) (trees : List Tree) :
    Prop where
  joined : Joined start trees
  ends : EndsType trees
  embeds : embeds trees = false
  names : (leadingNames trees).1 = names
  read : (TypeExpr.read (leadingNames trees).2).1 = type

theorem leadingNames_type {code : Code} (h : code.kind = .identifier) {trees : List Tree}
    (hstarts : StartsType trees) : leadingNames (.leaf code :: trees) = ([code.text], trees) := by
  cases hstarts with
  | leaf hkind =>
    rcases hkind with hkind | hkind <;> simp [leadingNames, h, hkind]
  | group => simp [leadingNames, h]

theorem embeds_type {code : Code} (h : code.kind = .identifier) {trees : List Tree}
    (hstarts : StartsType trees) : embeds (.leaf code :: trees) = false := by
  cases hstarts with
  | @leaf next trees hkind =>
    -- a name and a dot would be a qualified name
    have hdot : next.kind ≠ .dot := by rcases hkind with hkind | hkind <;> simp [hkind]
    unfold embeds
    split <;> simp_all
  | group => simp [embeds, h]

/-- Names before a type. -/
theorem yields_names {type : TypeExpr} {forms : List Form} (h : Yields forms (TypeTrees type))
    (first : String) (others : List String) :
    Yields (nameForms first others ++ forms) (NamedTrees (first :: others) type) := by
  induction others generalizing first with
  | nil =>
    intro start codes stop hlays
    obtain ⟨code, rest, rfl, hcode, hlays⟩ := hlays.cons_inv rfl
    obtain ⟨hstop, trees, rfl, hbalanced, htrees⟩ := h _ _ _ hlays
    have hkind : code.kind = .identifier := hcode.kind
    have hnames := leadingNames_type hkind htrees.starts
    refine ⟨hstop, .leaf code :: trees, rfl,
      List.forall_mem_cons.2 ⟨hcode.balanced rfl rfl, hbalanced⟩, ?_⟩
    constructor
    · exact .leaf hcode rfl htrees.joined
    · exact htrees.ends.append [.leaf code]
    · exact embeds_type hkind htrees.starts
    · rw [hnames, hcode.text]
      rfl
    · rw [hnames, htrees.read]
  | cons second others ih =>
    -- one name and a comma are taken, and the rest of the line is like the line itself
    intro start codes stop hlays
    obtain ⟨code, rest, rfl, hcode, hlays⟩ := hlays.cons_inv rfl
    obtain ⟨comma, rest, rfl, hcomma, hlays⟩ := hlays.cons_inv rfl
    obtain ⟨hstop, trees, rfl, hbalanced, htrees⟩ := ih second _ _ _ hlays
    have hkind : code.kind = .identifier := hcode.kind
    have hkind' : comma.kind = .comma := hcomma.kind
    have hnames : leadingNames (.leaf code :: .leaf comma :: trees) =
        (code.text :: (leadingNames trees).1, (leadingNames trees).2) := by
      simp [leadingNames, hkind, hkind']
    refine ⟨hstop, .leaf code :: .leaf comma :: trees, rfl, List.forall_mem_cons.2
      ⟨hcode.balanced rfl rfl, List.forall_mem_cons.2 ⟨hcomma.balanced rfl rfl, hbalanced⟩⟩, ?_⟩
    constructor
    · exact .leaf hcode rfl (.leaf hcomma rfl htrees.joined)
    · exact htrees.ends.append [.leaf code, .leaf comma]
    · unfold embeds
      split <;> simp_all
    · rw [hnames, htrees.names, hcode.text]
      rfl
    · rw [hnames, htrees.read]

theorem yields_embedded {type : TypeExpr} {forms : List Form} (tag : Option String)
    (h : Yields forms (TypeTrees type)) (htype : type.isEmbeddable = true) :
    Yields (forms ++ tagForms tag) (FieldTrees ⟨[], type, tag, none⟩) := by
  intro start codes stop hlays
  obtain ⟨codes₁, codes₂, middle, rfl, hlays₁, hlays₂⟩ := hlays.append_inv
  obtain ⟨rfl, trees, rfl, hbalanced, htrees⟩ := h _ _ _ hlays₁
  obtain ⟨hstop, trees', rfl, hbalanced', hjoined, hends, htag⟩ :=
    yields_tag hlays₂ htrees.joined htrees.ends
  refine ⟨hstop, trees ++ trees', Tree.listCodes_append trees trees',
    List.forall_mem_append.2 ⟨hbalanced, hbalanced'⟩, hjoined, hends, ?_⟩
  simp [TypeExpr.readField?, htag, htrees.ends.ne_nil, htrees.embeds htype, htrees.read]

theorem yields_line {type : TypeExpr} {forms : List Form} (first : String) (others : List String)
    (tag : Option String) (h : Yields forms (TypeTrees type)) :
    Yields (nameForms first others ++ forms ++ tagForms tag)
      (FieldTrees ⟨first :: others, type, tag, none⟩) := by
  intro start codes stop hlays
  obtain ⟨codes₁, codes₂, middle, rfl, hlays₁, hlays₂⟩ := hlays.append_inv
  obtain ⟨rfl, trees, rfl, hbalanced, htrees⟩ := yields_names h first others _ _ _ hlays₁
  obtain ⟨hstop, trees', rfl, hbalanced', hjoined, hends, htag⟩ :=
    yields_tag hlays₂ htrees.joined htrees.ends
  refine ⟨hstop, trees ++ trees', Tree.listCodes_append trees trees',
    List.forall_mem_append.2 ⟨hbalanced, hbalanced'⟩, hjoined, hends, ?_⟩
  simp [TypeExpr.readField?, htag, htrees.ends.ne_nil, htrees.embeds, htrees.names, htrees.read]

/-- What is written is read back. -/
theorem Written.reads {phrase : Phrase} {forms : List Form} (h : Written phrase forms) :
    Yields forms phrase.Reads := by
  induction h with
  | named h => exact yields_named h
  | qualified hqualifier => exact yields_qualified hqualifier
  | pointer _ ih => exact yields_pointer ih
  | slice _ ih => exact yields_slice ih
  | array length _ ih => exact yields_array length ih
  | map _ _ ihkey ihvalue => exact yields_map ihkey ihvalue
  | channel _ ih => exact yields_channel ih
  | function => exact yields_function
  | interface => exact yields_interface
  | struct _ hlines ih => exact yields_struct ih hlines
  | embedded tag _ htype ih => exact yields_embedded tag ih htype
  | line first others tag _ ih => exact yields_line first others tag ih

end ApiDocs.Source
