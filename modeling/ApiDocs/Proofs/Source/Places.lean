/-
  ApiDocs.Proofs.Source.Places

  Declarations without places. Line numbers stand in tokens and in comment groups, and reading
  hands them on but never looks at them. So each reader commutes with forgetting them
  (`unplaced`), from the layout of tokens up to what one statement adds to the declarations of
  a unit (`add_unplaced`). Tokens of the same forms then declare the same, up to places
  (`declarations_of_forms`).
-/

import ApiDocs.Proofs.Source.ReadBack

namespace ApiDocs.Source

/-! ## Forgetting places -/

/-- The comments without their lines. -/
def CommentGroup.unplaced (group : CommentGroup) : CommentGroup :=
  { group with startLine := 0, endLine := 0 }

/-- The code token without its line and those of its comments. -/
def Code.unplaced (code : Code) : Code :=
  { code with line := 0, doc := code.doc.map CommentGroup.unplaced }

namespace Tree

mutual

/-- The tree without the lines of its tokens. -/
def unplaced : Tree → Tree
  | leaf code => leaf code.unplaced
  | group opening body closing => group opening.unplaced (listUnplaced body) closing.unplaced

/-- A list of trees without the lines of its tokens. -/
def listUnplaced : List Tree → List Tree
  | [] => []
  | tree :: trees => unplaced tree :: listUnplaced trees

end

theorem listUnplaced_eq_map (trees : List Tree) : listUnplaced trees = trees.map unplaced := by
  induction trees with
  | nil => rfl
  | cons tree trees ih => rw [listUnplaced, ih, List.map_cons]

end Tree

mutual

/-- The type without the lines of the comments on its fields. -/
def TypeExpr.unplaced : TypeExpr → TypeExpr
  | .named qualifier name => .named qualifier name
  | .pointer target => .pointer target.unplaced
  | .slice element => .slice element.unplaced
  | .array element => .array element.unplaced
  | .map key value => .map key.unplaced value.unplaced
  | .channel element => .channel element.unplaced
  | .struct fields => .struct (listUnplacedFields fields)
  | .interface => .interface
  | .function => .function
  | .unknown text => .unknown text

/-- Field lines without the lines of their comments. -/
def listUnplacedFields : List (FieldOf TypeExpr) → List (FieldOf TypeExpr)
  | [] => []
  | field :: fields => unplacedField field :: listUnplacedFields fields

/-- A field line without the lines of its comments. -/
def unplacedField : FieldOf TypeExpr → FieldOf TypeExpr
  | ⟨names, type, tag, doc⟩ => ⟨names, type.unplaced, tag, doc.map CommentGroup.unplaced⟩

end

theorem listUnplacedFields_eq_map (fields : List Field) :
    listUnplacedFields fields = fields.map unplacedField := by
  induction fields with
  | nil => rfl
  | cons field fields ih => rw [listUnplacedFields, ih, List.map_cons]

/-- The type declaration without the lines of its comments. -/
def TypeDecl.unplaced (decl : TypeDecl) : TypeDecl :=
  ⟨decl.name, decl.type.unplaced, decl.doc.map CommentGroup.unplaced⟩

/-- The function declaration without the lines of its comments. -/
def FuncDecl.unplaced (decl : FuncDecl) : FuncDecl :=
  { decl with doc := decl.doc.map CommentGroup.unplaced }

/-- The declarations without the lines of their comments. -/
def Declarations.unplaced (d : Declarations) : Declarations :=
  { d with types := d.types.map TypeDecl.unplaced, functions := d.functions.map FuncDecl.unplaced }

/-- The statement without the lines of its tokens. -/
def Statement.unplaced (s : Statement) : Statement :=
  ⟨s.head.unplaced, s.tail.map Tree.unplaced, s.follow.map Code.unplaced⟩

/-! ## What is left of tokens and trees -/

section Simp

variable (code : Code) (tree : Tree) (kind : TokenKind)

@[simp] theorem Code.unplaced_kind : code.unplaced.kind = code.kind := rfl

@[simp] theorem Code.unplaced_text : code.unplaced.text = code.text := rfl

@[simp] theorem Code.unplaced_newlineBefore :
    code.unplaced.newlineBefore = code.newlineBefore := rfl

@[simp] theorem Code.unplaced_doc : code.unplaced.doc = code.doc.map CommentGroup.unplaced := rfl

@[simp] theorem Code.unplaced_endsStatement :
    code.unplaced.endsStatement = code.endsStatement := rfl

namespace Tree

@[simp] theorem unplaced_leaf : (leaf code).unplaced = leaf code.unplaced := rfl

@[simp] theorem unplaced_group (opening closing : Code) (body : List Tree) :
    (group opening body closing).unplaced =
      group opening.unplaced (body.map unplaced) closing.unplaced := by
  rw [unplaced, listUnplaced_eq_map]

@[simp] theorem unplaced_first : tree.unplaced.first = tree.first.unplaced := by
  cases tree <;> rfl

@[simp] theorem unplaced_last : tree.unplaced.last = tree.last.unplaced := by
  cases tree <;> rfl

@[simp] theorem unplaced_isLeaf : tree.unplaced.isLeaf kind = tree.isLeaf kind := by
  cases tree <;> rfl

@[simp] theorem unplaced_leafText? : tree.unplaced.leafText? kind = tree.leafText? kind := by
  cases tree <;> rfl

@[simp] theorem unplaced_body? :
    tree.unplaced.body? kind = (tree.body? kind).map (List.map unplaced) := by
  cases tree with
  | leaf => rfl
  | group opening body closing =>
    by_cases h : opening.kind = kind <;> simp [body?, h]

end Tree
end Simp

namespace Tree

mutual

theorem codes_unplaced : (tree : Tree) → codes tree.unplaced = (codes tree).map Code.unplaced
  | leaf code => rfl
  | group opening body closing => by
    rw [unplaced, codes, codes, listCodes_listUnplaced body]
    simp

theorem listCodes_listUnplaced :
    (trees : List Tree) → listCodes (listUnplaced trees) = (listCodes trees).map Code.unplaced
  | [] => rfl
  | tree :: trees => by
    rw [listUnplaced, listCodes, listCodes, codes_unplaced tree, listCodes_listUnplaced trees,
      List.map_append]

end

theorem listCodes_unplaced (trees : List Tree) :
    listCodes (trees.map unplaced) = (listCodes trees).map Code.unplaced := by
  rw [← listUnplaced_eq_map, listCodes_listUnplaced]

end Tree

/-! ## Statements -/

theorem Statement.joins_unplaced (t : Tree) (next : Option Tree) :
    joins t.unplaced (next.map Tree.unplaced) = joins t next := by
  cases next <;> simp [joins]

theorem Statement.split_unplaced (trees : List Tree) :
    split (trees.map Tree.unplaced) = (split trees).map unplaced := by
  induction trees with
  | nil => rfl
  | cons t ts ih =>
    rw [List.map_cons, split, split, List.head?_map, joins_unplaced, Tree.unplaced_isLeaf, ih]
    split
    · rfl
    split
    · cases split ts <;> rfl
    · cases ts <;> simp [unplaced]

/-! ## Types -/

theorem splitTag_unplaced (line : List Tree) :
    splitTag (line.map Tree.unplaced) =
      ((splitTag line).1, (splitTag line).2.map Tree.unplaced) := by
  rw [splitTag, splitTag, List.getLast?_map]
  cases line.getLast? with
  | none => rfl
  | some tree =>
    cases tree with
    | group => simp
    | leaf code => by_cases h : code.kind.isString = true <;> simp [h]

theorem embeds_unplaced (line : List Tree) : embeds (line.map Tree.unplaced) = embeds line := by
  rcases line with _ | ⟨_ | _, _ | ⟨_ | _, _ | ⟨_ | _, _ | _⟩⟩⟩ <;> rfl

theorem leadingNames_unplaced (line : List Tree) :
    leadingNames (line.map Tree.unplaced) =
      ((leadingNames line).1, (leadingNames line).2.map Tree.unplaced) := by
  fun_induction leadingNames line with
  | case1 a ha b after hb names type hnames ih =>
    rw [hnames] at ih
    simp [leadingNames, ha, hb, ih]
  | case2 a ha b after hb => simp [leadingNames, ha, hb]
  | case3 a rest ha hrest =>
    rcases rest with _ | ⟨b | _, rest⟩
    · simp [leadingNames, ha]
    · exact absurd rfl (hrest b rest)
    · simp [leadingNames, ha]
  | case4 a rest ha =>
    rw [List.map_cons, Tree.unplaced_leaf, leadingNames.eq_def]
    simp [ha]
  | case5 trees htrees =>
    rcases trees with _ | ⟨a | _, trees⟩
    · rfl
    · exact absurd rfl (htrees a trees)
    · simp [leadingNames]

theorem dropToken_unplaced (text : String) (trees : List Tree) :
    dropToken text (trees.map Tree.unplaced) = (dropToken text trees).map Tree.unplaced := by
  rcases trees with _ | ⟨code | _, trees⟩
  · rfl
  · by_cases h : code.text = text <;> simp [dropToken, h]
  · simp [dropToken]

theorem dropTypeArguments_unplaced (trees : List Tree) :
    dropTypeArguments (trees.map Tree.unplaced) = (dropTypeArguments trees).map Tree.unplaced := by
  rcases trees with _ | ⟨_ | ⟨opening, body, closing⟩, trees⟩
  · rfl
  · simp [dropTypeArguments]
  · have hcond :
        (decide (opening.unplaced.kind = .leftBracket) && !opening.unplaced.newlineBefore) =
          (decide (opening.kind = .leftBracket) && !opening.newlineBefore) := rfl
    rw [List.map_cons, Tree.unplaced_group, dropTypeArguments, dropTypeArguments, hcond]
    split <;> simp

theorem readName_unplaced (name : String) (trees : List Tree) :
    readName name (trees.map Tree.unplaced) =
      ((readName name trees).1.unplaced, (readName name trees).2.map Tree.unplaced) := by
  have hplain : ∀ trees : List Tree,
      (TypeExpr.named none name, dropTypeArguments (trees.map Tree.unplaced)) =
        ((TypeExpr.named none name).unplaced, (dropTypeArguments trees).map Tree.unplaced) :=
    fun trees => by rw [dropTypeArguments_unplaced, TypeExpr.unplaced]
  rcases trees with _ | ⟨dot | group, _ | ⟨member | group, trees⟩⟩
  · rfl
  · exact hplain [.leaf dot]
  · have hcond :
        (decide (dot.unplaced.kind = .dot) && decide (member.unplaced.kind = .identifier)) =
          (decide (dot.kind = .dot) && decide (member.kind = .identifier)) := rfl
    rw [List.map_cons, List.map_cons, Tree.unplaced_leaf, Tree.unplaced_leaf, readName, readName,
      hcond]
    split
    · simp [dropTypeArguments_unplaced, TypeExpr.unplaced]
    · simp [TypeExpr.unplaced]
  · exact hplain (.leaf dot :: _ :: trees)
  · exact hplain [_]
  · exact hplain (_ :: _ :: trees)
  · exact hplain (_ :: _ :: trees)

namespace TypeExpr

/-- Reading of these trees commutes with forgetting places. -/
def ReadsAlike (trees : List Tree) : Prop :=
  read (trees.map Tree.unplaced) = ((read trees).1.unplaced, (read trees).2.map Tree.unplaced)

/-- A field line is read alike if the types in it are. -/
theorem readField?_unplaced {line : List Tree} (doc : Option CommentGroup)
    (h : ∀ trees : List Tree, sizeOf trees ≤ sizeOf line → ReadsAlike trees) :
    readField? (doc.map CommentGroup.unplaced) (line.map Tree.unplaced) =
      (readField? doc line).map unplacedField := by
  have htag := sizeOf_splitTag line
  have hnames := sizeOf_leadingNames (splitTag line).2
  have hline : ReadsAlike (splitTag line).2 := h _ htag
  have htype : ReadsAlike (leadingNames (splitTag line).2).2 := h _ (by omega)
  unfold readField?
  simp only [splitTag_unplaced, embeds_unplaced, leadingNames_unplaced, List.isEmpty_map]
  split
  · rfl
  split
  · rw [hline]
    rfl
  · rw [htype]
    rfl

theorem readFields_unplaced {body : List Tree}
    (h : ∀ trees : List Tree, sizeOf trees ≤ sizeOf body → ReadsAlike trees) :
    readFields (body.map Tree.unplaced) = (readFields body).map unplacedField := by
  rw [readFields_eq, readFields_eq, Statement.split_unplaced, List.filterMap_map,
    List.map_filterMap]
  refine List.filterMap_congr fun s hs => ?_
  have hsize := Statement.sizeOf_of_mem_split hs
  have hfield := readField?_unplaced s.head.first.doc fun trees ht =>
    h trees (Nat.le_trans ht hsize)
  rw [Function.comp, ← hfield]
  simp [Statement.unplaced, Statement.trees]

section Word

variable {code : Code} (hkind : code.kind = .identifier) (hfunc : code.text ≠ "func")
  (hchan : code.text ≠ "chan")
include hkind hfunc hchan

/-- A word with no brackets behind it is a name. -/
theorem read_word {rest : List Tree}
    (hrest : ∀ opening body closing after, rest ≠ .group opening body closing :: after) :
    read (.leaf code :: rest) = readName code.text rest := by
  rw [read, hkind]
  · simp only [hfunc, hchan, if_false]
  · exact hrest

/-- A word together with the brackets behind it. -/
theorem read_wordGroup (opening : Code) (body : List Tree) (closing : Code) (after : List Tree) :
    read (.leaf code :: .group opening body closing :: after) =
      if code.text = "map" && opening.kind = .leftBracket then
        (.map (read body).1 (read after).1, (read after).2)
      else if code.text = "struct" && opening.kind = .leftBrace then
        (.struct (readFields body), after)
      else if code.text = "interface" && opening.kind = .leftBrace then
        (.interface, after)
      else
        (.named none code.text, dropTypeArguments (.group opening body closing :: after)) := by
  rw [read, hkind]
  simp only [hfunc, hchan, if_false]

/-- A type that starts with a word other than `func` and `chan`. -/
theorem readsAlike_word {rest : List Tree}
    (h : ∀ trees : List Tree, sizeOf trees < sizeOf (Tree.leaf code :: rest) → ReadsAlike trees) :
    ReadsAlike (.leaf code :: rest) := by
  have hkind' : code.unplaced.kind = .identifier := hkind
  have hfunc' : code.unplaced.text ≠ "func" := hfunc
  have hchan' : code.unplaced.text ≠ "chan" := hchan
  unfold ReadsAlike
  rcases rest with _ | ⟨next | ⟨opening, body, closing⟩, rest⟩
  · have hname := readName_unplaced code.text []
    rw [List.map_cons, Tree.unplaced_leaf, read_word hkind' hfunc' hchan' (by simp),
      read_word hkind hfunc hchan (by simp)]
    exact hname
  · have hname := readName_unplaced code.text (.leaf next :: rest)
    rw [List.map_cons, Tree.unplaced_leaf, read_word hkind' hfunc' hchan' (by simp),
      read_word hkind hfunc hchan (by simp)]
    exact hname
  · have hrest : ReadsAlike rest := h rest (by simp only [List.cons.sizeOf_spec]; omega)
    have hbody : ReadsAlike body :=
      h body (by simp only [List.cons.sizeOf_spec, Tree.group.sizeOf_spec]; omega)
    have hfields : readFields (body.map Tree.unplaced) = (readFields body).map unplacedField :=
      readFields_unplaced fun trees ht =>
        h trees (by simp only [List.cons.sizeOf_spec, Tree.group.sizeOf_spec]; omega)
    have harguments := dropTypeArguments_unplaced (.group opening body closing :: rest)
    rw [List.map_cons, Tree.unplaced_group] at harguments
    -- the word, together with the bracket behind it, decides what is read
    have hwords : ∀ (text : String) (kind : TokenKind),
        (decide (code.unplaced.text = text) && decide (opening.unplaced.kind = kind)) =
          (decide (code.text = text) && decide (opening.kind = kind)) := fun _ _ => rfl
    rw [List.map_cons, List.map_cons, Tree.unplaced_leaf, Tree.unplaced_group,
      read_wordGroup hkind' hfunc' hchan', read_wordGroup hkind hfunc hchan, hwords, hwords, hwords,
      hfields, harguments, hrest, hbody]
    split
    · simp only [unplaced]
    split
    · simp only [unplaced, listUnplacedFields_eq_map]
    split <;> simp only [unplaced, Code.unplaced_text]

end Word

section Leaf

variable {code : Code} {rest : List Tree}

theorem read_star (h : code.kind = .star) :
    read (.leaf code :: rest) = (.pointer (read rest).1, (read rest).2) := by
  rw [read.eq_def]
  simp only [h]

theorem read_operator (h : code.kind = .operator) : read (.leaf code :: rest) =
    if code.text = "<-" then
      (.channel (read (dropToken "chan" rest)).1, (read (dropToken "chan" rest)).2)
    else
      (.unknown code.text, rest) := by
  rw [read.eq_def]
  simp only [h]

theorem read_func (h : code.kind = .identifier) (htext : code.text = "func") :
    read (.leaf code :: rest) = (.function, []) := by
  rw [read.eq_def]
  simp only [h, htext, if_true]

theorem read_chan (h : code.kind = .identifier) (htext : code.text = "chan") :
    read (.leaf code :: rest) =
      (.channel (read (dropToken "<-" rest)).1, (read (dropToken "<-" rest)).2) := by
  rw [read.eq_def]
  simp [h, htext]

/-- No type starts with another token. -/
theorem read_leaf (hstar : code.kind ≠ .star) (hoperator : code.kind ≠ .operator)
    (hword : code.kind ≠ .identifier) : read (.leaf code :: rest) = (.unknown code.text, rest) := by
  rw [read.eq_def]
  simp only

/-- A type that starts with a token other than a word, with `func` or with `chan`. -/
theorem readsAlike_leaf (hrest : ReadsAlike rest) (hdrop : ∀ text, ReadsAlike (dropToken text rest))
    (hword : code.kind = .identifier → code.text = "func" ∨ code.text = "chan") :
    ReadsAlike (.leaf code :: rest) := by
  have hkind : code.unplaced.kind = code.kind := rfl
  have htext : code.unplaced.text = code.text := rfl
  unfold ReadsAlike at hrest hdrop ⊢
  rw [List.map_cons, Tree.unplaced_leaf]
  by_cases hstar : code.kind = .star
  · rw [read_star hstar, read_star (hkind.trans hstar), hrest]
    rfl
  by_cases hoperator : code.kind = .operator
  · rw [read_operator hoperator, read_operator (hkind.trans hoperator), dropToken_unplaced, hdrop,
      htext]
    split <;> rfl
  by_cases hidentifier : code.kind = .identifier
  · rcases hword hidentifier with hfunc | hchan
    · rw [read_func hidentifier hfunc, read_func (hkind.trans hidentifier) (htext.trans hfunc)]
      rfl
    · rw [read_chan hidentifier hchan, read_chan (hkind.trans hidentifier) (htext.trans hchan),
        dropToken_unplaced, hdrop]
      rfl
  · rw [read_leaf hstar hoperator hidentifier,
      read_leaf (hkind.trans_ne hstar) (hkind.trans_ne hoperator) (hkind.trans_ne hidentifier),
      htext]
    rfl

end Leaf

/-- A type that starts with a pair of brackets. -/
theorem readsAlike_group {opening closing : Code} {body rest : List Tree} (hbody : ReadsAlike body)
    (hrest : ReadsAlike rest) : ReadsAlike (.group opening body closing :: rest) := by
  unfold ReadsAlike at hbody hrest ⊢
  rw [List.map_cons, Tree.unplaced_group, read.eq_def,
    read.eq_def (.group opening body closing :: rest)]
  simp only [Code.unplaced_kind, Code.unplaced_text, hrest, hbody, List.isEmpty_map]
  split
  · split <;> rfl
  · rfl
  · rfl

/-- A type is read without its places as it is read with them. -/
theorem readsAlike (trees : List Tree) : ReadsAlike trees := by
  induction hn : sizeOf trees using Nat.strongRecOn generalizing trees with
  | ind n ih =>
    subst hn
    have hless : ∀ ts : List Tree, sizeOf ts < sizeOf trees → ReadsAlike ts :=
      fun ts hts => ih _ hts ts rfl
    rcases trees with _ | ⟨code | ⟨opening, body, closing⟩, rest⟩
    · simp [ReadsAlike, read, unplaced]
    · have hrest : ReadsAlike rest := hless rest (by simp only [List.cons.sizeOf_spec]; omega)
      have hdrop : ∀ text, ReadsAlike (dropToken text rest) := by
        intro text
        have hsize := sizeOf_dropToken text rest
        exact hless _ (by simp only [List.cons.sizeOf_spec]; omega)
      by_cases hword : code.kind = .identifier ∧ code.text ≠ "func" ∧ code.text ≠ "chan"
      · exact readsAlike_word hword.1 hword.2.1 hword.2.2 hless
      · exact readsAlike_leaf hrest hdrop fun hkind => by
          by_contra hnot
          exact hword ⟨hkind, not_or.1 hnot⟩
    · have hrest : ReadsAlike rest := hless rest (by simp only [List.cons.sizeOf_spec]; omega)
      have hbody : ReadsAlike body :=
        hless body (by simp only [List.cons.sizeOf_spec, Tree.group.sizeOf_spec]; omega)
      exact readsAlike_group hbody hrest

end TypeExpr

/-! ## Declarations -/

theorem toOption_bind {ε α β : Type} (x : Except ε α) (f : α → Except ε β) :
    (x >>= f).toOption = x.toOption.bind fun a => (f a).toOption := by
  cases x <;> rfl

/-- Reading all items of a list succeeds where reading each of them does. -/
theorem toOption_mapM {ε α β : Type} (f : α → Except ε β) (items : List α) :
    (items.mapM f).toOption = items.mapM fun item => (f item).toOption := by
  induction items with
  | nil => rfl
  | cons item items ih =>
    rw [List.mapM_cons, List.mapM_cons, ← ih]
    cases f item with
    | error => rfl
    | ok b => cases items.mapM f <;> rfl

theorem mapM_map_option {α β γ : Type} (f : α → Option β) (g : β → γ) (items : List α) :
    (items.mapM fun item => (f item).map g) = (items.mapM f).map (List.map g) := by
  induction items with
  | nil => rfl
  | cons item items ih =>
    rw [List.mapM_cons, List.mapM_cons, ih]
    cases f item with
    | none => rfl
    | some b => cases items.mapM f <;> rfl

theorem Import.splitName_unplaced (spec : List Tree) :
    splitName (spec.map Tree.unplaced) =
      ((splitName spec).1, (splitName spec).2.map Tree.unplaced) := by
  rcases spec with _ | ⟨code | _, spec⟩
  · rfl
  · have hcond : (decide (code.unplaced.kind = .identifier) || decide (code.unplaced.kind = .dot)) =
        (decide (code.kind = .identifier) || decide (code.kind = .dot)) := rfl
    rw [List.map_cons, Tree.unplaced_leaf, splitName, splitName, hcond]
    split <;> simp
  · rfl

theorem Import.read_unplaced (line line' : Nat) (spec : List Tree) :
    (Import.read line' (spec.map Tree.unplaced)).toOption = (Import.read line spec).toOption := by
  unfold Import.read
  rw [splitName_unplaced]
  obtain ⟨name, rest⟩ := splitName spec
  rcases rest with _ | ⟨code | _, rest⟩
  · rfl
  · by_cases h : code.kind.isString = true
    · simp [h, Except.toOption]
    · simp [h, Except.toOption]
  · rfl

theorem isTypeParameters_unplaced (trees : List Tree) :
    isTypeParameters (trees.map Tree.unplaced) = isTypeParameters trees := by
  rcases trees with _ | ⟨name | _, _ | ⟨code | ⟨opening, body, closing⟩, rest⟩⟩
  · rfl
  · rfl
  · have hany : (rest.map Tree.unplaced).any (·.isLeaf .comma) = rest.any (·.isLeaf .comma) := by
      simp [List.any_map, Function.comp_def]
    simp only [List.map_cons, Tree.unplaced_leaf, isTypeParameters, hany]
    rfl
  · simp only [List.map_cons, Tree.unplaced_group, Tree.unplaced_leaf, isTypeParameters]
    rfl
  · rfl
  · rfl
  · rfl

theorem dropTypeParameters_unplaced (trees : List Tree) :
    dropTypeParameters (trees.map Tree.unplaced) =
      (dropTypeParameters trees).map Tree.unplaced := by
  rcases trees with _ | ⟨_ | ⟨opening, body, closing⟩, trees⟩
  · rfl
  · rfl
  · have hcond :
        (decide (opening.unplaced.kind = .leftBracket) &&
            isTypeParameters (body.map Tree.unplaced)) =
          (decide (opening.kind = .leftBracket) && isTypeParameters body) := by
      rw [isTypeParameters_unplaced]
      rfl
    rw [List.map_cons, Tree.unplaced_group, dropTypeParameters, dropTypeParameters, hcond]
    split <;> simp

theorem dropEquals_unplaced (trees : List Tree) :
    dropEquals (trees.map Tree.unplaced) = (dropEquals trees).map Tree.unplaced := by
  rcases trees with _ | ⟨code | _, trees⟩
  · rfl
  · have hcond : (decide (code.unplaced.kind = .operator) && decide (code.unplaced.text = "=")) =
        (decide (code.kind = .operator) && decide (code.text = "=")) := rfl
    rw [List.map_cons, Tree.unplaced_leaf, dropEquals, dropEquals, hcond]
    split <;> simp
  · rfl

theorem TypeDecl.read_unplaced (line line' : Nat) (doc : Option CommentGroup) (spec : List Tree) :
    (TypeDecl.read line' (doc.map CommentGroup.unplaced) (spec.map Tree.unplaced)).toOption =
      (TypeDecl.read line doc spec).toOption.map TypeDecl.unplaced := by
  have htype := TypeExpr.readsAlike (dropEquals (dropTypeParameters spec.tail))
  have hname : (spec.map Tree.unplaced).head?.bind (·.leafText? .identifier) =
      spec.head?.bind (·.leafText? .identifier) := by
    cases spec <;> simp
  unfold TypeDecl.read
  rw [hname, ← List.map_tail, dropTypeParameters_unplaced, dropEquals_unplaced, htype]
  cases spec.head?.bind (·.leafText? .identifier) <;> rfl

theorem receiverName?_unplaced (body : List Tree) :
    receiverName? (body.map Tree.unplaced) = receiverName? body := by
  simp only [receiverName?]
  rw [Tree.listCodes_unplaced, List.takeWhile_map, List.filter_map, List.getLast?_map,
    Option.map_map]
  rfl

section Statement

variable {s u : Statement} (hhead : u.head = s.head.unplaced)
  (htail : u.tail = s.tail.map Tree.unplaced)
include htail

theorem Statement.body?_unplaced : u.tail.head?.bind (·.body? .leftParen) =
    (s.tail.head?.bind (·.body? .leftParen)).map (List.map Tree.unplaced) := by
  rw [htail]
  cases s.tail <;> simp

theorem Import.readAll_unplaced : (Import.readAll u).toOption = (Import.readAll s).toOption := by
  unfold Import.readAll
  rw [Statement.body?_unplaced htail]
  cases s.tail.head?.bind (·.body? .leftParen) with
  | some body =>
    simp only [Option.map_some]
    rw [toOption_mapM, toOption_mapM, Statement.split_unplaced, List.mapM_map]
    congr 1
    funext spec
    exact Import.read_unplaced _ _ spec.trees
  | none =>
    have hread := Import.read_unplaced s.lineAfterHead u.lineAfterHead s.tail
    rw [← htail] at hread
    simp only [Option.map_none]
    rw [toOption_bind, toOption_bind, hread]

include hhead

theorem TypeDecl.readAll_unplaced :
    (TypeDecl.readAll u).toOption =
      (TypeDecl.readAll s).toOption.map (List.map TypeDecl.unplaced) := by
  unfold TypeDecl.readAll
  rw [Statement.body?_unplaced htail]
  cases s.tail.head?.bind (·.body? .leftParen) with
  | some body =>
    simp only [Option.map_some]
    rw [toOption_mapM, toOption_mapM, Statement.split_unplaced, List.mapM_map, ← mapM_map_option]
    congr 1
    funext spec
    have hread := TypeDecl.read_unplaced spec.head.first.line spec.unplaced.head.first.line
      spec.head.first.doc spec.trees
    rw [← hread]
    simp [Statement.unplaced, Statement.trees]
  | none =>
    have hread := TypeDecl.read_unplaced s.lineAfterHead u.lineAfterHead s.head.first.doc s.tail
    have hdoc : u.head.first.doc = s.head.first.doc.map CommentGroup.unplaced := by
      rw [hhead, Tree.unplaced_first, Code.unplaced_doc]
    rw [← htail, ← hdoc] at hread
    simp only [Option.map_none]
    rw [toOption_bind, toOption_bind, hread]
    cases (TypeDecl.read s.lineAfterHead s.head.first.doc s.tail).toOption <;> rfl

theorem FuncDecl.read?_unplaced : FuncDecl.read? u = (FuncDecl.read? s).map FuncDecl.unplaced := by
  have hdoc : u.head.first.doc = s.head.first.doc.map CommentGroup.unplaced := by
    rw [hhead, Tree.unplaced_first, Code.unplaced_doc]
  simp only [FuncDecl.read?]
  rw [Statement.body?_unplaced htail, hdoc, htail]
  cases s.tail with
  | nil => rfl
  | cons t ts =>
    cases hbody : t.body? .leftParen with
    | none =>
      simp only [List.map_cons, List.head?_cons, Option.bind_some, Tree.unplaced_leafText?, hbody,
        Option.map_none, Option.map_map]
      rfl
    | some body =>
      cases ts with
      | nil => simp [hbody]
      | cons name ts =>
        simp only [List.map_cons, List.tail_cons, List.head?_cons, Option.bind_some,
          Tree.unplaced_leafText?, hbody, receiverName?_unplaced, Option.map_some, Option.map_map]
        rfl

/-- What a statement adds does not depend on places, nor on what follows the statement. -/
theorem Declarations.add_unplaced (d : Declarations) :
    (d.unplaced.add u).toOption = (d.add s).toOption.map Declarations.unplaced := by
  have himports := Import.readAll_unplaced htail
  have htypes := TypeDecl.readAll_unplaced hhead htail
  have hfunc := FuncDecl.read?_unplaced hhead htail
  have hname : u.tail.head?.bind (·.leafText? .identifier) =
      s.tail.head?.bind (·.leafText? .identifier) := by
    rw [htail]
    cases s.tail <;> simp
  unfold Declarations.add
  rw [hhead, Tree.unplaced_leafText?]
  split
  · simp only [hname]
    rfl
  · rw [toOption_bind, toOption_bind, himports]
    cases (Import.readAll s).toOption <;> rfl
  · rw [toOption_bind, toOption_bind, htypes]
    cases (TypeDecl.readAll s).toOption with
    | none => rfl
    | some types => simp [Declarations.unplaced, Except.toOption, pure, Except.pure]
  · rw [hfunc]
    cases FuncDecl.read? s <;> simp [Declarations.unplaced, Except.toOption]
  · rfl

end Statement

/-! ## Layout and bracket trees -/

/-- The group without its lines. -/
def Layout.OpenGroup.unplaced (pending : OpenGroup) : OpenGroup :=
  { pending with group := pending.group.unplaced }

/-- The state without the lines of its comments. -/
def Layout.State.unplaced (s : State) : State :=
  { s with pending := s.pending.map OpenGroup.unplaced }

/-- A test that does not look at places chooses alike. -/
theorem Layout.filter_unplaced {pending pending' : Option OpenGroup} (p : OpenGroup → Bool)
    (hp : ∀ g : OpenGroup, p g.unplaced = p g)
    (h : pending.map OpenGroup.unplaced = pending'.map OpenGroup.unplaced) :
    (pending.filter p).map OpenGroup.unplaced = (pending'.filter p).map OpenGroup.unplaced := by
  have hfilter : ∀ pending : Option OpenGroup,
      (pending.filter p).map OpenGroup.unplaced = (pending.map OpenGroup.unplaced).filter p := by
    intro pending
    cases pending with
    | none => rfl
    | some g => by_cases hg : p g = true <;> simp [Option.filter, hp, hg]
  rw [hfilter, hfilter, h]

/-- Tokens of the same forms are laid out as the same code, up to places. -/
theorem Layout.read_code_unplaced {s s' : State} (hs : s.unplaced = s'.unplaced)
    {tokens tokens' : List Token} (h : tokens.map Token.form = tokens'.map Token.form) :
    (read s tokens).code.map Code.unplaced = (read s' tokens').code.map Code.unplaced := by
  induction tokens generalizing tokens' s s' with
  | nil =>
    rw [List.map_nil, List.nil_eq, List.map_eq_nil_iff] at h
    rw [h, read, read]
  | cons token tokens ih =>
    cases tokens' with
    | nil => simp at h
    | cons token' tokens' =>
      simp only [List.map_cons, List.cons.injEq, Token.form, Form.mk.injEq] at h
      obtain ⟨⟨hkind, htext⟩, hrest⟩ := h
      obtain ⟨pending, sinceComment, sinceCode, seenCode⟩ := s
      obtain ⟨pending', sinceComment', sinceCode', seenCode'⟩ := s'
      simp only [State.unplaced, State.mk.injEq] at hs
      obtain ⟨hpending, rfl, rfl, rfl⟩ := hs
      have hinner : innerNewlines token = innerNewlines token' := by
        rw [innerNewlines, innerNewlines, htext]
      rw [read, read, hkind, hinner]
      split
      · exact ih (by simp [State.unplaced, hpending]) hrest
      split
      · have hadmits := filter_unplaced (·.admits sinceComment) (fun _ => rfl) hpending
        simp only
        cases hfilter : pending.filter (·.admits sinceComment) with
        | none =>
          cases hfilter' : pending'.filter (·.admits sinceComment) with
          | none =>
            refine ih ?_ hrest
            simp [State.unplaced, OpenGroup.unplaced, CommentGroup.unplaced, htext]
          | some g' => simp [hfilter, hfilter'] at hadmits
        | some g =>
          cases hfilter' : pending'.filter (·.admits sinceComment) with
          | none => simp [hfilter, hfilter'] at hadmits
          | some g' =>
            refine ih ?_ hrest
            simp only [hfilter, hfilter', Option.map_some, Option.some.injEq, OpenGroup.unplaced,
              CommentGroup.unplaced, OpenGroup.mk.injEq, CommentGroup.mk.injEq] at hadmits
            simp [State.unplaced, OpenGroup.unplaced, CommentGroup.unplaced, hadmits, htext]
      · have hdoc := congrArg (Option.map OpenGroup.group) (filter_unplaced
          (fun p => !p.trailing && decide (sinceComment = 1)) (fun _ => rfl) hpending)
        have hcode := ih (rfl : State.unplaced { seenCode := true } = _) hrest
        simp only [Option.map_map] at hdoc
        simp only [List.map_cons, Code.unplaced, hkind, htext, Option.map_map, List.cons.injEq,
          Code.mk.injEq, true_and]
        exact ⟨hdoc, hcode⟩

namespace Tree

theorem build_unexpected {code : Code} (hopening : code.kind.isOpening = false)
    (h : code.kind.isClosing = true) (level : List Tree) (rest : List Code) :
    build [] level (code :: rest) = .error (.unexpected code) := by
  rw [build.eq_def]
  simp [hopening, h]

theorem build_unplaced (frames : List Frame) (level : List Tree) (codes : List Code) :
    (build (frames.map fun frame => (frame.1.unplaced, frame.2.map unplaced)) (level.map unplaced)
        (codes.map Code.unplaced)).toOption =
      (build frames level codes).toOption.map (List.map unplaced) := by
  induction codes generalizing frames level with
  | nil =>
    rw [List.map_nil, build, build, List.getLast?_map]
    cases frames.getLast? with
    | none => simp [Except.toOption]
    | some frame => rfl
  | cons code codes ih =>
    rw [List.map_cons]
    cases hopening : code.kind.isOpening with
    | true =>
      have hopening' : code.unplaced.kind.isOpening = true := hopening
      rw [build_opening _ _ _ hopening, build_opening _ _ _ hopening']
      exact ih ((code, level) :: frames) []
    | false =>
      have hopening' : code.unplaced.kind.isOpening = false := hopening
      cases hclosing : code.kind.isClosing with
      | true =>
        have hclosing' : code.unplaced.kind.isClosing = true := hclosing
        rcases frames with _ | ⟨⟨opening, before⟩, frames⟩
        · rw [List.map_nil, build_unexpected hopening hclosing,
            build_unexpected hopening' hclosing']
          rfl
        · have hgroup := ih frames (group opening level.reverse code :: before)
          rw [List.map_cons, build_closing _ _ _ hopening hclosing,
            build_closing _ _ _ hopening' hclosing', ← hgroup]
          simp
      | false =>
        have hclosing' : code.unplaced.kind.isClosing = false := hclosing
        rw [build_leaf _ _ _ hopening hclosing, build_leaf _ _ _ hopening' hclosing']
        exact ih frames (leaf code :: level)

theorem ofCode_unplaced (codes : List Code) :
    (ofCode (codes.map Code.unplaced)).toOption = (ofCode codes).toOption.map (List.map unplaced) :=
  build_unplaced [] [] codes

end Tree

/-! ## Units -/

theorem Declarations.foldlM_add_unplaced (statements : List Statement) (d : Declarations) :
    ((statements.map Statement.unplaced).foldlM add d.unplaced).toOption =
      (statements.foldlM add d).toOption.map unplaced := by
  induction statements generalizing d with
  | nil => rfl
  | cons s statements ih =>
    have hadd : (d.unplaced.add s.unplaced).toOption = (d.add s).toOption.map unplaced :=
      add_unplaced rfl rfl d
    rw [List.map_cons, List.foldlM_cons, List.foldlM_cons, toOption_bind, toOption_bind, hadd]
    cases (d.add s).toOption with
    | none => rfl
    | some d' => exact ih d'

namespace SourceUnit

/-- What the unit declares, its path and its comments apart. -/
def declarations (unit : SourceUnit) : Declarations where
  package := some unit.package
  imports := unit.imports
  types := unit.types
  functions := unit.functions

/-- What bracket trees declare, if their statements can be read and name a package. -/
def declared (trees : List Tree) : Option Declarations :=
  ((Statement.split trees).foldlM Declarations.add {}).toOption.filter (·.package.isSome)

theorem declared_unplaced (trees : List Tree) :
    declared (trees.map Tree.unplaced) = (declared trees).map Declarations.unplaced := by
  have hfold :
      (((Statement.split trees).map Statement.unplaced).foldlM Declarations.add {}).toOption =
        ((Statement.split trees).foldlM Declarations.add {}).toOption.map Declarations.unplaced :=
    Declarations.foldlM_add_unplaced (Statement.split trees) {}
  rw [declared, declared, Statement.split_unplaced, hfold]
  cases ((Statement.split trees).foldlM Declarations.add {}).toOption with
  | none => rfl
  | some d => cases hpackage : d.package <;> simp [Declarations.unplaced, Option.filter, hpackage]

/-- Tokens declare what their bracket trees do. -/
theorem declarations_ofTokens (path : String) (tokens : List Token) :
    (ofTokens path tokens).toOption.map declarations =
      (Tree.ofCode (Layout.ofTokens tokens).code).toOption.bind declared := by
  rw [ofTokens, toOption_bind, topLevel]
  cases Tree.ofCode (Layout.ofTokens tokens).code with
  | error e => cases e <;> rfl
  | ok trees =>
    simp only [Except.toOption, Option.bind_some, declared]
    cases (Statement.split trees).foldlM Declarations.add {} with
    | error e => rfl
    | ok d =>
      obtain ⟨package, imports, types, functions⟩ := d
      cases package <;> rfl

/-- Tokens of the same forms declare the same, up to places. -/
theorem declarations_of_forms (path : String) {tokens tokens' : List Token}
    (h : tokens.map Token.form = tokens'.map Token.form) :
    (ofTokens path tokens).toOption.map (·.declarations.unplaced) =
      (ofTokens path tokens').toOption.map (·.declarations.unplaced) := by
  have hdeclared : ∀ tokens, (ofTokens path tokens).toOption.map (·.declarations.unplaced) =
      (Tree.ofCode ((Layout.ofTokens tokens).code.map Code.unplaced)).toOption.bind declared := by
    intro tokens
    have hmap : (ofTokens path tokens).toOption.map (·.declarations.unplaced) =
        ((ofTokens path tokens).toOption.map declarations).map Declarations.unplaced := by
      rw [Option.map_map]
      rfl
    rw [hmap, declarations_ofTokens, Tree.ofCode_unplaced]
    cases (Tree.ofCode (Layout.ofTokens tokens).code).toOption with
    | none => rfl
    | some trees => exact (declared_unplaced trees).symm
  have hcode : (Layout.ofTokens tokens).code.map Code.unplaced =
      (Layout.ofTokens tokens').code.map Code.unplaced := Layout.read_code_unplaced rfl h
  rw [hdeclared, hdeclared, hcode]

end SourceUnit
end ApiDocs.Source
