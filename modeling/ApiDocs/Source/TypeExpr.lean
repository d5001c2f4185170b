/-
  ApiDocs.Source.TypeExpr

  Type expressions and struct fields, as far as they can be told apart without type
  checking, and reading them from bracket trees. Reading is total: what is no type is
  kept as an unknown.
-/

import ApiDocs.Source.Literal
import ApiDocs.Source.Statement
import ApiDocs.Source.Tag

namespace ApiDocs.Source

/-- One field line of a struct. A line without names embeds its type. -/
structure FieldOf (type : Type) where
  names : List String
  type : type
  /-- The tag's text without its quotes. -/
  tag : Option String
  doc : Option CommentGroup

/-- A type as written. -/
inductive TypeExpr where
  /-- A name, perhaps qualified; type arguments are not kept. -/
  | named (qualifier : Option String) (name : String)
  | pointer (target : TypeExpr)
  | slice (element : TypeExpr)
  | array (element : TypeExpr)
  | map (key value : TypeExpr)
  | channel (element : TypeExpr)
  | struct (fields : List (FieldOf TypeExpr))
  | interface
  | function
  | unknown (text : String)
  deriving Inhabited

/-- A field line of a struct type. -/
abbrev Field := FieldOf TypeExpr

namespace FieldOf

/-- The field embeds its type. -/
def isEmbedded {type : Type} (field : FieldOf type) : Bool :=
  field.names.isEmpty

/-- The value of one key of the field's tag. -/
def tagValue? {type : Type} (field : FieldOf type) (key : String) : Option String :=
  field.tag.bind (Tag.value? · key)

end FieldOf

/-! ## Parts of a field line -/

/-- The tag that ends a field line, and the line without it. -/
def splitTag (line : List Tree) : Option String × List Tree :=
  match line.getLast? with
  | some (.leaf code) =>
    if code.kind.isString then
      (some (String.ofList (unquote code.text.toList)), line.dropLast)
    else
      (none, line)
  | _ => (none, line)

/-- The line embeds its type: it starts with a star, or is one name, plain or qualified. -/
def embeds : List Tree → Bool
  | [.leaf a] => a.kind = .star || a.kind = .identifier
  | [.leaf a, .leaf b, .leaf _] =>
    a.kind = .star || (a.kind = .identifier && b.kind = .dot)
  | .leaf a :: _ => a.kind = .star
  | _ => false

/-- The comma-separated names that a line starts with, and what follows them. -/
def leadingNames : List Tree → List String × List Tree
  | .leaf a :: rest =>
    if a.kind = .identifier then
      match rest with
      | .leaf b :: after =>
        if b.kind = .comma then
          let (names, type) := leadingNames after
          (a.text :: names, type)
        else
          ([a.text], rest)
      | _ => ([a.text], rest)
    else
      ([], .leaf a :: rest)
  | trees => ([], trees)

/-- The trees without a leading token of this text. -/
def dropToken (text : String) : List Tree → List Tree
  | .leaf code :: rest => if code.text = text then rest else .leaf code :: rest
  | trees => trees

theorem sizeOf_dropToken (text : String) (trees : List Tree) :
    sizeOf (dropToken text trees) ≤ sizeOf trees := by
  unfold dropToken
  split
  · split
    · simp only [List.cons.sizeOf_spec]
      omega
    · exact Nat.le_refl _
  · exact Nat.le_refl _

/-- The trees without a bracket pair that follows on the same line. -/
def dropTypeArguments : List Tree → List Tree
  | .group opening body closing :: rest =>
    if opening.kind = .leftBracket && !opening.newlineBefore then
      rest
    else
      .group opening body closing :: rest
  | trees => trees

/-- A type name, qualified if a dot and a further identifier follow, and what is left. -/
def readName (name : String) : List Tree → TypeExpr × List Tree
  | .leaf dot :: .leaf member :: rest =>
    if dot.kind = .dot && member.kind = .identifier then
      (.named (some name) member.text, dropTypeArguments rest)
    else
      (.named none name, .leaf dot :: .leaf member :: rest)
  | rest => (.named none name, dropTypeArguments rest)

theorem sizeOf_splitTag (line : List Tree) : sizeOf (splitTag line).2 ≤ sizeOf line := by
  have hdrop : ∀ l : List Tree, sizeOf l.dropLast ≤ sizeOf l := by
    intro l
    induction l with
    | nil => simp
    | cons t ts ih =>
      cases ts with
      | nil => simp
      | cons u us =>
        simp only [List.dropLast_cons_cons, List.cons.sizeOf_spec] at ih ⊢
        omega
  unfold splitTag
  split
  · split
    · exact hdrop line
    · exact Nat.le_refl _
  · exact Nat.le_refl _

theorem sizeOf_leadingNames (line : List Tree) : sizeOf (leadingNames line).2 ≤ sizeOf line := by
  fun_induction leadingNames line with
  | case1 a b after _ _ ih =>
    simp_all only [List.cons.sizeOf_spec]
    omega
  | case2 => simp only [List.cons.sizeOf_spec]; omega
  | case3 => simp only [List.cons.sizeOf_spec]; omega
  | case4 => exact Nat.le_refl _
  | case5 => exact Nat.le_refl _

/-! ## Types -/

namespace TypeExpr

mutual

/-- The type at the head of a list of trees, and the trees after it. -/
def read (trees : List Tree) : TypeExpr × List Tree :=
  match trees with
  | [] => (.unknown "", [])
  | .group opening body _ :: rest =>
    match opening.kind with
    | .leftBracket =>
      let (element, after) := read rest
      (if body.isEmpty then .slice element else .array element, after)
    | .leftParen => ((read body).1, rest)
    | _ => (.unknown opening.text, rest)
  | .leaf code :: rest =>
    match code.kind with
    | .star =>
      let (target, after) := read rest
      (.pointer target, after)
    | .operator =>
      if code.text = "<-" then
        let (element, after) := read (dropToken "chan" rest)
        (.channel element, after)
      else
        (.unknown code.text, rest)
    | .identifier =>
      if code.text = "func" then
        (.function, [])
      else if code.text = "chan" then
        let (element, after) := read (dropToken "<-" rest)
        (.channel element, after)
      else
        match rest with
        | .group opening body closing :: after =>
          if code.text = "map" && opening.kind = .leftBracket then
            let (value, after) := read after
            (.map (read body).1 value, after)
          else if code.text = "struct" && opening.kind = .leftBrace then
            (.struct (readFields body), after)
          else if code.text = "interface" && opening.kind = .leftBrace then
            (.interface, after)
          else
            (.named none code.text, dropTypeArguments (.group opening body closing :: after))
        | rest => readName code.text rest
    | _ => (.unknown code.text, rest)
termination_by 2 * sizeOf trees
decreasing_by
  all_goals
    simp_all only [List.cons.sizeOf_spec, Tree.group.sizeOf_spec]
    grind [sizeOf_dropToken]

/-- The field lines inside the braces of a struct type. A line that is only a tag is none. -/
def readFields (body : List Tree) : List Field :=
  (Statement.split body).attach.filterMap fun ⟨s, _⟩ =>
    let tag := (splitTag s.trees).1
    let line := (splitTag s.trees).2
    let doc := s.head.first.doc
    if line.isEmpty then
      none
    else if embeds line then
      some { names := [], type := (read line).1, tag, doc }
    else
      some { names := (leadingNames line).1, type := (read (leadingNames line).2).1, tag, doc }
termination_by 2 * sizeOf body + 1
decreasing_by
  all_goals
    have hs : sizeOf s.trees ≤ sizeOf body := Statement.sizeOf_of_mem_split (by assumption)
    have ht := sizeOf_splitTag s.trees
    have hn := sizeOf_leadingNames (splitTag s.trees).2
    omega

end

end TypeExpr
end ApiDocs.Source
