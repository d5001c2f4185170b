/-
  ApiDocs.Proofs.Source.Rendering

  How types are written. `Written` relates a type, or a field line of a struct, to the forms of
  its tokens, in all the ways that differ in array lengths and in the breaks between field lines
  only. A type that is `Renderable` has names that are identifiers, tags without a backquote, and
  embedded fields of named and pointer types only; each such type is written in some way
  (`Renderable.exists_written`).
-/

import ApiDocs.Proofs.Source.Trees
import ApiDocs.Source.TypeExpr

namespace ApiDocs.Source

/-- The words that types of other kinds start with. -/
def typeWords : List String :=
  ["map", "chan", "struct", "interface", "func"]

/-- The text may name a type or qualify its name. -/
def IsTypeName (text : String) : Prop :=
  isIdentifier text = true ∧ text ∉ typeWords

instance (text : String) : Decidable (IsTypeName text) :=
  inferInstanceAs (Decidable (_ ∧ _))

/-- A type that a field line without names may have. -/
def TypeExpr.isEmbeddable : TypeExpr → Bool
  | .named .. | .pointer _ => true
  | _ => false

/-! ## Syntax -/

/-- What is written: a type, or a field line of a struct. -/
inductive Phrase where
  | type (type : TypeExpr)
  | field (field : Field)

/-- The names of a field line, with commas between them. -/
def nameForms (first : String) (others : List String) : List Form :=
  .word first :: others.flatMap fun name => [.sign .comma ',', .word name]

/-- The tag of a field line. -/
def tagForms (tag : Option String) : List Form :=
  (tag.map Form.raw).toList

/-- The phrase is written with these forms. -/
inductive Written : Phrase → List Form → Prop where
  | named {name : String} (h : IsTypeName name) : Written (.type (.named none name)) [.word name]
  | qualified {qualifier name : String} (hqualifier : IsTypeName qualifier) (h : IsTypeName name) :
      Written (.type (.named (some qualifier) name)) [.word qualifier, .sign .dot '.', .word name]
  | pointer {type : TypeExpr} {forms : List Form} (h : Written (.type type) forms) :
      Written (.type (.pointer type)) (.sign .star '*' :: forms)
  | slice {type : TypeExpr} {forms : List Form} (h : Written (.type type) forms) :
      Written (.type (.slice type)) (.sign .leftBracket '[' :: .sign .rightBracket ']' :: forms)
  | array {type : TypeExpr} {forms : List Form} (length : String) (h : Written (.type type) forms) :
      Written (.type (.array type))
        (.sign .leftBracket '[' :: .number length :: .sign .rightBracket ']' :: forms)
  | map {key value : TypeExpr} {forms forms' : List Form} (hkey : Written (.type key) forms)
      (hvalue : Written (.type value) forms') :
      Written (.type (.map key value))
        (.word "map" :: .sign .leftBracket '[' :: (forms ++ .sign .rightBracket ']' :: forms'))
  | channel {type : TypeExpr} {forms : List Form} (h : Written (.type type) forms) :
      Written (.type (.channel type)) (.word "chan" :: forms)
  | function : Written (.type .function) [.word "func", .sign .leftParen '(', .sign .rightParen ')']
  | interface :
      Written (.type .interface) [.word "interface", .sign .leftBrace '{', .sign .rightBrace '}']
  | struct {lines : List (Field × List Form)} {forms : List Form}
      (h : ∀ line ∈ lines, Written (.field line.1) line.2) (hlines : Lines (lines.map Prod.snd) forms) :
      Written (.type (.struct (lines.map Prod.fst)))
        (.word "struct" :: .sign .leftBrace '{' :: (forms ++ [.sign .rightBrace '}']))
  | embedded {type : TypeExpr} {forms : List Form} (tag : Option String)
      (h : Written (.type type) forms) (htype : type.isEmbeddable = true) :
      Written (.field ⟨[], type, tag, none⟩) (forms ++ tagForms tag)
  | line {type : TypeExpr} {forms : List Form} (first : String) (others : List String)
      (tag : Option String) (h : Written (.type type) forms) :
      Written (.field ⟨first :: others, type, tag, none⟩)
        (nameForms first others ++ forms ++ tagForms tag)

/-! ## Types that can be written -/

/-- The names and the tag of a field line can be written, and so can its having no names. -/
structure FieldOf.Plain (field : Field) : Prop where
  names : ∀ name ∈ field.names, isIdentifier name = true
  embedded : field.names = [] → field.type.isEmbeddable = true
  tag : ∀ tag ∈ field.tag, backquote ∉ tag.toList
  doc : field.doc = none

instance (field : Field) : Decidable field.Plain :=
  decidable_of_iff ((∀ name ∈ field.names, isIdentifier name = true) ∧
      (field.names = [] → field.type.isEmbeddable = true) ∧
      (∀ tag ∈ field.tag, backquote ∉ tag.toList) ∧ field.doc = none)
    ⟨fun h => ⟨h.1, h.2.1, h.2.2.1, h.2.2.2⟩, fun h => ⟨h.names, h.embedded, h.tag, h.doc⟩⟩

/-- The type can be written. -/
inductive Renderable : TypeExpr → Prop where
  | named {name : String} (h : IsTypeName name) : Renderable (.named none name)
  | qualified {qualifier name : String} (hqualifier : IsTypeName qualifier) (h : IsTypeName name) :
      Renderable (.named (some qualifier) name)
  | pointer {type : TypeExpr} (h : Renderable type) : Renderable (.pointer type)
  | slice {type : TypeExpr} (h : Renderable type) : Renderable (.slice type)
  | array {type : TypeExpr} (h : Renderable type) : Renderable (.array type)
  | map {key value : TypeExpr} (hkey : Renderable key) (hvalue : Renderable value) :
      Renderable (.map key value)
  | channel {type : TypeExpr} (h : Renderable type) : Renderable (.channel type)
  | function : Renderable .function
  | interface : Renderable .interface
  | struct {fields : List Field} (hplain : ∀ field ∈ fields, field.Plain)
      (h : ∀ field ∈ fields, Renderable field.type) : Renderable (.struct fields)

/-- The phrase is written with lexical forms in some way. -/
def HasForms (phrase : Phrase) : Prop :=
  ∃ forms, Written phrase forms ∧ ∀ form ∈ forms, form.Lexical

theorem lexical_tagForms {tag : Option String} (h : ∀ content ∈ tag, backquote ∉ content.toList) :
    ∀ form ∈ tagForms tag, form.Lexical := by
  cases tag with
  | none => simp [tagForms]
  | some content => simpa [tagForms] using Form.Lexical.raw (h content rfl)

theorem lexical_nameForms {first : String} {others : List String} (hfirst : isIdentifier first = true)
    (hothers : ∀ name ∈ others, isIdentifier name = true) :
    ∀ form ∈ nameForms first others, form.Lexical := by
  intro form hform
  rcases List.mem_cons.1 hform with rfl | hform
  · exact .word hfirst
  · obtain ⟨name, hname, hform⟩ := List.mem_flatMap.1 hform
    rcases List.mem_cons.1 hform with rfl | hform
    · exact .sign rfl
    · rw [List.mem_singleton.1 hform]
      exact .word (hothers name hname)

/-- A plain field line whose type is written. -/
theorem HasForms.field {field : Field} (hplain : field.Plain) (h : HasForms (.type field.type)) :
    HasForms (.field field) := by
  obtain ⟨forms, hwritten, hlexical⟩ := h
  obtain ⟨names, type, tag, doc⟩ := field
  obtain rfl : doc = none := hplain.doc
  have htag := lexical_tagForms hplain.tag
  cases names with
  | nil =>
    exact ⟨_, .embedded tag hwritten (hplain.embedded rfl), List.forall_mem_append.2 ⟨hlexical, htag⟩⟩
  | cons first others =>
    obtain ⟨hfirst, hothers⟩ := List.forall_mem_cons.1 hplain.names
    have hnames := lexical_nameForms hfirst hothers
    exact ⟨_, .line first others tag hwritten,
      List.forall_mem_append.2 ⟨List.forall_mem_append.2 ⟨hnames, hlexical⟩, htag⟩⟩

/-- Field lines that can be written one by one can be written with line ends behind them. -/
theorem exists_lines {fields : List Field} (h : ∀ field ∈ fields, HasForms (.field field)) :
    ∃ (lines : List (Field × List Form)) (forms : List Form), lines.map Prod.fst = fields ∧
      (∀ line ∈ lines, Written (.field line.1) line.2) ∧ Lines (lines.map Prod.snd) forms ∧
      ∀ form ∈ forms, form.Lexical := by
  induction fields with
  | nil => exact ⟨[], [], rfl, by simp, .nil, by simp⟩
  | cons field fields ih =>
    obtain ⟨⟨line, hline, hlexical⟩, hfields⟩ := List.forall_mem_cons.1 h
    obtain ⟨lines, forms, rfl, hlines, hbreaks, hforms⟩ := ih hfields
    refine ⟨(field, line) :: lines, line ++ .sign .newline '\n' :: forms, rfl,
      List.forall_mem_cons.2 ⟨hline, hlines⟩, .cons line (.inl rfl) hbreaks, ?_⟩
    exact List.forall_mem_append.2 ⟨hlexical, List.forall_mem_cons.2 ⟨.sign rfl, hforms⟩⟩

/-- Every renderable type is written in some way. -/
theorem Renderable.exists_written {type : TypeExpr} (h : Renderable type) : HasForms (.type type) := by
  induction h with
  | named h => exact ⟨_, .named h, by simpa using Form.Lexical.word h.1⟩
  | qualified hqualifier h =>
    exact ⟨_, .qualified hqualifier h,
      by simpa using ⟨Form.Lexical.word hqualifier.1, Form.Lexical.dot, Form.Lexical.word h.1⟩⟩
  | pointer _ ih =>
    obtain ⟨forms, hwritten, hlexical⟩ := ih
    exact ⟨_, .pointer hwritten, List.forall_mem_cons.2 ⟨.sign rfl, hlexical⟩⟩
  | slice _ ih =>
    obtain ⟨forms, hwritten, hlexical⟩ := ih
    exact ⟨_, .slice hwritten,
      List.forall_mem_cons.2 ⟨.sign rfl, List.forall_mem_cons.2 ⟨.sign rfl, hlexical⟩⟩⟩
  | array _ ih =>
    obtain ⟨forms, hwritten, hlexical⟩ := ih
    have hzero : (Form.number "0").Lexical := .number (.digit (by decide) .nil)
    exact ⟨_, .array "0" hwritten, List.forall_mem_cons.2 ⟨.sign rfl,
      List.forall_mem_cons.2 ⟨hzero, List.forall_mem_cons.2 ⟨.sign rfl, hlexical⟩⟩⟩⟩
  | map _ _ ihkey ihvalue =>
    obtain ⟨forms, hkey, hlexical⟩ := ihkey
    obtain ⟨forms', hvalue, hlexical'⟩ := ihvalue
    refine ⟨_, .map hkey hvalue, List.forall_mem_cons.2 ⟨.word (by decide),
      List.forall_mem_cons.2 ⟨.sign rfl, List.forall_mem_append.2 ⟨hlexical, ?_⟩⟩⟩⟩
    exact List.forall_mem_cons.2 ⟨.sign rfl, hlexical'⟩
  | channel _ ih =>
    obtain ⟨forms, hwritten, hlexical⟩ := ih
    exact ⟨_, .channel hwritten, List.forall_mem_cons.2 ⟨.word (by decide), hlexical⟩⟩
  | function =>
    have hword : (Form.word "func").Lexical := .word (by decide)
    exact ⟨_, .function, by simpa using ⟨hword, .sign rfl, .sign rfl⟩⟩
  | interface =>
    have hword : (Form.word "interface").Lexical := .word (by decide)
    exact ⟨_, .interface, by simpa using ⟨hword, .sign rfl, .sign rfl⟩⟩
  | struct hplain _ ih =>
    have hfields := fun field hfield => HasForms.field (hplain field hfield) (ih field hfield)
    obtain ⟨lines, forms, rfl, hlines, hbreaks, hlexical⟩ := exists_lines hfields
    refine ⟨_, .struct hlines hbreaks, List.forall_mem_cons.2 ⟨.word (by decide),
      List.forall_mem_cons.2 ⟨.sign rfl, List.forall_mem_append.2 ⟨hlexical, ?_⟩⟩⟩⟩
    simpa using Form.Lexical.sign rfl

end ApiDocs.Source
