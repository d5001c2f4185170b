/-
  ApiDocs.Source.Layout

  The code tokens of a source text with the facts about its layout that reading
  declarations needs: where lines end, and which comment group documents which token.
  Comments themselves are gathered into groups. Line ends are counted without a bound, for
  texts of fewer than 2^32 lines.
-/

import ApiDocs.Source.Comment
import ApiDocs.Source.Token

namespace ApiDocs.Source

/-- A token that is neither a newline nor a comment. -/
structure Code extends Token where
  /-- A line ends between the code token before this one and this one. -/
  newlineBefore : Bool
  /-- The comment group right above the token. -/
  doc : Option CommentGroup
  deriving DecidableEq, Repr, Inhabited

/-- A source text taken apart into code and comment groups, each in source order. -/
structure Layout where
  code : List Code
  groups : List CommentGroup
  deriving DecidableEq, Repr

namespace Layout

/-- A comment group that may still grow. It is trailing when its first comment stands
behind code on the same line. -/
structure OpenGroup where
  group : CommentGroup
  trailing : Bool

/-- What is known about the tokens read so far. -/
structure State where
  /-- The comment group that the last comment belongs to, if no code followed it. -/
  pending : Option OpenGroup := none
  /-- Line ends since the last comment or code token. -/
  sinceComment : Nat := 0
  /-- Line ends since the last code token, those inside comments included. -/
  sinceCode : Nat := 0
  /-- Some code token was read. -/
  seenCode : Bool := false

/-- A comment joins the pending group on the same line, or, unless the group is
trailing, from the next line. -/
def OpenGroup.admits (pending : OpenGroup) (sinceComment : Nat) : Bool :=
  sinceComment = 0 || (sinceComment = 1 && !pending.trailing)

/-- Line ends inside the text of a token. -/
def innerNewlines (token : Token) : Nat :=
  token.text.toList.count '\n'

/-- The layout of the remaining tokens. -/
def read (s : State) : List Token → Layout
  | [] => ⟨[], (s.pending.map (·.group)).toList⟩
  | token :: tokens =>
    if token.kind = .newline then
      read { s with sinceComment := s.sinceComment + 1, sinceCode := s.sinceCode + 1 } tokens
    else if token.kind.isComment then
      let endLine := token.line + innerNewlines token
      let sinceCode := s.sinceCode + innerNewlines token
      match s.pending.filter (·.admits s.sinceComment) with
      | some { group, trailing } =>
        let grown := { group with endLine, comments := group.comments ++ [token.text] }
        read { s with pending := some { group := grown, trailing }, sinceComment := 0, sinceCode } tokens
      | none =>
        let opened : OpenGroup :=
          { group := ⟨token.line, endLine, [token.text]⟩,
            trailing := s.sinceCode = 0 && s.seenCode }
        let layout := read { s with pending := some opened, sinceComment := 0, sinceCode } tokens
        { layout with groups := (s.pending.map (·.group)).toList ++ layout.groups }
    else
      -- A group documents the token on the line right below it.
      let doc := s.pending.filter fun p => !p.trailing && s.sinceComment = 1
      let layout := read { seenCode := true } tokens
      { code := { token with newlineBefore := 0 < s.sinceCode, doc := doc.map (·.group) } :: layout.code,
        groups := (s.pending.map (·.group)).toList ++ layout.groups }

/-- The layout of a token list. -/
def ofTokens (tokens : List Token) : Layout :=
  read {} tokens

end Layout
end ApiDocs.Source
