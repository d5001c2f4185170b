/-
  ApiDocs.Source.Token

  Tokens of a Go source text. Only the lexical structure matters: keywords are
  identifiers, and all operators share one kind. Newlines and comments are tokens
  too, because statement ends and documentation depend on them.

  Lines are counted without a bound. A counter of 32 bits gives the same for every text of
  fewer than 2^32 lines, and longer texts are left out.
-/

namespace ApiDocs.Source

/-- What a token is. -/
inductive TokenKind where
  | newline
  | lineComment
  | blockComment
  | identifier
  | number
  | string
  | rawString
  | rune
  | leftParen
  | rightParen
  | leftBracket
  | rightBracket
  | leftBrace
  | rightBrace
  | comma
  | semicolon
  | dot
  | ellipsis
  | star
  | operator
  deriving DecidableEq, Repr, Inhabited

namespace TokenKind

/-- Interpreted and raw string literals. -/
def isString : TokenKind → Bool
  | string | rawString => true
  | _ => false

/-- Line and block comments. -/
def isComment : TokenKind → Bool
  | lineComment | blockComment => true
  | _ => false

/-- An opening parenthesis, bracket or brace. -/
def isOpening : TokenKind → Bool
  | leftParen | leftBracket | leftBrace => true
  | _ => false

/-- A closing parenthesis, bracket or brace. -/
def isClosing : TokenKind → Bool
  | rightParen | rightBracket | rightBrace => true
  | _ => false

end TokenKind

/-- A token: its kind, its text as written, and the line it starts on, counted from 1. -/
structure Token where
  kind : TokenKind
  text : String
  line : Nat
  deriving DecidableEq, Repr, Inhabited

/-- Input that begins no token: the line it stands on and the beginning of it. -/
structure LexError where
  line : Nat
  text : String
  deriving DecidableEq, Repr

end ApiDocs.Source
