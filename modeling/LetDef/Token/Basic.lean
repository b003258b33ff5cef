import LetDef.Text.Utf8

/-!
# Tokens

A token is a kind, the exact text it was read from and the byte position of its first character.
Keywords are no kind of their own: they are identifiers, told apart by their text.
-/
namespace LetDef

/-- The lexical class of a token. -/
inductive TokenKind where
  /-- A letter or underscore followed by letters, digits, underscores and hyphens. -/
  | identifier
  /-- Digits with an optional sign. -/
  | integer
  /-- An integer, a point and digits. -/
  | decimal
  /-- One character or escape sequence between apostrophes. -/
  | character
  /-- Characters and escape sequences between quotation marks. -/
  | string
  /-- A comparison of two characters, or any other single character. -/
  | operator
  deriving DecidableEq

/-- The name of a lexical class as it is printed. -/
def TokenKind.name : TokenKind → String
  | .identifier => "Identifier"
  | .integer => "Integer"
  | .decimal => "Decimal"
  | .character => "Character"
  | .string => "String"
  | .operator => "Operator"

/-- One token of a source text. -/
structure Token where
  /-- The lexical class. -/
  kind : TokenKind
  /-- The exact text, quotes and signs included. -/
  literal : String
  /-- Byte position of the first character. -/
  index : Nat
  deriving DecidableEq

namespace Token

/-- Byte position just after the last character. -/
def stop (token : Token) : Nat :=
  token.index + token.literal.utf8ByteSize

/-- The token has the text `literal`, whatever its kind. -/
def reads (token : Token) (literal : String) : Bool :=
  token.literal = literal

end Token

end LetDef
