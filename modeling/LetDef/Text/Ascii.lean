/-!
# Letters and digits

The language's own letters and digits are those of ASCII; every other character of a source text
is an operator or stands inside a literal.
-/
namespace LetDef.Text

/-- An ASCII letter. -/
def isLetter (char : Char) : Bool :=
  ('a' ≤ char && char ≤ 'z') || ('A' ≤ char && char ≤ 'Z')

/-- An ASCII digit. -/
def isDigit (char : Char) : Bool :=
  '0' ≤ char && char ≤ '9'

/-- The value of an ASCII digit. -/
def digitValue (digit : Char) : Nat :=
  digit.toNat - '0'.toNat

end LetDef.Text
