import LetDef.Text.Unprintable

/-!
# Quoted texts

A quoted text shows any text on one line: it stands between quotes, and every character that
would not be seen as itself is written as an escape sequence. Only the quote that encloses the
text is escaped.
-/
namespace LetDef.Text

/-- A number in hexadecimal notation. -/
def hexadecimal (value : Nat) : List Char :=
  Nat.toDigits 16 value

/-- One character between quotes `quote`. -/
def quotedChar (quote char : Char) : List Char :=
  if char = quote || char = '\\' then ['\\', char]
  else if char = '\n' then ['\\', 'n']
  else if char = '\r' then ['\\', 'r']
  else if char = '\t' then ['\\', 't']
  else if char = '\x00' then ['\\', '0']
  else if isPrintable char then [char]
  else '\\' :: 'u' :: '\x7b' :: hexadecimal char.toNat ++ ['\x7d']

/-- A text between quotes `quote`. -/
def quotedWith (quote : Char) (text : List Char) : List Char :=
  quote :: text.flatMap (quotedChar quote) ++ [quote]

/-- A text between quotation marks. -/
def quoted (text : String) : String :=
  String.ofList (quotedWith '"' text.toList)

/-- A character between apostrophes. -/
def quotedCharacter (char : Char) : String :=
  String.ofList (quotedWith '\'' [char])

end LetDef.Text
