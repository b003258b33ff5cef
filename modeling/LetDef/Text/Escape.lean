/-!
# Escape sequences of literals

Character and string literals write some characters as a backslash and a letter. `decode` reads
the inside of a literal and `encode` writes it; `isMark` tells which characters may follow a
backslash in a source text. A backslash and any other character stand for that character, so
`decode` is total.
-/
namespace LetDef.Text.Escape

/-- The characters which a source text may have after a backslash. -/
def isMark (char : Char) : Bool :=
  char = 'b' || char = 'n' || char = 'r' || char = 't' || char = '\'' || char = '"' || char = '\\'

/-- The character that a backslash followed by `mark` stands for. -/
def meaning (mark : Char) : Char :=
  if mark = 'b' then '\x08'
  else if mark = 'n' then '\n'
  else if mark = 'r' then '\r'
  else if mark = 't' then '\t'
  else mark

/-- Replaces every escape sequence by the character it stands for; a backslash at the very end
stands for itself. -/
def decode : List Char → List Char
  | [] => []
  | [char] => [char]
  | char :: mark :: rest =>
    if char = '\\' then meaning mark :: decode rest else char :: decode (mark :: rest)

/-- One character of a literal as it is written between quotes `quote`. -/
def encodeChar (quote char : Char) : List Char :=
  if char = '\x08' then ['\\', 'b']
  else if char = '\n' then ['\\', 'n']
  else if char = '\r' then ['\\', 'r']
  else if char = '\t' then ['\\', 't']
  else if char = '\\' then ['\\', '\\']
  else if char = quote then ['\\', char]
  else [char]

/-- The inside of a literal as it is written between quotes `quote`. -/
def encode (quote : Char) (text : List Char) : List Char :=
  text.flatMap (encodeChar quote)

end LetDef.Text.Escape
