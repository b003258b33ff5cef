/-!
# Lines of a text

A generated text is a list of lines, each with the number of blocks that it stands in. The depth
decides the indentation; a line without text is not indented. `Line.render` writes the lines one
under the other, without a line break after the last.
-/
namespace LetDef.Text

/-- A line of a generated text. -/
structure Line where
  /-- The number of blocks around it. -/
  depth : Nat
  /-- Its text after the indentation. -/
  text : String
  deriving DecidableEq

namespace Line

/-- The line without text. -/
def blank : Line := ⟨0, ""⟩

/-- The indentation of one block. -/
def indentUnit : String := "    "

/-- The indentation of a number of blocks. -/
def indentation (depth : Nat) : String :=
  String.join (List.replicate depth indentUnit)

/-- The line with its indentation. -/
def indented (line : Line) : String :=
  indentation line.depth ++ line.text

/-- The lines one under the other. -/
def render (lines : List Line) : String :=
  "\n".intercalate (lines.map indented)

/-- A block after the text `head`, and the text `tail` after its closing brace; a block without
lines stands on one line. -/
def block (depth : Nat) (head : String) (body : List Line) (tail : String) : List Line :=
  if body.isEmpty then [⟨depth, head ++ "\x7b\x7d" ++ tail⟩]
  else ⟨depth, head ++ "\x7b"⟩ :: body ++ [⟨depth, "\x7d" ++ tail⟩]

end Line

end LetDef.Text
