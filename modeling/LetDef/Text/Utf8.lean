/-!
# Lengths and positions in UTF-8

Every position in a source text is a number of UTF-8 bytes from its start. Texts are handled as
lists of characters; the length of such a list is the sum of the sizes of its characters, so
positions add up over `++`.
-/
namespace LetDef.Text

/-- Number of bytes that the characters take in UTF-8. -/
def utf8Length : List Char → Nat
  | [] => 0
  | first :: rest => first.utf8Size + utf8Length rest

/-- No characters take no bytes. -/
@[simp] theorem utf8Length_nil : utf8Length [] = 0 := rfl

/-- One more character in front takes its own bytes. -/
@[simp] theorem utf8Length_cons (first : Char) (rest : List Char) :
    utf8Length (first :: rest) = first.utf8Size + utf8Length rest := rfl

/-- Lengths add up. -/
@[simp] theorem utf8Length_append (left right : List Char) :
    utf8Length (left ++ right) = utf8Length left + utf8Length right := by
  induction left with
  | nil => simp
  | cons first rest ih => simp [ih, Nat.add_assoc]

end LetDef.Text
