/-!
# Output

The bytes that a program has written. An output may have a limit; a write that does not fit writes
as much as there is room for and fails. Since a limit may cut a character, `Output.text` shows a
cut character at the end as the replacement character.
-/
namespace LetDef

/-- What has been written. -/
structure Output where
  /-- The bytes in order. -/
  bytes : ByteArray
  /-- How many bytes fit, if that is limited. -/
  limit : Option Nat

namespace Output

/-- Nothing has been written. -/
def empty (limit : Option Nat) : Output :=
  ⟨.empty, limit⟩

/-- Appends a text as far as it fits, and whether all of it did. -/
def write (output : Output) (text : String) : Bool × Output :=
  match output with
  | ⟨bytes, none⟩ => (true, ⟨bytes ++ text.toUTF8, none⟩)
  | ⟨bytes, some limit⟩ =>
    let room := limit - bytes.size
    if text.utf8ByteSize ≤ room then (true, ⟨bytes ++ text.toUTF8, some limit⟩)
    else (false, ⟨bytes ++ text.toUTF8.extract 0 room, some limit⟩)

/-- The text of the bytes except for the last few. -/
def textBut (bytes : ByteArray) (cut : Nat) : Option String :=
  String.fromUTF8? (bytes.extract 0 (bytes.size - cut))

/-- The text that has been written. A cut character has at most three bytes. -/
def text (output : Output) : String :=
  match textBut output.bytes 0 with
  | some text => text
  | none => (([1, 2, 3].findSome? (textBut output.bytes)).getD "") ++ "\uFFFD"

end Output

end LetDef
