import LetDef.Proofs.Java.Heads

/-!
# Blocks and indentation of a Java text

A Java text read from the text alone: `Java.rows?` takes it line by line and counts the braces
outside of quotes, so that each row is a line with the number of blocks that are open in front of
it. It fails if a brace closes a block where none is open, if a line ends between quotes, and if a
block is open at the end. What generated lines lead to is composed from their texts (`Java.Laid`),
which are joined from texts that open as many blocks as they close (`Java.Level`).
-/
namespace LetDef.Java

open Text (Line)

/-- A reader of a Java text: where it is, and how many blocks are open there. -/
structure Reader where
  /-- Where it is. -/
  place : Place
  /-- The number of open blocks. -/
  blocks : Nat

namespace Reader

/-- The reader behind one more character, unless that closes a block where none is open. -/
def step? : Reader → Char → Option Reader
  | ⟨.code _, blocks⟩, '\x7b' => some ⟨.code [], blocks + 1⟩
  | ⟨.code _, 0⟩, '\x7d' => none
  | ⟨.code _, blocks + 1⟩, '\x7d' => some ⟨.code [], blocks⟩
  | ⟨place, blocks⟩, char => some ⟨place.step char, blocks⟩

/-- The reader behind a text. -/
def after? (reader : Reader) (text : List Char) : Option Reader :=
  text.foldlM step? reader

/-- The number of open blocks, unless the reader is between quotes. -/
def blocks? : Reader → Option Nat
  | ⟨.code _, blocks⟩ => some blocks
  | _ => none

/-- Every character but a brace leaves the blocks as they are. -/
theorem step?_of_ne (reader : Reader) {char : Char} (noOpening : char ≠ '\x7b')
    (noClosing : char ≠ '\x7d') :
    reader.step? char = some ⟨reader.place.step char, reader.blocks⟩ := by
  rw [step?.eq_def]
  split <;> first | contradiction | rfl

/-- Between quotes every character leaves the blocks as they are. -/
theorem step?_quoted (quote char : Char) (blocks : Nat) :
    (Reader.mk (.quoted quote) blocks).step? char =
      some ⟨(Place.quoted quote).step char, blocks⟩ := by
  rw [step?.eq_def]

/-- Behind two texts the reader is where the second one leads from behind the first one. -/
theorem after?_append (reader : Reader) (one two : List Char) :
    reader.after? (one ++ two) = (reader.after? one).bind (·.after? two) :=
  List.foldlM_append

end Reader

/-- A line of a Java text. -/
structure Row where
  /-- The number of blocks that are open in front of it. -/
  blocks : Nat
  /-- Its text. -/
  text : List Char
  deriving DecidableEq

namespace Row

/-- What is in the line behind its indentation. -/
def content (row : Row) : List Char :=
  row.text.dropWhile (· = ' ')

/-- The number of spaces in front of that. -/
def indentation (row : Row) : Nat :=
  (row.text.takeWhile (· = ' ')).length

/-- The line is empty, or there is something behind four spaces for each open block, where a closing
brace in front counts as if its block was closed. -/
def Indented (row : Row) : Prop :=
  row.text = [] ∨ row.content ≠ [] ∧
    row.indentation = 4 * if row.content.head? = some '\x7d' then row.blocks - 1 else row.blocks

/-- Behind spaces a character that is none begins what is in the line. -/
theorem parts_of_text {row : Row} {spaces : Nat} {first : Char} {rest : List Char}
    (written : row.text = List.replicate spaces ' ' ++ first :: rest) (visible : first ≠ ' ') :
    row.content = first :: rest ∧ row.indentation = spaces := by
  have passed : ∀ char ∈ List.replicate spaces ' ', decide (char = ' ') = true :=
    fun char member => decide_eq_true (List.eq_of_mem_replicate member)
  have stops : ¬ decide (first = ' ') = true := by simpa using visible
  constructor
  · rw [content, written, List.dropWhile_append_of_pos passed,
      List.dropWhile_cons_of_neg (p := fun char => decide (char = ' ')) stops]
  · rw [indentation, written, List.takeWhile_append_of_pos passed,
      List.takeWhile_cons_of_neg (p := fun char => decide (char = ' ')) stops, List.append_nil,
      List.length_replicate]

end Row

/-- The lines as rows, in front of which this number of blocks is open, and the number of blocks
that are open behind them. -/
def rowsFrom? : Nat → List (List Char) → Option (List Row × Nat)
  | blocks, [] => some ([], blocks)
  | blocks, line :: rest => do
    let reader ← (Reader.mk (.code []) blocks).after? line
    let next ← reader.blocks?
    let (rows, last) ← rowsFrom? next rest
    return (⟨blocks, line⟩ :: rows, last)

/-- The rows of a Java text whose braces are balanced. -/
def rows? (text : String) : Option (List Row) :=
  match rowsFrom? 0 (text.toList.splitOn '\n') with
  | some (rows, 0) => some rows
  | _ => none

/-- Lines that come after others are their rows after those of the others. -/
theorem rowsFrom?_append {before between behind : Nat} {one two : List (List Char)}
    {rows others : List Row} (first : rowsFrom? before one = some (rows, between))
    (second : rowsFrom? between two = some (others, behind)) :
    rowsFrom? before (one ++ two) = some (rows ++ others, behind) := by
  induction one generalizing before rows with
  | nil =>
    obtain ⟨rfl, rfl⟩ : [] = rows ∧ before = between := by simpa [rowsFrom?] using first
    exact second
  | cons line rest ih =>
    simp only [rowsFrom?, bind, Option.bind_eq_some_iff] at first
    obtain ⟨reader, read, next, ended, ⟨later, last⟩, found, same⟩ := first
    obtain ⟨rfl, rfl⟩ : ⟨before, line⟩ :: later = rows ∧ last = between := by simpa using same
    simp only [List.cons_append, rowsFrom?, read, ended, ih found, bind, Option.bind_some]
    rfl

/-- How a line looks behind its indentation. -/
inductive Shape where
  /-- There is nothing. -/
  | blank
  /-- A statement or a field. -/
  | statement
  /-- What a block belongs to, and its opening brace. -/
  | opening
  /-- What a block belongs to, and that block, which is empty. -/
  | empty
  /-- An empty first block, and the opening brace of the second one. -/
  | skipping
  /-- The closing brace of the first of two blocks, and the opening brace of the second one. -/
  | turning
  /-- The closing brace of a block. -/
  | closing
  deriving DecidableEq

/-- The text looks like this. -/
def Shape.Fits (content : List Char) : Shape → Prop
  | .blank => content = []
  | .statement => ";".toList <:+ content
  | .opening => " \x7b".toList <:+ content
  | .empty => " \x7b\x7d".toList <:+ content
  | .skipping => " \x7b\x7d else \x7b".toList <:+ content
  | .turning => content = "\x7d else \x7b".toList
  | .closing => content = "\x7d".toList

/-- What is laid down for a line. -/
structure Slot where
  /-- The number of blocks that are open in front of it. -/
  blocks : Nat
  /-- How it looks behind its indentation. -/
  shape : Shape
  deriving DecidableEq

/-- The row is as it is laid down. -/
structure Slot.Fits (slot : Slot) (row : Row) : Prop where
  /-- The open blocks. -/
  blocks : row.blocks = slot.blocks
  /-- How it looks. -/
  shape : slot.shape.Fits row.content

/-- A line break, as Java reads them. -/
def breaks : List Char := ['\n', '\r']

/-- There is no line break in the text. -/
def Unbroken (text : String) : Prop :=
  ∀ char ∈ text.toList, char ∉ breaks

instance (text : String) : Decidable (Unbroken text) :=
  List.decidableBAll (fun char => char ∉ breaks) text.toList

/-- Outside of quotes, whatever name is begun, the text leads from a number of open blocks to
another one, and it ends there. -/
def Leads (one two : Nat) (text : String) : Prop :=
  ∀ name, ∃ last, (Reader.mk (.code name) one).after? text.toList = some ⟨.code last, two⟩

/-- The text opens as many blocks as it closes, closes none that was open before it, and has no line
break. -/
structure Level (text : String) : Prop where
  /-- It leads back to any number of open blocks. -/
  leads : ∀ blocks, Leads blocks blocks text
  /-- It has no line break. -/
  unbroken : Unbroken text

/-- A level text that may be the first one behind an indentation. -/
structure Neat (text : String) : Prop extends Level text where
  /-- It begins neither with a space nor with a closing brace. -/
  begins : text.toList.head?.any fun first => first ≠ ' ' && first ≠ '\x7d'

/-- Quotes, braces and line breaks. -/
def signs : List Char := ['"', '\'', '\x7b', '\x7d', '\n', '\r']

/-- There are no signs in the text. -/
def Plain (text : String) : Prop :=
  ∀ char ∈ text.toList, char ∉ signs

instance (text : String) : Decidable (Plain text) :=
  List.decidableBAll (fun char => char ∉ signs) text.toList

section Texts

variable {one two text : String} {before between behind : Nat}

/-- Without line breaks are two texts one after the other if each is. -/
theorem Unbroken.append (first : Unbroken one) (second : Unbroken two) : Unbroken (one ++ two) := by
  rw [Unbroken, String.toList_append]
  exact List.forall_mem_append.mpr ⟨first, second⟩

/-- Two texts one after the other lead to where the second one leads from behind the first one. -/
theorem Leads.append (first : Leads before between one) (second : Leads between behind two) :
    Leads before behind (one ++ two) := by
  intro name
  obtain ⟨middle, begun⟩ := first name
  obtain ⟨last, done⟩ := second middle
  exact ⟨last, by rw [String.toList_append, Reader.after?_append, begun, Option.bind_some, done]⟩

/-- A brace opens a block. -/
theorem leads_opening (blocks : Nat) : Leads blocks (blocks + 1) "\x7b" :=
  fun _ => ⟨[], rfl⟩

/-- A brace closes a block that is open. -/
theorem leads_closing (blocks : Nat) : Leads (blocks + 1) blocks "\x7d" :=
  fun _ => ⟨[], rfl⟩

/-- Level texts one after the other are level. -/
theorem Level.append (first : Level one) (second : Level two) : Level (one ++ two) :=
  ⟨fun blocks => (first.leads blocks).append (second.leads blocks),
    first.unbroken.append second.unbroken⟩

/-- Level texts that are joined by a level one are level. -/
theorem Level.intercalate {separator : String} (apart : Level separator) {texts : List String}
    (level : ∀ text ∈ texts, Level text) : Level (separator.intercalate texts) :=
  of_intercalate ⟨fun _ name => ⟨name, rfl⟩, List.forall_mem_nil _⟩ Level.append apart level

/-- A block that is empty is level. -/
theorem level_braces : Level "\x7b\x7d" :=
  ⟨fun blocks => (leads_opening blocks).append (leads_closing blocks), by decide⟩

/-- A text without signs is level. -/
theorem level_of_plain (plain : Plain text) : Level text := by
  constructor
  · intro blocks name
    rw [Plain] at plain
    generalize text.toList = chars at plain
    induction chars generalizing name with
    | nil => exact ⟨name, rfl⟩
    | cons first rest ih =>
      obtain ⟨none, others⟩ := List.forall_mem_cons.mp plain
      simp only [signs, List.mem_cons, List.not_mem_nil, or_false, not_or] at none
      obtain ⟨noQuote, noApostrophe, noOpening, noClosing, _⟩ := none
      obtain ⟨next, stepped, _⟩ := Place.exists_step_code noQuote noApostrophe name
      obtain ⟨last, done⟩ := ih next others
      refine ⟨last, ?_⟩
      rw [Reader.after?, List.foldlM_cons, Reader.step?_of_ne _ noOpening noClosing, stepped]
      exact done
  · intro char member broken
    refine plain char member ?_
    simp only [breaks, signs, List.mem_cons, List.not_mem_nil, or_false] at broken ⊢
    exact .inr (.inr (.inr (.inr broken)))

/-- What a neat text begins with. -/
theorem Neat.exists_cons (neat : Neat text) :
    ∃ first rest, text.toList = first :: rest ∧ first ≠ ' ' ∧ first ≠ '\x7d' := by
  have begins := neat.begins
  cases written : text.toList with
  | nil =>
    rw [written] at begins
    contradiction
  | cons first rest =>
    rw [written] at begins
    exact ⟨first, rest, rfl, by simpa using begins⟩

/-- A neat text goes on with a level one. -/
theorem Neat.append (first : Neat one) (second : Level two) : Neat (one ++ two) := by
  obtain ⟨char, rest, begins, visible, noBrace⟩ := first.exists_cons
  refine ⟨first.toLevel.append second, ?_⟩
  rw [String.toList_append, begins]
  simp [visible, noBrace]

/-- A text that is escaped for the quotes around it is read up to the quote behind it. -/
theorem Reader.after?_escaped {quote : Char} {chars : List Char}
    (escaped : Lexeme.Escaped quote chars) (blocks : Nat) :
    (Reader.mk (.quoted quote) blocks).after? chars = some ⟨.quoted quote, blocks⟩ := by
  induction escaped with
  | nil => rfl
  | @mark mark rest _ _ ih =>
    rw [after?, List.foldlM_cons, step?_quoted]
    exact ih
  | @plain char rest ordinary _ ih =>
    have passed : (Place.quoted quote).step char = .quoted quote := by
      simp [Place.step, Lexeme.ne_of_not_mem ordinary]
    rw [after?, List.foldlM_cons, step?_quoted, passed]
    exact ih

/-- A text in quotes leads back to the blocks that were open, whatever it is. -/
theorem leads_quoted {quote : Char} (quotes : quote ∈ ['\'', '"']) (text : List Char)
    (blocks : Nat) : Leads blocks blocks (quoted quote text) := by
  intro name
  have noBrace : quote ≠ '\x7b' ∧ quote ≠ '\x7d' := by
    simp only [List.mem_cons, List.not_mem_nil, or_false] at quotes
    rcases quotes with rfl | rfl <;> decide
  have begun : (Reader.mk (.code name) blocks).step? quote = some ⟨.quoted quote, blocks⟩ := by
    rw [Reader.step?_of_ne _ noBrace.1 noBrace.2, Place.step_code quotes]
  have inside := Reader.after?_escaped (Lexeme.escaped_encode quotes text) blocks
  have ended : (Reader.mk (.quoted quote) blocks).after? [quote] = some ⟨.code [], blocks⟩ := by
    rw [Reader.after?, List.foldlM_cons, Reader.step?_quoted, Place.step_quoted quotes]
    rfl
  refine ⟨[], ?_⟩
  rw [toList_quoted, Reader.after?, List.foldlM_cons, begun]
  show (Reader.mk (.quoted quote) blocks).after? _ = _
  rw [Reader.after?_append, inside, Option.bind_some, ended]

end Texts

/-- The indentation has four spaces for each block. -/
theorem toList_indentation (depth : Nat) :
    (Line.indentation depth).toList = List.replicate (4 * depth) ' ' := by
  induction depth with
  | zero => rfl
  | succ depth ih =>
    rw [Line.indentation, String.toList_join] at ih ⊢
    rw [List.replicate_succ, List.flatMap_cons, ih, Nat.mul_succ, Nat.add_comm, List.replicate_add]
    rfl

/-- An indentation is level. -/
theorem level_indentation (depth : Nat) : Level (Line.indentation depth) := by
  refine level_of_plain fun char member => ?_
  rw [toList_indentation] at member
  rw [List.eq_of_mem_replicate member]
  decide

/-- These lines, in front of which and behind which these numbers of blocks are open, are as it is
laid down. -/
structure Laid (before behind : Nat) (lines : List Line) (slots : List Slot) : Prop where
  /-- They are read as rows that are so. -/
  rows : ∃ rows, rowsFrom? before (lines.map (·.indented.toList)) = some (rows, behind) ∧
    List.Forall₂ Slot.Fits slots rows ∧ ∀ row ∈ rows, row.Indented
  /-- They have no line breaks. -/
  unbroken : ∀ line ∈ lines, Unbroken line.indented

section Laid

variable {before between behind : Nat} {lines others : List Line} {slots more : List Slot}

/-- There are no lines. -/
theorem laid_nil : Laid before before [] [] :=
  ⟨⟨[], rfl, .nil, List.forall_mem_nil _⟩, List.forall_mem_nil _⟩

/-- Lines that come after others. -/
theorem Laid.append (first : Laid before between lines slots)
    (second : Laid between behind others more) :
    Laid before behind (lines ++ others) (slots ++ more) := by
  obtain ⟨rows, read, fits, indented⟩ := first.rows
  obtain ⟨later, readLater, fitsLater, indentedLater⟩ := second.rows
  refine ⟨⟨rows ++ later, ?_, List.rel_append fits fitsLater,
    List.forall_mem_append.mpr ⟨indented, indentedLater⟩⟩,
    List.forall_mem_append.mpr ⟨first.unbroken, second.unbroken⟩⟩
  rw [List.map_append]
  exact rowsFrom?_append read readLater

/-- The lines of constructs one after the other. -/
theorem laid_flatMap {τ : Type} {items : List τ} {linesOf : τ → List Line}
    {slotsOf : τ → List Slot} {blocks : Nat}
    (each : ∀ item ∈ items, Laid blocks blocks (linesOf item) (slotsOf item)) :
    Laid blocks blocks (items.flatMap linesOf) (items.flatMap slotsOf) := by
  induction items with
  | nil => exact laid_nil
  | cons first rest ih =>
    obtain ⟨one, others⟩ := List.forall_mem_cons.mp each
    exact one.append (ih others)

/-- There is nothing in a blank line. -/
theorem laid_blank (blocks : Nat) : Laid blocks blocks [Line.blank] [⟨blocks, .blank⟩] := by
  have empty : Line.blank.indented.toList = [] := rfl
  refine ⟨⟨[⟨blocks, []⟩], ?_, .cons ⟨rfl, rfl⟩ .nil, List.forall_mem_singleton.mpr (.inl rfl)⟩,
    List.forall_mem_singleton.mpr ?_⟩
  · rw [List.map_singleton, empty]
    rfl
  · rw [Unbroken, empty]
    exact List.forall_mem_nil _

/-- A line is indented by the blocks that are open in front of it, without the one that a brace at
its beginning closes. -/
theorem laid_singleton {depth : Nat} {text : String} {shape : Shape}
    (leads : Leads before behind text) (unbroken : Unbroken text) {first : Char} {rest : List Char}
    (begins : text.toList = first :: rest) (visible : first ≠ ' ')
    (stands : depth = if first = '\x7d' then before - 1 else before)
    (fits : shape.Fits text.toList) :
    Laid before behind [⟨depth, text⟩] [⟨before, shape⟩] := by
  let row : Row := ⟨before, (Line.mk depth text).indented.toList⟩
  have written : row.text = List.replicate (4 * depth) ' ' ++ first :: rest := by
    rw [← begins, ← toList_indentation, ← String.toList_append]
    rfl
  obtain ⟨content, indentation⟩ := Row.parts_of_text written visible
  -- The indentation is level, so that the line leads where its text leads.
  obtain ⟨last, read⟩ := ((level_indentation depth).leads before).append leads []
  have rows : rowsFrom? before [(Line.mk depth text).indented.toList] = some ([row], behind) := by
    simp only [rowsFrom?, Line.indented, read]
    rfl
  have looks : Slot.Fits ⟨before, shape⟩ row := ⟨rfl, by rwa [content, ← begins]⟩
  have indented : row.Indented := by
    refine .inr ⟨by rw [content]; exact List.cons_ne_nil _ _, ?_⟩
    rw [indentation, content, List.head?_cons, stands]
    simp only [Option.some.injEq, row]
  exact ⟨⟨[row], rows, .cons looks .nil, List.forall_mem_singleton.mpr indented⟩,
    List.forall_mem_singleton.mpr ((level_indentation depth).unbroken.append unbroken)⟩

/-- A neat text has a line that is indented by the open blocks. -/
theorem Neat.laid {text : String} (neat : Neat text) (shape : Shape)
    (fits : shape.Fits text.toList) (depth : Nat) :
    Laid depth depth [⟨depth, text⟩] [⟨depth, shape⟩] := by
  obtain ⟨first, rest, begins, visible, noBrace⟩ := neat.exists_cons
  exact laid_singleton (neat.leads depth) neat.unbroken begins visible (if_neg noBrace).symm fits

/-- A text ends in the text that is joined to it. -/
theorem isSuffix_append (front back : String) : back.toList <:+ (front ++ back).toList :=
  ⟨front.toList, String.toList_append.symm⟩

/-- The line of an opening brace behind a neat text. -/
theorem Neat.laidOpening {text : String} (neat : Neat text) (shape : Shape)
    (fits : shape.Fits (text ++ " \x7b").toList) (depth : Nat) :
    Laid depth (depth + 1) [⟨depth, text ++ " \x7b"⟩] [⟨depth, shape⟩] := by
  have space : Level " " := level_of_plain (by decide)
  obtain ⟨first, rest, begins, visible, noBrace⟩ := neat.exists_cons
  have leads : Leads depth (depth + 1) (text ++ " \x7b") :=
    (neat.leads depth).append ((space.leads depth).append (leads_opening depth))
  have longer : (text ++ " \x7b").toList = first :: (rest ++ " \x7b".toList) := by
    rw [String.toList_append, begins, List.cons_append]
  exact laid_singleton leads (neat.unbroken.append (by decide)) longer visible (if_neg noBrace).symm
    fits

/-- The line of a closing brace. -/
theorem laid_closing (depth : Nat) :
    Laid (depth + 1) depth [⟨depth, "\x7d"⟩] [⟨depth + 1, .closing⟩] :=
  laid_singleton (leads_closing depth) (by decide) rfl (by decide) rfl rfl

/-- The line between two blocks. -/
theorem laid_turning (depth : Nat) :
    Laid (depth + 1) (depth + 1) [⟨depth, "\x7d else \x7b"⟩] [⟨depth + 1, .turning⟩] := by
  have between : Level " else " := level_of_plain (by decide)
  have leads : Leads (depth + 1) (depth + 1) ("\x7d" ++ (" else " ++ "\x7b")) :=
    (leads_closing depth).append ((between.leads depth).append (leads_opening depth))
  exact laid_singleton leads (by decide) rfl (by decide) rfl rfl

/-- Lines one under the other are read as rows again. -/
theorem Laid.rows?_render (laid : Laid 0 0 lines slots) (filled : lines ≠ []) :
    ∃ rows, rows? (Line.render lines) = some rows ∧ List.Forall₂ Slot.Fits slots rows ∧
      ∀ row ∈ rows, row.Indented := by
  obtain ⟨rows, read, fits, indented⟩ := laid.rows
  refine ⟨rows, ?_, fits, indented⟩
  have apart : ∀ text ∈ lines.map (·.indented.toList), '\n' ∉ text := by
    refine List.forall_mem_map.mpr fun line listed broken => ?_
    exact laid.unbroken line listed '\n' broken (by decide)
  have split : (Line.render lines).toList.splitOn '\n' = lines.map (·.indented.toList) := by
    rw [Line.render, String.toList_intercalate, List.map_map]
    exact List.splitOn_intercalate '\n' apart (by simpa using filled)
  simp only [Java.rows?, split, read]

/-- There is no other line break between lines than the one that is written. -/
theorem Laid.not_mem_render (laid : Laid before behind lines slots) :
    '\r' ∉ (Line.render lines).toList := by
  have without : ∀ text ∈ lines.map Line.indented, '\r' ∉ text.toList :=
    List.forall_mem_map.mpr fun line listed broken =>
      laid.unbroken line listed '\r' broken (by decide)
  refine of_intercalate List.not_mem_nil (fun one two => ?_) (by decide) without
  rw [String.toList_append, List.mem_append]
  exact not_or.mpr ⟨one, two⟩

/-- Blocks are open in front of rows if it is so laid down. -/
theorem pos_of_fits {rows : List Row} (fits : List.Forall₂ Slot.Fits slots rows)
    (pos : ∀ slot ∈ slots, 0 < slot.blocks) : ∀ row ∈ rows, 0 < row.blocks := by
  induction fits with
  | nil => exact List.forall_mem_nil _
  | cons one _ ih =>
    obtain ⟨first, others⟩ := List.forall_mem_cons.mp pos
    exact List.forall_mem_cons.mpr ⟨one.blocks ▸ first, ih others⟩

/-- As many lines are laid down as there are. -/
theorem Laid.isEmpty_eq (laid : Laid before behind lines slots) :
    lines.isEmpty = slots.isEmpty := by
  obtain ⟨rows, read, fits, _⟩ := laid.rows
  cases lines with
  | nil =>
    obtain ⟨rfl, rfl⟩ : [] = rows ∧ before = behind := by simpa [rowsFrom?] using read
    cases fits
    rfl
  | cons first rest =>
    simp only [List.map_cons, rowsFrom?, bind, Option.bind_eq_some_iff] at read
    obtain ⟨_, _, _, _, ⟨later, last⟩, _, same⟩ := read
    obtain ⟨rfl, _⟩ : ⟨before, first.indented.toList⟩ :: later = rows ∧ last = behind := by
      simpa using same
    cases fits
    rfl

/-- What is laid down for a block behind a text. -/
def Slot.block (depth : Nat) (body : List Slot) : List Slot :=
  if body.isEmpty then [⟨depth, .empty⟩]
  else ⟨depth, .opening⟩ :: body ++ [⟨depth + 1, .closing⟩]

/-- What is laid down for two blocks, of which the first one may be empty. -/
def Slot.branches (depth : Nat) (first second : List Slot) : List Slot :=
  (if first.isEmpty then [⟨depth, .skipping⟩]
    else ⟨depth, .opening⟩ :: first ++ [⟨depth + 1, .turning⟩])
    ++ second ++ [⟨depth + 1, .closing⟩]

section Blocks

variable {front : String} {depth : Nat}

/-- A block behind a neat text. -/
theorem Laid.block (body : Laid (depth + 1) (depth + 1) lines slots) (neat : Neat (front ++ ")")) :
    Laid depth depth (Line.block depth (front ++ ") ") lines "") (Slot.block depth slots) := by
  have space : Level " " := level_of_plain (by decide)
  rw [Line.block, Slot.block, body.isEmpty_eq]
  split
  · have line : Neat (front ++ ")" ++ " \x7b\x7d") := neat.append (space.append level_braces)
    have same : front ++ ") " ++ "\x7b\x7d" ++ "" = front ++ ")" ++ " \x7b\x7d" := by
      simp only [String.append_assoc]
      rfl
    rw [same]
    exact line.laid .empty (isSuffix_append _ _) depth
  · have same : front ++ ") " ++ "\x7b" = front ++ ")" ++ " \x7b" := by
      simp only [String.append_assoc]
      rfl
    rw [same]
    have opening := neat.laidOpening .opening (isSuffix_append _ _) depth
    exact (opening.append body).append (laid_closing depth)

/-- Two blocks behind a neat text. -/
theorem Laid.branches (first : Laid (depth + 1) (depth + 1) lines slots)
    (second : Laid (depth + 1) (depth + 1) others more) (neat : Neat (front ++ ")")) :
    Laid depth depth
      (Line.block depth (front ++ ") ") lines " else \x7b" ++ others ++ [⟨depth, "\x7d"⟩])
      (Slot.branches depth slots more) := by
  have begun : Laid depth (depth + 1) (Line.block depth (front ++ ") ") lines " else \x7b")
      (if slots.isEmpty then [⟨depth, .skipping⟩]
        else ⟨depth, .opening⟩ :: slots ++ [⟨depth + 1, .turning⟩]) := by
    rw [Line.block, first.isEmpty_eq]
    split
    · have space : Level " " := level_of_plain (by decide)
      have between : Level " else" := level_of_plain (by decide)
      have line : Neat (front ++ ")" ++ " \x7b\x7d else") :=
        neat.append ((space.append level_braces).append between)
      have same : front ++ ") " ++ "\x7b\x7d" ++ " else \x7b" =
          front ++ ")" ++ " \x7b\x7d else" ++ " \x7b" := by
        simp only [String.append_assoc]
        rfl
      rw [same]
      refine line.laidOpening .skipping ?_ depth
      rw [String.append_assoc]
      exact isSuffix_append _ _
    · have same : front ++ ") " ++ "\x7b" = front ++ ")" ++ " \x7b" := by
        simp only [String.append_assoc]
        rfl
      rw [same]
      have opening := neat.laidOpening .opening (isSuffix_append _ _) depth
      exact (opening.append first).append (laid_turning depth)
  exact (begun.append second).append (laid_closing depth)

end Blocks

end Laid

end LetDef.Java
