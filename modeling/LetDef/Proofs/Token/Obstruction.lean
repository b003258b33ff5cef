import LetDef.Proofs.Token.Numbers

/-!
# The place of a lexical error

A text that begins with no token begins with a literal in quotes that is broken off
(`Lexeme.Unfinished`): what is before the place of the error can be completed to a literal, and the
character there, if there is one, cannot go on with it. A token depends on at most two of the
characters behind it (`Lexeme.Alike`), so the tokens before the error are the same in every text
that goes on in another way behind its place (`scan_error_blames_first_impossible_char`).
-/
namespace LetDef

open Text (isDigit)
open Text.Escape (isMark)

namespace Lexeme

/-- A literal in quotes that is broken off: its characters so far, the reason, and the text behind
them, which does not go on with the literal. -/
inductive Unfinished : List Char → LexFault → List Char → Prop where
  | empty {after} (bare : ∀ char ∈ after.head?, isPlain char = false) :
    Unfinished ['\''] .invalidCharacter after
  | backslash {after} (unmarked : ∀ mark ∈ after.head?, isMark mark = false) :
    Unfinished ['\'', '\\'] .unterminatedCharacter after
  | character {content after} (one : Item characterExcluded content)
    (unclosed : ∀ char ∈ after.head?, char ≠ '\'') :
    Unfinished ('\'' :: content) .unterminatedCharacter after
  | escape {items : List (List Char)} {after} (each : ∀ item ∈ items, Item stringExcluded item)
    (unmarked : ∀ mark ∈ after.head?, isMark mark = false) :
    Unfinished ('"' :: (items.flatten ++ ['\\'])) .invalidEscape after
  | string {items : List (List Char)} (each : ∀ item ∈ items, Item stringExcluded item) :
    Unfinished ('"' :: items.flatten) .unterminatedString []

variable {front content text rest after other : List Char} {fault : LexFault} {stuck : Stuck}
variable {char : Char} {lexeme : Lexeme}

section Characters

/-- What no character literal can hold begins none. -/
theorem characterContent_of_bare (bare : ∀ char ∈ after.head?, isPlain char = false) :
    characterContent after = .error ⟨[], .invalidCharacter⟩ := by
  match after with
  | [] => rfl
  | [char] =>
    have plain : isPlain char = false := bare char rfl
    simp [characterContent, plain]
  | char :: mark :: later =>
    have plain : isPlain char = false := bare char rfl
    have other : char ≠ '\\' := by
      rintro rfl
      contradiction
    simp [characterContent, plain, other]

/-- A backslash stands for itself where no mark follows it. -/
theorem characterContent_of_unmarked (unmarked : ∀ mark ∈ after.head?, isMark mark = false) :
    characterContent ('\\' :: after) = .ok (['\\'], after) := by
  have plain : isPlain '\\' = true := rfl
  cases after with
  | nil => simp [characterContent, plain]
  | cons mark later => simp [characterContent, plain, unmarked mark rfl]

/-- Behind an apostrophe is what no character literal can hold, a backslash that stands for itself,
or an item. -/
theorem character_cases (text : List Char) :
    (∀ char ∈ text.head?, isPlain char = false) ∨
      (∃ after, text = '\\' :: after ∧ ∀ mark ∈ after.head?, isMark mark = false) ∨
      ∃ content after, text = content ++ after ∧ Item characterExcluded content := by
  cases text with
  | nil => exact .inl fun _ member => nomatch member
  | cons char later =>
    cases plain : isPlain char with
    | false => exact .inl fun _ member => Option.some.inj member ▸ plain
    | true =>
      by_cases backslash : char = '\\'
      · subst backslash
        cases later with
        | nil => exact .inr (.inl ⟨[], rfl, fun _ member => nomatch member⟩)
        | cons mark later =>
          cases marked : isMark mark with
          | false =>
            exact .inr (.inl ⟨_, rfl, fun _ member => Option.some.inj member ▸ marked⟩)
          | true => exact .inr (.inr ⟨['\\', mark], later, rfl, .escape marked⟩)
      · refine .inr (.inr ⟨[char], later, rfl, .plain ?_⟩)
        simpa [isPlain, characterExcluded, backslash, and_assoc] using plain

/-- Behind what a character literal holds, something other than an apostrophe breaks it off. -/
theorem character_of_unclosed (found : characterContent text = .ok (content, after))
    (unclosed : ∀ char ∈ after.head?, char ≠ '\'') :
    character text = .error ⟨'\'' :: content, .unterminatedCharacter⟩ := by
  unfold character
  rw [found]
  split
  · contradiction
  next same =>
    injection same with same
    injection same with _ same
    exact absurd rfl (unclosed '\'' (by rw [same]; rfl))
  next _ same =>
    injection same with same
    injection same with same
    rw [same]

/-- A character literal that cannot be read is broken off. -/
theorem unfinished_of_character (failed : character text = .error stuck) :
    ∃ after, '\'' :: text = stuck.accepted ++ after ∧
      Unfinished stuck.accepted stuck.fault after := by
  rcases character_cases text with bare | ⟨after, rfl, unmarked⟩ | ⟨content, after, rfl, one⟩
  · rw [character, characterContent_of_bare bare] at failed
    cases failed
    exact ⟨text, rfl, .empty bare⟩
  · have unclosed : ∀ char ∈ after.head?, char ≠ '\'' := by
      rintro char member rfl
      exact Bool.noConfusion (unmarked '\'' member)
    rw [character_of_unclosed (characterContent_of_unmarked unmarked) unclosed] at failed
    cases failed
    exact ⟨after, rfl, .backslash unmarked⟩
  · have unclosed : ∀ char ∈ after.head?, char ≠ '\'' := by
      rintro char member rfl
      obtain ⟨later, rfl⟩ := List.head?_eq_some_iff.mp member
      rw [character_of_item one] at failed
      contradiction
    rw [character_of_unclosed (characterContent_of_item one after) unclosed] at failed
    cases failed
    exact ⟨after, rfl, .character one unclosed⟩

end Characters

section Strings

/-- A backslash without a mark breaks a string literal off. -/
theorem stringContent_of_unmarked (unmarked : ∀ mark ∈ after.head?, isMark mark = false) :
    stringContent ('\\' :: after) = .error ⟨['\\'], .invalidEscape⟩ := by
  cases after with
  | nil => simp [stringContent]
  | cons mark later => simp [stringContent, unmarked mark rfl]

/-- What no item of a string literal begins: nothing, a quotation mark, or a backslash without a
mark. -/
inductive Stops : List Char → Prop where
  | ended : Stops []
  | closed {after : List Char} : Stops ('"' :: after)
  | unmarked {after : List Char} (unmarked : ∀ mark ∈ after.head?, isMark mark = false) :
    Stops ('\\' :: after)

/-- A text is items as far as there are any. -/
theorem exists_items : ∀ text : List Char, ∃ (items : List (List Char)) (tail : List Char),
    (∀ item ∈ items, Item stringExcluded item) ∧ text = items.flatten ++ tail ∧ Stops tail
  | [] => ⟨[], [], by simp, rfl, .ended⟩
  | [char] => by
    by_cases quote : char = '"'
    · exact ⟨[], [char], by simp, rfl, quote ▸ .closed⟩
    by_cases backslash : char = '\\'
    · exact ⟨[], [char], by simp, rfl, backslash ▸ .unmarked fun _ member => nomatch member⟩
    · have free : char ∉ stringExcluded := by simp [stringExcluded, quote, backslash]
      exact ⟨[[char]], [], by simpa using .plain free, rfl, .ended⟩
  | char :: mark :: later => by
    by_cases quote : char = '"'
    · exact ⟨[], _, by simp, rfl, quote ▸ .closed⟩
    by_cases backslash : char = '\\'
    · cases marked : isMark mark with
      | false =>
        refine ⟨[], _, by simp, rfl, backslash ▸ .unmarked fun _ member => ?_⟩
        exact Option.some.inj member ▸ marked
      | true =>
        obtain ⟨items, tail, each, rfl, stops⟩ := exists_items later
        refine ⟨['\\', mark] :: items, tail, ?_, by rw [backslash]; rfl, stops⟩
        exact List.forall_mem_cons.mpr ⟨.escape marked, each⟩
    · have free : char ∉ stringExcluded := by simp [stringExcluded, quote, backslash]
      obtain ⟨items, tail, each, joined, stops⟩ := exists_items (mark :: later)
      refine ⟨[char] :: items, tail, ?_, by rw [joined]; rfl, stops⟩
      exact List.forall_mem_cons.mpr ⟨.plain free, each⟩

/-- Items to the end of a text are a string literal that is broken off. -/
theorem string_of_items {items : List (List Char)}
    (each : ∀ item ∈ items, Item stringExcluded item) :
    string items.flatten = .error ⟨'"' :: items.flatten, .unterminatedString⟩ := by
  have read := stringContent_items each []
  rw [List.append_nil, stringContent] at read
  rw [string, read]
  simp only [extend, List.append_nil, List.singleton_append]

/-- Items up to a backslash without a mark are a string literal that is broken off. -/
theorem string_of_unmarked {items : List (List Char)}
    (each : ∀ item ∈ items, Item stringExcluded item)
    (unmarked : ∀ mark ∈ after.head?, isMark mark = false) :
    string (items.flatten ++ '\\' :: after) =
      .error ⟨'"' :: (items.flatten ++ ['\\']), .invalidEscape⟩ := by
  rw [string, stringContent_items each, stringContent_of_unmarked unmarked]
  rfl

/-- A string literal that cannot be read is broken off. -/
theorem unfinished_of_string (failed : string text = .error stuck) :
    ∃ after, '"' :: text = stuck.accepted ++ after ∧
      Unfinished stuck.accepted stuck.fault after := by
  obtain ⟨items, tail, each, rfl, stops⟩ := exists_items text
  cases stops with
  | ended =>
    rw [List.append_nil, string_of_items each] at failed
    cases failed
    exact ⟨[], rfl, .string each⟩
  | closed =>
    rw [string, stringContent_of_items each] at failed
    contradiction
  | @unmarked after unmarked =>
    rw [string_of_unmarked each unmarked] at failed
    cases failed
    refine ⟨after, ?_, .escape each unmarked⟩
    rw [List.cons_append, List.append_assoc, List.singleton_append]

end Strings

section Unfinished

/-- A text that begins with no token begins with a literal that is broken off. -/
theorem unfinished_of_first (failed : first char rest = .error stuck) :
    ∃ after, char :: rest = stuck.accepted ++ after ∧
      Unfinished stuck.accepted stuck.fault after := by
  unfold first at failed
  split at failed
  · contradiction
  split at failed
  · contradiction
  split at failed
  · contradiction
  split at failed
  next quote => exact quote ▸ unfinished_of_character failed
  split at failed
  next quote => exact quote ▸ unfinished_of_string failed
  · contradiction

/-- Of the text behind a literal that is broken off, only the first character matters. -/
theorem Unfinished.congr (unfinished : Unfinished front fault (char :: rest))
    (other : List Char) : Unfinished front fault (char :: other) := by
  cases unfinished with
  | empty bare => exact .empty bare
  | backslash unmarked => exact .backslash unmarked
  | character one unclosed => exact .character one unclosed
  | escape each unmarked => exact .escape each unmarked

/-- A literal that is broken off is read as that. -/
theorem Unfinished.scanFrom_eq (unfinished : Unfinished front fault after) (index : Nat) :
    Token.scanFrom index (front ++ after) = .error ⟨index + Text.utf8Length front, fault⟩ := by
  have apostrophe : isBlank '\'' = false := rfl
  have quotation : isBlank '"' = false := rfl
  have beginCharacter : ∀ text, first '\'' text = Lexeme.character text := fun _ => rfl
  have beginString : ∀ text, first '"' text = Lexeme.string text := fun _ => rfl
  cases unfinished with
  | empty bare =>
    rw [List.singleton_append, scanFrom_cons apostrophe, beginCharacter, Lexeme.character,
      characterContent_of_bare bare]
  | backslash unmarked =>
    have unclosed : ∀ char ∈ after.head?, char ≠ '\'' := by
      rintro char member rfl
      exact Bool.noConfusion (unmarked '\'' member)
    rw [List.cons_append, List.singleton_append, scanFrom_cons apostrophe, beginCharacter,
      character_of_unclosed (characterContent_of_unmarked unmarked) unclosed]
  | character one unclosed =>
    rw [List.cons_append, scanFrom_cons apostrophe, beginCharacter,
      character_of_unclosed (characterContent_of_item one after) unclosed]
  | escape each unmarked =>
    rw [List.cons_append, List.append_assoc, List.singleton_append, scanFrom_cons quotation,
      beginString, string_of_unmarked each unmarked]
  | string each =>
    rw [List.append_nil, scanFrom_cons quotation, beginString, string_of_items each]

/-- A literal that is broken off can be completed. -/
theorem Unfinished.exists_word (unfinished : Unfinished front fault after) :
    ∃ (kind : TokenKind) (more : List Char), (kind = .character ∨ kind = .string) ∧
      kind.Word (front ++ more) := by
  cases unfinished with
  | empty => exact ⟨.character, ['a', '\''], .inl rfl, .character (.plain (by decide))⟩
  | backslash => exact ⟨.character, ['n', '\''], .inl rfl, .character (.escape (by decide))⟩
  | character one => exact ⟨.character, ['\''], .inl rfl, .character one⟩
  | @escape items _ each =>
    have more : ∀ item ∈ items ++ [['\\', 'n']], Item stringExcluded item :=
      List.forall_mem_append.mpr ⟨each, List.forall_mem_singleton.mpr (.escape (by decide))⟩
    refine ⟨.string, ['n', '"'], .inr rfl, ?_⟩
    have word := TokenKind.Word.string more
    rw [List.flatten_append, List.append_assoc] at word
    rwa [List.cons_append, List.append_assoc]
  | string each => exact ⟨.string, ['"'], .inr rfl, .string each⟩

/-- A literal that is broken off is more than a point. -/
theorem Unfinished.ne_point (unfinished : Unfinished front fault after) :
    front ≠ [] ∧ front ≠ ['.'] := by
  cases unfinished <;> simp

end Unfinished

/-- Two texts are alike to a token in front of them: they begin with the same character, if with
any, and both with places of a number or neither. -/
structure Alike (one other : List Char) : Prop where
  /-- They begin with the same character. -/
  head : other.head? = one.head?
  /-- They begin with places of a number or not. -/
  fraction : startsFraction other = startsFraction one

section Ahead

/-- Two texts are alike that go on in different ways behind a front which is more than a point. -/
theorem alike_append (filled : front ≠ []) (more : front ≠ ['.']) (after other : List Char) :
    Alike (front ++ after) (front ++ other) := by
  match front with
  | [] => contradiction
  | [first] =>
    have pointless : first ≠ '.' := fun same => more (same ▸ rfl)
    exact ⟨rfl, by simp [startsFraction, pointless]⟩
  | first :: second :: later =>
    refine ⟨rfl, ?_⟩
    by_cases point : first = '.'
    · rw [point]
      rfl
    · simp [startsFraction, point]

/-- Texts that are alike begin with a digit or not. -/
theorem Alike.startsDigit_eq (alike : Alike rest other) : startsDigit other = startsDigit rest := by
  have head := alike.head
  cases other <;> cases rest <;> simp_all [startsDigit]

/-- A run of characters that pass a test ends where one does not follow, and does so in front of any
text that is alike. -/
theorem Alike.takeWhile_eq {test : Char → Bool} (alike : Alike (text.dropWhile test) other) :
    (text.takeWhile test ++ other).takeWhile test = text.takeWhile test ∧
      (text.takeWhile test ++ other).dropWhile test = other := by
  have passes : ∀ char ∈ text.takeWhile test, test char = true := fun _ => of_mem_takeWhile
  cases other with
  | nil =>
    rw [List.takeWhile_append_of_pos passes, List.dropWhile_append_of_pos passes]
    exact ⟨List.append_nil _, rfl⟩
  | cons next later =>
    have ends : test next = false := by
      have stop := List.head?_dropWhile_not test text
      rw [← alike.head] at stop
      exact stop
    exact ⟨takeWhile_append_cons passes ends, dropWhile_append_cons passes ends⟩

/-- No digit follows all digits. -/
theorem startsDigit_dropWhile (text : List Char) :
    startsDigit (text.dropWhile isDigit) = false := by
  have stop := List.head?_dropWhile_not isDigit text
  cases after : text.dropWhile isDigit with
  | nil => rfl
  | cons next later =>
    rw [after] at stop
    exact stop

/-- A number ends in front of any text that is alike. -/
theorem unsigned_of_alike (begins : startsDigit text = true)
    (alike : Alike (unsigned text).rest other) :
    unsigned ((unsigned text).chars ++ other) =
      ⟨(unsigned text).kind, (unsigned text).chars, other⟩ := by
  have whole := isDigits_takeWhile begins
  cases fraction : startsFraction (text.dropWhile isDigit) with
  | false =>
    have read : unsigned text = ⟨.integer, text.takeWhile isDigit, text.dropWhile isDigit⟩ := by
      simp only [unsigned, fraction, Bool.false_eq_true, if_false]
    rw [read] at alike ⊢
    refine unsigned_digits whole ?_ ?_
    · rw [alike.startsDigit_eq, startsDigit_dropWhile]
    · rw [alike.fraction, fraction]
  | true =>
    obtain ⟨digit, later, after, digital⟩ := eq_cons_of_startsFraction fraction
    have places : IsDigits ((digit :: later).takeWhile isDigit) := isDigits_takeWhile digital
    have read : unsigned text = ⟨.decimal,
        text.takeWhile isDigit ++ '.' :: (digit :: later).takeWhile isDigit,
        (digit :: later).dropWhile isDigit⟩ := by
      simp only [unsigned, if_pos fraction]
      rw [after, List.drop_one, List.tail_cons]
    rw [read] at alike ⊢
    rw [List.append_assoc, List.cons_append]
    refine unsigned_places whole places ?_
    rw [alike.startsDigit_eq, startsDigit_dropWhile]

/-- A number behind a sign or none is read in front of any text that is alike. -/
theorem scanFrom_number {signs : List Char} (signed : IsSigns signs)
    (begins : startsDigit text = true) (alike : Alike (unsigned text).rest other) (index : Nat) :
    Token.scanFrom index (signs ++ (unsigned text).chars ++ other) =
      (Token.scanFrom (index + Text.utf8Length (signs ++ (unsigned text).chars)) other).map
        (⟨(unsigned text).kind, String.ofList (signs ++ (unsigned text).chars), index⟩ :: ·) := by
  have beginsAgain : startsDigit ((unsigned text).chars ++ other) = true := by
    have whole := chars_append_rest_unsigned text
    have filled : (unsigned text).chars ≠ [] := (word_unsigned begins (.inl rfl)).1.ne_nil
    obtain ⟨digit, more, spelled⟩ := List.exists_cons_of_ne_nil filled
    rw [← whole, spelled] at begins
    rw [spelled]
    exact begins
  have read := scanFrom_signed signed beginsAgain index
  rwa [unsigned_of_alike begins alike, ← List.append_assoc] at read

/-- A name is read in front of any text that is alike. -/
theorem first_name_of_alike (start : isNameStart char = true)
    (alike : Alike (name (char :: rest)).rest other) :
    ∃ later, (name (char :: rest)).chars ++ other = char :: later ∧
      first char later = .ok ⟨.identifier, (name (char :: rest)).chars, other⟩ := by
  have passes := isNamePart_of_isNameStart start
  have ends : Alike ((char :: rest).dropWhile isNamePart) other := alike
  obtain ⟨taken, dropped⟩ := ends.takeWhile_eq
  refine ⟨rest.takeWhile isNamePart ++ other, ?_, ?_⟩
  · rw [name, List.takeWhile_cons_of_pos passes, List.cons_append]
  · rw [first, if_pos start, name, ← List.cons_append, ← List.takeWhile_cons_of_pos passes, taken,
      dropped, name]

/-- An operator is two characters exactly if they are a comparison. -/
theorem operator_eq (char : Char) (rest : List Char) :
    operator char rest =
      if isComparisonStart char = true ∧ rest.head? = some '=' then
        ⟨.operator, [char, '='], rest.tail⟩
      else ⟨.operator, [char], rest⟩ := by
  unfold operator
  split
  next tail => simp
  next unequal =>
    have single : ¬ rest.head? = some '=' := fun begins => by
      obtain ⟨tail, rfl⟩ := List.head?_eq_some_iff.mp begins
      exact unequal tail rfl
    rw [if_neg fun both => single both.2]

/-- The classes that a text chooses depend on its first character and on whether a digit follows. -/
theorem kindsAt_congr (char : Char) (same : startsDigit other = startsDigit rest) :
    kindsAt (char :: other) = kindsAt (char :: rest) := by
  rw [kindsAt, kindsAt, same]

/-- Where an operator is chosen, it is read. -/
theorem first_of_operator (solid : isBlank char = false)
    (chosen : kindsAt (char :: rest) = [.operator]) :
    first char rest = .ok (operator char rest) := by
  have begins := begins_first rest solid
  rw [chosen] at begins
  generalize first char rest = result at begins
  cases begins with
  | operator => rfl

/-- An operator is read in front of any text that is alike. -/
theorem first_operator_of_alike (solid : isBlank char = false)
    (chosen : kindsAt (char :: rest) = [.operator])
    (alike : Alike (operator char rest).rest other) :
    ∃ later, (operator char rest).chars ++ other = char :: later ∧
      first char later = .ok ⟨(operator char rest).kind, (operator char rest).chars, other⟩ := by
  rw [operator_eq] at alike ⊢
  by_cases two : isComparisonStart char = true ∧ rest.head? = some '='
  · obtain ⟨tail, rfl⟩ := List.head?_eq_some_iff.mp two.2
    rw [if_pos two] at alike ⊢
    refine ⟨'=' :: other, rfl, ?_⟩
    have again : kindsAt (char :: '=' :: other) = [.operator] :=
      (kindsAt_congr char rfl).trans chosen
    rw [first_of_operator solid again, operator_eq, if_pos ⟨two.1, rfl⟩, List.tail_cons]
  · rw [if_neg two] at alike ⊢
    refine ⟨other, rfl, ?_⟩
    have again := (kindsAt_congr char alike.startsDigit_eq).trans chosen
    rw [first_of_operator solid again, operator_eq, alike.head, if_neg two]

/-- A token is read in front of any text that is alike to the one behind it. -/
theorem scanFrom_of_alike (solid : isBlank char = false) (read : first char rest = .ok lexeme)
    (alike : Alike lexeme.rest other) (index : Nat) :
    Token.scanFrom index (lexeme.chars ++ other) =
      (Token.scanFrom (index + Text.utf8Length lexeme.chars) other).map
        (⟨lexeme.kind, String.ofList lexeme.chars, index⟩ :: ·) := by
  have longest := longest_of_first solid read
  -- A literal in quotes does not depend on what is behind it.
  have closed : lexeme.kind = .character ∨ lexeme.kind = .string →
      Token.scanFrom index (lexeme.chars ++ other) =
        (Token.scanFrom (index + Text.utf8Length lexeme.chars) other).map
          (⟨lexeme.kind, String.ofList lexeme.chars, index⟩ :: ·) := fun quoted =>
    (longest_quoted quoted longest.word other).scanFrom_eq index
  have begins := begins_first rest solid
  have among := longest.chosen
  rw [read] at begins
  generalize chosen : kindsAt (char :: rest) = kinds at begins among
  generalize same : Except.ok lexeme = result at begins
  cases begins with
  | name start =>
    injection same with same
    subst same
    obtain ⟨later, joined, again⟩ := first_name_of_alike start alike
    rw [joined, scanFrom_cons solid, again]
    rfl
  | unsigned digit =>
    injection same with same
    subst same
    have unsigned : IsSigns [] := .inl rfl
    have begins : startsDigit (char :: rest) = true := digit
    exact scanFrom_number unsigned begins alike index
  | signed sign digit =>
    injection same with same
    subst same
    exact scanFrom_number (isSigns_of_isSign sign) digit alike index
  | character => exact closed (.inl (List.mem_singleton.mp among))
  | string => exact closed (.inr (List.mem_singleton.mp among))
  | operator =>
    injection same with same
    subst same
    obtain ⟨later, joined, again⟩ := first_operator_of_alike solid chosen alike
    rw [joined, scanFrom_cons solid, again]

end Ahead

/-- Reading a text that begins at byte `index` ends with the error behind a front of the text: there
are texts that begin with the front and are read as tokens, but none that goes on behind it with the
character that stands there. -/
structure Obstructs (index : Nat) (error : LexError) (front after : List Char) : Prop where
  /-- The error is at the end of the front. -/
  place : error.index = index + Text.utf8Length front
  /-- Some text that begins with the front is read as tokens. -/
  viable : ∃ more tokens, Token.scanFrom index (front ++ more) = .ok tokens
  /-- No text is that begins with the front and the character behind it. -/
  final : ∀ char later, after = char :: later → ∀ other,
    Token.scanFrom index (front ++ char :: other) = .error error
  /-- The front is more than a point. -/
  more : front ≠ [] ∧ front ≠ ['.']

section Obstructs

variable {index : Nat} {error : LexError}

/-- What is obstructed stays so behind a blank. -/
theorem Obstructs.blank (blank : isBlank char = true)
    (obstructs : Obstructs (index + char.utf8Size) error front after) :
    Obstructs index error (char :: front) after := by
  refine ⟨?_, ?_, fun next later same other => ?_, ?_, ?_⟩
  · rw [obstructs.place, Text.utf8Length_cons, Nat.add_assoc]
  · obtain ⟨more, tokens, scanned⟩ := obstructs.viable
    exact ⟨more, tokens, by rw [List.cons_append, Token.scanFrom, if_pos blank, scanned]⟩
  · rw [List.cons_append, Token.scanFrom, if_pos blank, obstructs.final next later same]
  · exact List.cons_ne_nil _ _
  · exact fun same => obstructs.more.1 (List.cons.inj same).2

/-- What is obstructed stays so behind a token. -/
theorem Obstructs.token (solid : isBlank char = false) (read : first char rest = .ok lexeme)
    (split : lexeme.rest = front ++ after)
    (obstructs : Obstructs (index + Text.utf8Length lexeme.chars) error front after) :
    Obstructs index error (lexeme.chars ++ front) after := by
  have again : ∀ other, Token.scanFrom index (lexeme.chars ++ front ++ other) =
      (Token.scanFrom (index + Text.utf8Length lexeme.chars) (front ++ other)).map
        (⟨lexeme.kind, String.ofList lexeme.chars, index⟩ :: ·) := by
    intro other
    rw [List.append_assoc]
    apply scanFrom_of_alike solid read
    rw [split]
    exact alike_append obstructs.more.1 obstructs.more.2 after other
  have filled := chars_ne_nil_of_first read
  refine ⟨?_, ?_, fun next later same other => ?_, ?_, ?_⟩
  · rw [obstructs.place, Text.utf8Length_append, Nat.add_assoc]
  · obtain ⟨more, tokens, scanned⟩ := obstructs.viable
    exact ⟨more, _, by rw [again, scanned]; rfl⟩
  · rw [again, obstructs.final next later same]
    rfl
  · exact List.append_ne_nil_of_left_ne_nil filled _
  · intro same
    have sizes := congrArg List.length same
    have one := List.length_pos_iff.mpr filled
    have other := List.length_pos_iff.mpr obstructs.more.1
    rw [List.length_append, List.length_singleton] at sizes
    omega

/-- A literal that is broken off obstructs. -/
theorem Unfinished.obstructs (unfinished : Unfinished front fault after) (index : Nat) :
    Obstructs index ⟨index + Text.utf8Length front, fault⟩ front after := by
  refine ⟨rfl, ?_, ?_, unfinished.ne_point⟩
  · obtain ⟨kind, more, quoted, word⟩ := unfinished.exists_word
    have longest := longest_quoted quoted word []
    rw [List.append_nil] at longest
    exact ⟨more, _, by rw [longest.scanFrom_eq, Token.scanFrom]; rfl⟩
  · rintro char later rfl other
    exact (unfinished.congr other).scanFrom_eq index

/-- Where reading ends with an error, the text is obstructed. -/
theorem exists_obstructs (failed : Token.scanFrom index text = .error error) :
    ∃ front after, text = front ++ after ∧ Obstructs index error front after := by
  fun_induction Token.scanFrom index text with
  | case1 => contradiction
  | case2 index char rest blank ih =>
    obtain ⟨front, after, rfl, obstructs⟩ := ih failed
    exact ⟨char :: front, after, rfl, obstructs.blank blank⟩
  | case3 index char rest solid stuck read =>
    injection failed with same
    subst same
    obtain ⟨after, joined, unfinished⟩ := unfinished_of_first read
    exact ⟨_, after, joined, unfinished.obstructs index⟩
  | case4 index char rest solid lexeme read inner rescanned ih =>
    injection failed with same
    subst same
    obtain ⟨front, after, split, obstructs⟩ := ih rescanned
    refine ⟨_, after, ?_, obstructs.token (Bool.not_eq_true _ ▸ solid) read split⟩
    rw [List.append_assoc, ← split, chars_append_rest_of_first read]
  | case5 => contradiction

end Obstructs

end Lexeme

/-- A text that is not read as tokens has an error at a place in it, between two characters or at
its end. Some text that begins with what is before that place is read as tokens. If a character
stands at the place, every text that begins with what is before it and this character has the same
error. -/
theorem scan_error_blames_first_impossible_char {text : String} {error : LexError}
    (failed : Token.scan text = .error error) :
    error.index ≤ text.utf8ByteSize ∧
      ∃ before after : String, text = before ++ after ∧ error.index = before.utf8ByteSize ∧
        (∃ more tokens, Token.scan (before ++ more) = .ok tokens) ∧
        ∀ char later, after = String.singleton char ++ later →
          ∀ other, Token.scan (before ++ String.singleton char ++ other) = .error error := by
  obtain ⟨front, rest, joined, obstructs⟩ := Lexeme.exists_obstructs failed
  have whole : text = String.ofList front ++ String.ofList rest := by
    rw [← String.ofList_append, ← joined, String.ofList_toList]
  have place : error.index = (String.ofList front).utf8ByteSize := by
    rw [obstructs.place, Nat.zero_add, Lexeme.utf8ByteSize_ofList]
  refine ⟨?_, String.ofList front, String.ofList rest, whole, place, ?_, ?_⟩
  · rw [place, whole, String.utf8ByteSize_append]
    exact Nat.le_add_right _ _
  · obtain ⟨more, tokens, scanned⟩ := obstructs.viable
    refine ⟨String.ofList more, tokens, ?_⟩
    rwa [Token.scan, String.toList_append, String.toList_ofList, String.toList_ofList]
  · intro char later same other
    have behind : rest = char :: later.toList := by
      have chars := congrArg String.toList same
      rwa [String.toList_ofList, String.toList_append, String.toList_singleton,
        List.singleton_append] at chars
    rw [Token.scan, String.toList_append, String.toList_append, String.toList_ofList,
      String.toList_singleton, List.append_assoc, List.singleton_append]
    exact obstructs.final char later.toList behind other.toList

/-- Behind a character of two bytes, a number and a point, the character after a backslash in a
string is the first that cannot stand there. -/
theorem scan_error_blames_first_impossible_char_escape :
    Token.scan "é1.\"a\\x\"" = .error ⟨7, .invalidEscape⟩ ∧
      ∃ before after : String, "é1.\"a\\x\"" = before ++ after ∧ 7 = before.utf8ByteSize ∧
        (∃ more tokens, Token.scan (before ++ more) = .ok tokens) ∧
        ∀ char later, after = String.singleton char ++ later → ∀ other,
          Token.scan (before ++ String.singleton char ++ other) = .error ⟨7, .invalidEscape⟩ := by
  have failed : Token.scan "é1.\"a\\x\"" = .error ⟨7, .invalidEscape⟩ := by decide +kernel
  exact ⟨failed, (scan_error_blames_first_impossible_char failed).2⟩

end LetDef
