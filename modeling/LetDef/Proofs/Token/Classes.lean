import LetDef.Token.Lexer

/-!
# The words of the lexical classes

Every lexical class is a set of words (`TokenKind.Word`), and the first characters of a text choose
between the classes (`Lexeme.kindsAt`): an identifier, a number, a literal in quotes, or else an
operator. `Lexeme.first` finds exactly the longest front of its text that is a word of a chosen
class (`Lexeme.first_eq_ok_iff`), and there is at most one (`Lexeme.Longest.unique`).
-/
namespace LetDef

namespace Lexeme

open Text (isDigit)

/-- The classes that the first characters of a text choose: one, but for numbers, which are whole or
have places. No token starts with a blank. -/
def kindsAt : List Char → List TokenKind
  | [] => []
  | char :: rest =>
    if isBlank char then []
    else if isNameStart char then [.identifier]
    else if isDigit char || isSign char && startsDigit rest then [.integer, .decimal]
    else if char = '\'' then [.character]
    else if char = '"' then [.string]
    else [.operator]

/-- One digit or more. -/
structure IsDigits (text : List Char) : Prop where
  /-- There is a digit. -/
  filled : text ≠ []
  /-- There are digits alone. -/
  digits : ∀ char ∈ text, isDigit char = true

/-- No sign, or one. -/
def IsSigns (text : List Char) : Prop :=
  text = [] ∨ text = ['+'] ∨ text = ['-']

/-- What a literal in quotes may hold in one place: an escape sequence, or a character that is not
among some excluded ones. -/
inductive Item (excluded : List Char) : List Char → Prop where
  | escape {mark} (marked : Text.Escape.isMark mark = true) : Item excluded ['\\', mark]
  | plain {char} (free : char ∉ excluded) : Item excluded [char]

/-- The characters that stand in no character literal without a backslash. -/
def characterExcluded : List Char := ['\'', '\\', '\n', '\r']

/-- The characters that stand in no string literal without a backslash. -/
def stringExcluded : List Char := ['"', '\\']

end Lexeme

open Lexeme

/-- The words of a lexical class. -/
inductive TokenKind.Word : TokenKind → List Char → Prop where
  | identifier {first rest} (start : isNameStart first = true)
    (parts : ∀ char ∈ rest, isNamePart char = true) : Word .identifier (first :: rest)
  | integer {signs digits} (signed : IsSigns signs) (whole : IsDigits digits) :
    Word .integer (signs ++ digits)
  | decimal {signs digits places} (signed : IsSigns signs) (whole : IsDigits digits)
    (fraction : IsDigits places) : Word .decimal (signs ++ digits ++ '.' :: places)
  | character {content} (one : Item characterExcluded content) :
    Word .character ('\'' :: (content ++ ['\'']))
  | string {items : List (List Char)} (each : ∀ item ∈ items, Item stringExcluded item) :
    Word .string ('"' :: (items.flatten ++ ['"']))
  | comparison {first} (start : isComparisonStart first = true) : Word .operator [first, '=']
  | single {char} (other : kindsAt [char] = [.operator]) : Word .operator [char]

/-- All characters of an identifier belong in names. -/
theorem TokenKind.Word.isNamePart {word : List Char} (isWord : TokenKind.identifier.Word word) :
    ∀ char ∈ word, isNamePart char = true := by
  cases isWord with
  | identifier start parts =>
    exact List.forall_mem_cons.mpr ⟨isNamePart_of_isNameStart start, parts⟩

namespace Lexeme

open Text (isDigit)

/-- The lexeme is the longest front of a text that is a word of one of some classes. -/
structure Longest (lexeme : Lexeme) (kinds : List TokenKind) (text : List Char) : Prop where
  /-- It is a front of the text. -/
  whole : lexeme.chars ++ lexeme.rest = text
  /-- Its class is one of them. -/
  chosen : lexeme.kind ∈ kinds
  /-- It is a word of its class. -/
  word : lexeme.kind.Word lexeme.chars
  /-- No longer word of one of the classes is in front. -/
  most : ∀ kind ∈ kinds, ∀ word, kind.Word word → word <+: text →
    word.length ≤ lexeme.chars.length

section Runs

variable {test : Char → Bool} {front rest text : List Char}

/-- A front whose characters pass a test is no longer than all that do so. -/
theorem length_le_takeWhile (passes : ∀ char ∈ front, test char = true) (before : front <+: text) :
    front.length ≤ (text.takeWhile test).length := by
  obtain ⟨rest, rfl⟩ := before
  rw [List.takeWhile_append_of_pos passes, List.length_append]
  exact Nat.le_add_right _ _

/-- What is taken by a test passes it. -/
theorem of_mem_takeWhile {char : Char} (member : char ∈ text.takeWhile test) :
    test char = true := by
  have all := List.all_takeWhile (p := test) (l := text)
  exact List.all_eq_true.mp all char member

/-- A run of characters that pass a test ends where the next does not. -/
theorem takeWhile_append_cons {next : Char} (passes : ∀ char ∈ front, test char = true)
    (ends : test next = false) : (front ++ next :: rest).takeWhile test = front := by
  rw [List.takeWhile_append_of_pos passes, List.takeWhile_cons_of_neg (by simp [ends]),
    List.append_nil]

/-- After a run of characters that pass a test comes the first that does not. -/
theorem dropWhile_append_cons {next : Char} (passes : ∀ char ∈ front, test char = true)
    (ends : test next = false) : (front ++ next :: rest).dropWhile test = next :: rest := by
  rw [List.dropWhile_append_of_pos passes, List.dropWhile_cons_of_neg (by simp [ends])]

end Runs

/-- A sign is no digit. -/
theorem isDigit_of_isSign {char : Char} (sign : isSign char = true) : isDigit char = false := by
  simp only [isSign, Bool.or_eq_true, decide_eq_true_eq] at sign
  rcases sign with rfl | rfl <;> decide

/-- What stands for no sign or one is nothing or a sign. -/
theorem IsSigns.eq_nil_or {signs : List Char} (signed : IsSigns signs) :
    signs = [] ∨ ∃ sign, signs = [sign] ∧ isSign sign = true := by
  rcases signed with rfl | rfl | rfl
  · exact .inl rfl
  · exact .inr ⟨'+', rfl, rfl⟩
  · exact .inr ⟨'-', rfl, rfl⟩

/-- A sign is one sign. -/
theorem isSigns_of_isSign {sign : Char} (signed : isSign sign = true) : IsSigns [sign] := by
  simp only [isSign, Bool.or_eq_true, decide_eq_true_eq] at signed
  rcases signed with rfl | rfl
  · exact .inr (.inl rfl)
  · exact .inr (.inr rfl)

/-- Digits begin with a digit. -/
theorem IsDigits.exists_cons {text : List Char} (digits : IsDigits text) :
    ∃ digit rest, text = digit :: rest ∧ isDigit digit = true := by
  cases text with
  | nil => exact absurd rfl digits.filled
  | cons digit rest => exact ⟨digit, rest, rfl, digits.digits digit List.mem_cons_self⟩

/-- The digits in front of a text that begins with one. -/
theorem isDigits_takeWhile {text : List Char} (digit : startsDigit text = true) :
    IsDigits (text.takeWhile isDigit) := by
  cases text with
  | nil => contradiction
  | cons first rest =>
    refine ⟨?_, fun _ => of_mem_takeWhile⟩
    have passes : isDigit first = true := digit
    rw [List.takeWhile_cons_of_pos passes]
    exact List.cons_ne_nil _ _

section Numbers

variable {text signs whole places : List Char}

/-- What is read as a number without a sign is a number, also behind a sign. -/
theorem word_unsigned (digit : startsDigit text = true) (signed : IsSigns signs) :
    (unsigned text).kind.Word (signs ++ (unsigned text).chars) ∧
      (unsigned text).kind ∈ [TokenKind.integer, .decimal] := by
  have digits := isDigits_takeWhile digit
  simp only [unsigned]
  split
  next fraction =>
    obtain ⟨first, rest, after, begins⟩ := eq_cons_of_startsFraction fraction
    have fractional : IsDigits ((first :: rest).takeWhile isDigit) := isDigits_takeWhile begins
    rw [after, List.drop_one, List.tail_cons, ← List.append_assoc]
    exact ⟨.decimal signed digits fractional, by simp⟩
  next => exact ⟨.integer signed digits, by simp⟩

/-- No digits in front are more than the number that is read there. -/
theorem length_le_unsigned (digits : IsDigits whole) (before : whole <+: text) :
    whole.length ≤ (unsigned text).chars.length := by
  have taken := length_le_takeWhile digits.digits before
  simp only [unsigned]
  split
  · simp only [List.length_append]
    omega
  · exact taken

/-- No digits with places in front are more than the number that is read there. -/
theorem length_le_unsigned_places (digits : IsDigits whole) (fraction : IsDigits places)
    (before : whole ++ '.' :: places <+: text) :
    (whole ++ '.' :: places).length ≤ (unsigned text).chars.length := by
  obtain ⟨rest, rfl⟩ := before
  obtain ⟨first, others, same, begins⟩ := fraction.exists_cons
  have taken := length_le_takeWhile fraction.digits (List.prefix_append places rest)
  have point : isDigit '.' = false := rfl
  simp only [unsigned, List.append_assoc, List.cons_append,
    takeWhile_append_cons digits.digits point, dropWhile_append_cons digits.digits point]
  have starts : startsFraction ('.' :: (places ++ rest)) = true := by
    rw [same]
    exact begins
  rw [if_pos starts]
  simp only [List.length_append, List.length_cons, List.drop_one, List.tail_cons]
  omega

/-- Signs in front of digits are a sign in front of them, or nothing if a digit is there. -/
theorem signs_of_prefix {char : Char} {rest tail : List Char} (signed : IsSigns signs)
    (digits : IsDigits whole) (before : signs ++ (whole ++ tail) <+: char :: rest) :
    (isDigit char = true ∧ signs = []) ∨
      (isSign char = true ∧ signs = [char] ∧ whole ++ tail <+: rest) := by
  rcases signed.eq_nil_or with rfl | ⟨sign, rfl, isSign⟩
  · obtain ⟨digit, others, rfl, begins⟩ := digits.exists_cons
    have same := (List.cons_prefix_cons.mp before).1
    exact .inl ⟨same ▸ begins, rfl⟩
  · obtain ⟨rfl, behind⟩ := List.cons_prefix_cons.mp before
    exact .inr ⟨isSign, rfl, behind⟩

end Numbers

section Items

variable {excluded content rest : List Char}

/-- An item is what a character literal holds. -/
theorem characterContent_of_item (one : Item characterExcluded content) (rest : List Char) :
    characterContent (content ++ rest) = .ok (content, rest) := by
  cases one with
  | escape marked => simp [characterContent, marked]
  | @plain char free =>
    simp only [characterExcluded, List.mem_cons, List.not_mem_nil, or_false, not_or] at free
    have plain : isPlain char = true := by simp [isPlain, free]
    cases rest with
    | nil => simp [characterContent, plain]
    | cons mark later => simp [characterContent, plain, free]

/-- After the inside of a character literal, the literal is complete. -/
theorem character_of_item (one : Item characterExcluded content) (rest : List Char) :
    character (content ++ '\'' :: rest) =
      .ok ⟨.character, '\'' :: (content ++ ['\'']), rest⟩ := by
  rw [character, characterContent_of_item one]
  rfl

/-- A complete character literal holds one item. -/
theorem item_of_character {text : List Char} {lexeme : Lexeme}
    (read : character text = .ok lexeme) :
    ∃ content after, Item characterExcluded content ∧ text = content ++ '\'' :: after ∧
      lexeme = ⟨.character, '\'' :: (content ++ ['\'']), after⟩ := by
  unfold character at read
  split at read
  · contradiction
  next content after found =>
    injection read with read
    subst read
    refine ⟨content, after, ?_, (append_of_characterContent found).symm, rfl⟩
    match text with
    | [] => simp [characterContent] at found
    | [char] =>
      simp only [characterContent] at found
      split at found
      · simp at found
      · contradiction
    | char :: mark :: tail =>
      simp only [characterContent] at found
      split at found
      next escapes =>
        simp only [Bool.and_eq_true, decide_eq_true_eq] at escapes
        simp only [Except.ok.injEq, Prod.mk.injEq] at found
        rw [← found.1, escapes.1]
        exact .escape escapes.2
      next escapes =>
        split at found
        next admitted =>
          simp only [Except.ok.injEq, Prod.mk.injEq, List.cons.injEq] at found
          obtain ⟨rfl, rfl, _⟩ := found
          refine .plain ?_
          have quoteMarks : Text.Escape.isMark '\'' = true := rfl
          simp only [quoteMarks, Bool.and_true, decide_eq_true_eq] at escapes
          simp only [isPlain, Bool.not_eq_true', Bool.or_eq_false_iff, decide_eq_false_iff_not]
            at admitted
          simp [characterExcluded, escapes, admitted]
        next => contradiction
  · contradiction

/-- An escape sequence is read before what follows it. -/
theorem stringContent_escape {mark : Char} (marked : Text.Escape.isMark mark = true)
    (text : List Char) :
    stringContent ('\\' :: mark :: text) = extend ['\\', mark] (stringContent text) := by
  have other : '\\' ≠ '"' := by decide
  rw [stringContent, if_neg other, if_pos rfl, if_pos marked]

/-- A character that stands for itself is read before what follows it. -/
theorem stringContent_plain {char : Char} (free : char ∉ stringExcluded) (text : List Char) :
    stringContent (char :: text) = extend [char] (stringContent text) := by
  simp only [stringExcluded, List.mem_cons, List.not_mem_nil, or_false, not_or] at free
  cases text with
  | nil => simp [stringContent, extend, free]
  | cons next later => rw [stringContent, if_neg free.1, if_neg free.2]

/-- What is read in two parts is read at once. -/
theorem extend_append (one two : List Char)
    (result : Except Stuck (List Char × List Char)) :
    extend one (extend two result) = extend (one ++ two) result := by
  cases result with
  | error stuck => rw [extend, extend, extend, List.append_assoc]
  | ok pair => rw [extend, extend, extend, List.append_assoc]

/-- Items are read before what follows them. -/
theorem stringContent_items {items : List (List Char)}
    (each : ∀ item ∈ items, Item stringExcluded item) (text : List Char) :
    stringContent (items.flatten ++ text) = extend items.flatten (stringContent text) := by
  induction items with
  | nil =>
    rw [List.flatten_nil, List.nil_append]
    cases stringContent text <;> rfl
  | cons item items ih =>
    obtain ⟨one, others⟩ := List.forall_mem_cons.mp each
    rw [List.flatten_cons, List.append_assoc, ← extend_append, ← ih others]
    cases one with
    | escape marked => exact stringContent_escape marked _
    | plain free => exact stringContent_plain free _

/-- After the inside of a string literal, the literal is complete. -/
theorem stringContent_of_items {items : List (List Char)}
    (each : ∀ item ∈ items, Item stringExcluded item) (rest : List Char) :
    stringContent (items.flatten ++ '"' :: rest) = .ok (items.flatten ++ ['"'], rest) := by
  have closed : stringContent ('"' :: rest) = .ok (['"'], rest) := by
    cases rest <;> simp [stringContent]
  rw [stringContent_items each, closed, extend]

/-- The inside of a complete string literal holds items alone. -/
theorem items_of_stringContent {text chars : List Char}
    (read : stringContent text = .ok (chars, rest)) :
    ∃ items : List (List Char), (∀ item ∈ items, Item stringExcluded item) ∧
      chars = items.flatten ++ ['"'] := by
  fun_induction stringContent text generalizing chars rest with
  | case1 | case3 | case4 | case7 => contradiction
  | case2 =>
    simp only [Except.ok.injEq, Prod.mk.injEq] at read
    exact ⟨[], by simp, by simp [← read.1]⟩
  | case5 =>
    simp only [Except.ok.injEq, Prod.mk.injEq] at read
    exact ⟨[], by simp, by simp [← read.1]⟩
  | case6 mark tail marked _ ih =>
    cases found : stringContent tail with
    | error stuck => simp [found, extend] at read
    | ok pair =>
      obtain ⟨items, each, inside⟩ := ih found
      simp only [found, extend, Except.ok.injEq, Prod.mk.injEq] at read
      refine ⟨['\\', mark] :: items, List.forall_mem_cons.mpr ⟨.escape marked, each⟩, ?_⟩
      rw [← read.1, inside, List.flatten_cons, List.append_assoc]
  | case8 char mark tail noQuote noEscape ih =>
    cases found : stringContent (mark :: tail) with
    | error stuck => simp [found, extend] at read
    | ok pair =>
      obtain ⟨items, each, inside⟩ := ih found
      simp only [found, extend, Except.ok.injEq, Prod.mk.injEq] at read
      have free : char ∉ stringExcluded := by simp [stringExcluded, noQuote, noEscape]
      refine ⟨[char] :: items, List.forall_mem_cons.mpr ⟨.plain free, each⟩, ?_⟩
      rw [← read.1, inside, List.flatten_cons, List.append_assoc]

end Items

section First

variable {char : Char} {rest : List Char} {lexeme : Lexeme}

/-- What is in front of a word of a number class is its sign, if it has one, and digits. -/
theorem length_le_number {kind : TokenKind} {word : List Char} {number : Lexeme}
    (signs : List Char) (numeric : kind ∈ [TokenKind.integer, .decimal]) (isWord : kind.Word word)
    (before : word <+: char :: rest)
    (unsignedHere : isDigit char = true → number = unsigned (char :: rest) ∧ signs = [])
    (signedHere : isSign char = true → number = unsigned rest ∧ signs = [char]) :
    word.length ≤ (signs ++ number.chars).length := by
  have counted : ∀ {own whole tail : List Char}, IsSigns own → IsDigits whole →
      own ++ (whole ++ tail) <+: char :: rest →
      (∀ text, whole ++ tail <+: text →
        (whole ++ tail).length ≤ (unsigned text).chars.length) →
      (own ++ (whole ++ tail)).length ≤ (signs ++ number.chars).length := by
    intro own whole tail signed digits before most
    rcases signs_of_prefix signed digits before with ⟨digit, rfl⟩ | ⟨sign, rfl, behind⟩
    · obtain ⟨rfl, rfl⟩ := unsignedHere digit
      exact most _ before
    · obtain ⟨rfl, rfl⟩ := signedHere sign
      have most := most _ behind
      simp only [List.length_append, List.length_singleton] at most ⊢
      omega
  cases isWord with
  | @integer own digits signed whole =>
    have bound := @counted own digits [] signed whole (by simpa using before)
    simp only [List.append_nil] at bound
    exact bound fun text before => length_le_unsigned whole before
  | @decimal own digits places signed whole fraction =>
    rw [List.append_assoc] at before ⊢
    exact counted signed whole before fun text before =>
      length_le_unsigned_places whole fraction before
  | _ => simp at numeric

/-- How a token begins with a character: the classes that are chosen there, and what is read. -/
inductive Begins (char : Char) (rest : List Char) :
    List TokenKind → Except Stuck Lexeme → Prop where
  | name (start : isNameStart char = true) :
    Begins char rest [.identifier] (.ok (name (char :: rest)))
  | unsigned (digit : isDigit char = true) :
    Begins char rest [.integer, .decimal] (.ok (unsigned (char :: rest)))
  | signed (sign : isSign char = true) (digit : startsDigit rest = true) :
    Begins char rest [.integer, .decimal] (.ok ((unsigned rest).cons char))
  | character (quote : char = '\'') : Begins char rest [.character] (character rest)
  | string (quote : char = '"') : Begins char rest [.string] (string rest)
  | operator (other : kindsAt [char] = [.operator]) :
    Begins char rest [.operator] (.ok (operator char rest))

/-- What is read is what the chosen classes say. -/
theorem begins_first (rest : List Char) (solid : isBlank char = false) :
    Begins char rest (kindsAt (char :: rest)) (first char rest) := by
  simp only [kindsAt, first, solid, Bool.false_eq_true, if_false]
  by_cases start : isNameStart char = true
  · simp only [start, if_true]
    exact .name start
  by_cases digit : isDigit char = true
  · simp only [start, digit, Bool.true_or, Bool.false_eq_true, if_false, if_true]
    exact .unsigned digit
  by_cases signed : isSign char = true ∧ startsDigit rest = true
  · simp only [start, digit, signed, Bool.and_true, Bool.or_true, Bool.false_eq_true, if_false,
      if_true]
    exact .signed signed.1 signed.2
  rw [← Bool.and_eq_true] at signed
  simp only [start, digit, signed, Bool.or_false, Bool.false_eq_true, if_false]
  by_cases apostrophe : char = '\''
  · simp only [apostrophe, if_true]
    exact .character rfl
  by_cases quotation : char = '"'
  · simp only [quotation, if_true]
    exact .string rfl
  · simp only [apostrophe, quotation, if_false]
    refine .operator ?_
    simp [kindsAt, solid, start, digit, startsDigit, apostrophe, quotation]

/-- Where one class is chosen, the longest word of that class is the longest front. -/
theorem longest_of_single {text : List Char} (whole : lexeme.chars ++ lexeme.rest = text)
    (word : lexeme.kind.Word lexeme.chars)
    (most : ∀ other, lexeme.kind.Word other → other <+: text →
      other.length ≤ lexeme.chars.length) : lexeme.Longest [lexeme.kind] text := by
  refine ⟨whole, List.mem_singleton.mpr rfl, word, fun kind member => ?_⟩
  obtain rfl := List.mem_singleton.mp member
  exact most

/-- All characters of a name are its longest front. -/
theorem longest_name (start : isNameStart char = true) :
    (name (char :: rest)).Longest [.identifier] (char :: rest) := by
  have passes := isNamePart_of_isNameStart start
  refine longest_of_single (chars_append_rest_name _) ?_ fun word isWord before => ?_
  · simp only [name, List.takeWhile_cons_of_pos passes]
    exact .identifier start fun _ => of_mem_takeWhile
  · exact length_le_takeWhile isWord.isNamePart before

/-- All digits of a number are its longest front. -/
theorem longest_unsigned (digit : isDigit char = true) :
    (unsigned (char :: rest)).Longest [.integer, .decimal] (char :: rest) := by
  obtain ⟨isWord, numeric⟩ := @word_unsigned (char :: rest) [] digit (.inl rfl)
  refine ⟨chars_append_rest_unsigned _, numeric, isWord, fun kind member word other before => ?_⟩
  refine length_le_number [] member other before (fun _ => ⟨rfl, rfl⟩) fun sign => ?_
  rw [isDigit_of_isSign sign] at digit
  contradiction

/-- The sign and all digits of a number are its longest front. -/
theorem longest_signed (sign : isSign char = true) (digit : startsDigit rest = true) :
    ((unsigned rest).cons char).Longest [.integer, .decimal] (char :: rest) := by
  obtain ⟨isWord, numeric⟩ := word_unsigned digit (isSigns_of_isSign sign)
  have whole : ((unsigned rest).cons char).chars ++ ((unsigned rest).cons char).rest =
      char :: rest := by
    simp [cons, chars_append_rest_unsigned]
  refine ⟨whole, numeric, isWord, fun kind member word other before => ?_⟩
  refine length_le_number [char] member other before (fun digit => ?_)
    fun _ => ⟨rfl, rfl⟩
  rw [isDigit_of_isSign sign] at digit
  contradiction

/-- A complete character literal is its longest front, being the only one. -/
theorem longest_character (read : character rest = .ok lexeme) :
    lexeme.Longest [.character] ('\'' :: rest) := by
  have whole := chars_append_rest_of_character read
  obtain ⟨content, after, one, rfl, rfl⟩ := item_of_character read
  refine longest_of_single whole (.character one) fun word isWord before => ?_
  cases isWord with
  | @character other item =>
    obtain ⟨later, joined⟩ := (List.cons_prefix_cons.mp before).2
    rw [List.append_assoc, List.singleton_append] at joined
    have found := character_of_item item later
    rw [joined, read] at found
    simp only [Except.ok.injEq, Lexeme.mk.injEq, true_and] at found
    exact Nat.le_of_eq (congrArg List.length found.1.symm)

/-- A complete string literal is its longest front, being the only one. -/
theorem longest_string (read : string rest = .ok lexeme) :
    lexeme.Longest [.string] ('"' :: rest) := by
  have whole := chars_append_rest_of_string read
  cases found : stringContent rest with
  | error stuck => simp [string, found, extend] at read
  | ok pair =>
    obtain ⟨inside, after⟩ := pair
    simp only [string, found, extend, Except.ok.injEq] at read
    subst read
    obtain ⟨items, each, rfl⟩ := items_of_stringContent found
    refine longest_of_single whole (.string each) fun word isWord before => ?_
    cases isWord with
    | @string others eachOther =>
      obtain ⟨later, joined⟩ := (List.cons_prefix_cons.mp before).2
      rw [List.append_assoc, List.singleton_append] at joined
      have again := stringContent_of_items eachOther later
      rw [joined, found] at again
      simp only [Except.ok.injEq, Prod.mk.injEq] at again
      simp [again.1]

/-- A comparison of two characters, or else a single character, is the longest front. -/
theorem longest_operator (other : kindsAt [char] = [.operator]) :
    (operator char rest).Longest [.operator] (char :: rest) := by
  have whole := chars_append_rest_operator char rest
  unfold operator at whole ⊢
  split at whole
  next rest =>
    by_cases start : isComparisonStart char = true
    · simp only [start, if_true] at whole ⊢
      refine longest_of_single whole (.comparison start) fun word isWord _ => ?_
      cases isWord <;> simp
    · simp only [start] at whole ⊢
      refine longest_of_single whole (.single other) fun word isWord before => ?_
      cases isWord with
      | comparison starts =>
        obtain ⟨rfl, _⟩ := List.cons_prefix_cons.mp before
        exact absurd starts start
      | single => simp
  next unequal =>
    refine longest_of_single whole (.single other) fun word isWord before => ?_
    cases isWord with
    | comparison =>
      obtain ⟨after, rfl⟩ := (List.cons_prefix_cons.mp before).2
      exact absurd rfl (unequal after)
    | single => simp

/-- The lexeme that is found is the longest front of a chosen class. -/
theorem longest_of_first (solid : isBlank char = false) (read : first char rest = .ok lexeme) :
    lexeme.Longest (kindsAt (char :: rest)) (char :: rest) := by
  have begins := begins_first rest solid
  rw [read] at begins
  generalize kindsAt (char :: rest) = kinds at begins ⊢
  generalize same : Except.ok lexeme = result at begins
  cases begins with
  | name start =>
    injection same with same
    exact same ▸ longest_name start
  | unsigned digit =>
    injection same with same
    exact same ▸ longest_unsigned digit
  | signed sign digit =>
    injection same with same
    exact same ▸ longest_signed sign digit
  | character quote => exact quote ▸ longest_character same.symm
  | string quote => exact quote ▸ longest_string same.symm
  | operator other =>
    injection same with same
    exact same ▸ longest_operator other

/-- Where a word of a chosen class is in front, a lexeme is found. -/
theorem exists_first (solid : isBlank char = false) {kind : TokenKind} {word : List Char}
    (chosen : kind ∈ kindsAt (char :: rest)) (isWord : kind.Word word)
    (before : word <+: char :: rest) : ∃ lexeme, first char rest = .ok lexeme := by
  have begins := begins_first rest solid
  generalize kindsAt (char :: rest) = kinds at begins chosen
  generalize first char rest = result at begins
  cases begins with
  | name | unsigned | signed | operator => exact ⟨_, rfl⟩
  | character quote =>
    obtain rfl := List.mem_singleton.mp chosen
    cases isWord with
    | character one =>
      obtain ⟨after, joined⟩ := (List.cons_prefix_cons.mp before).2
      rw [List.append_assoc, List.singleton_append] at joined
      exact ⟨_, joined ▸ character_of_item one after⟩
  | string quote =>
    obtain rfl := List.mem_singleton.mp chosen
    cases isWord with
    | string each =>
      obtain ⟨after, joined⟩ := (List.cons_prefix_cons.mp before).2
      rw [List.append_assoc, List.singleton_append] at joined
      have found := stringContent_of_items each after
      rw [joined] at found
      exact ⟨_, by rw [string, found]; rfl⟩

/-- A whole number has no point, and a number with places has one. -/
theorem not_integer_and_decimal {word : List Char} (whole : TokenKind.integer.Word word)
    (fractional : TokenKind.decimal.Word word) : False := by
  have pointed : '.' ∈ word := by
    cases fractional with
    | decimal => simp
  cases whole with
  | integer signed digits =>
    rcases List.mem_append.mp pointed with sign | digit
    · rcases signed with rfl | rfl | rfl <;> simp at sign
    · have := digits.digits '.' digit
      contradiction

/-- A text chooses no two classes that have a word in common. -/
theorem kind_unique {text word : List Char} {kind other : TokenKind} (chosen : kind ∈ kindsAt text)
    (otherChosen : other ∈ kindsAt text) (isWord : kind.Word word) (isOther : other.Word word) :
    kind = other := by
  cases text with
  | nil => simp [kindsAt] at chosen
  | cons char rest =>
    cases blank : isBlank char with
    | true => simp [kindsAt, blank] at chosen
    | false =>
      have begins := begins_first rest blank
      generalize kindsAt (char :: rest) = kinds at begins chosen otherChosen
      generalize first char rest = result at begins
      cases begins with
      | name | character | string | operator =>
        exact (List.mem_singleton.mp chosen).trans (List.mem_singleton.mp otherChosen).symm
      | unsigned | signed =>
        simp only [List.mem_cons, List.not_mem_nil, or_false] at chosen otherChosen
        rcases chosen with rfl | rfl <;> rcases otherChosen with rfl | rfl
        · rfl
        · exact (not_integer_and_decimal isWord isOther).elim
        · exact (not_integer_and_decimal isOther isWord).elim
        · rfl

/-- The longest front of the chosen classes is unique. -/
theorem Longest.unique {text : List Char} {other : Lexeme}
    (longest : lexeme.Longest (kindsAt text) text) (also : other.Longest (kindsAt text) text) :
    lexeme = other := by
  have before : lexeme.chars <+: text := ⟨_, longest.whole⟩
  have otherBefore : other.chars <+: text := ⟨_, also.whole⟩
  have sizes : lexeme.chars.length = other.chars.length :=
    Nat.le_antisymm (also.most _ longest.chosen _ longest.word before)
      (longest.most _ also.chosen _ also.word otherBefore)
  obtain ⟨chars, rest⟩ := List.append_inj (longest.whole.trans also.whole.symm) sizes
  have isOther := also.word
  rw [← chars] at isOther
  have kind := kind_unique longest.chosen also.chosen longest.word isOther
  cases lexeme
  cases other
  simp_all only

/-- Reading finds a lexeme exactly if that is the longest front of a chosen class. -/
theorem first_eq_ok_iff (solid : isBlank char = false) :
    first char rest = .ok lexeme ↔ lexeme.Longest (kindsAt (char :: rest)) (char :: rest) := by
  refine ⟨longest_of_first solid, fun longest => ?_⟩
  obtain ⟨found, read⟩ := exists_first solid longest.chosen longest.word ⟨_, longest.whole⟩
  rw [read, (longest_of_first solid read).unique longest]

end First

end Lexeme

end LetDef
