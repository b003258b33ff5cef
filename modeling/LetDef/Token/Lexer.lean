import LetDef.Text.Ascii
import LetDef.Text.Escape
import LetDef.Token.Basic

/-!
# Reading tokens from a text

`Lexeme.first` reads the token text at the front of a text that does not start with a blank, and
`Token.scan` repeats it, skipping blanks, until the text ends or a literal cannot be completed.
The first character alone (for signs, the first two) chooses the lexical class; each class then
takes as much as it can. `Lexeme.first` splits its input (`chars_append_rest_of_first`), so the
text shrinks with every token and `scan` ends.
-/
namespace LetDef

/-- Why a literal cannot be completed. -/
inductive LexFault where
  /-- An apostrophe is followed by no character and no escape sequence. -/
  | invalidCharacter
  /-- A character literal has no closing apostrophe. -/
  | unterminatedCharacter
  /-- A backslash in a string is followed by no escape mark. -/
  | invalidEscape
  /-- A string literal has no closing quotation mark. -/
  | unterminatedString
  deriving DecidableEq

/-- The wording of a failure to complete a literal. -/
def LexFault.message : LexFault → String
  | .invalidCharacter => "invalid character literal"
  | .unterminatedCharacter => "unterminated character literal"
  | .invalidEscape => "invalid escape sequence"
  | .unterminatedString => "unterminated string literal"

/-- A text is not a sequence of tokens. -/
structure LexError where
  /-- Byte position of the first character that no token can contain there. -/
  index : Nat
  /-- The reason. -/
  fault : LexFault
  deriving DecidableEq

/-- The full wording of a lexical error. -/
def LexError.message (error : LexError) : String :=
  "lex error at byte " ++ toString error.index ++ ": " ++ error.fault.message

namespace Lexeme

open Text (isLetter isDigit)

/-- Blanks separate tokens and are otherwise ignored. -/
def isBlank (char : Char) : Bool :=
  char = ' ' || char = '\t' || char = '\n' || char = '\r' || char = '\x08'

/-- The first character of an identifier. -/
def isNameStart (char : Char) : Bool :=
  isLetter char || char = '_'

/-- A further character of an identifier. -/
def isNamePart (char : Char) : Bool :=
  isLetter char || isDigit char || char = '_' || char = '-'

/-- A sign in front of a number. -/
def isSign (char : Char) : Bool :=
  char = '+' || char = '-'

/-- The first character of an operator of two characters. -/
def isComparisonStart (char : Char) : Bool :=
  char = '<' || char = '>' || char = '!' || char = '='

/-- A character which a character literal may hold as it is. A backslash is one, so that it
stands for itself where no escape mark follows it. -/
def isPlain (char : Char) : Bool :=
  !(char = '\'' || char = '\n' || char = '\r')

end Lexeme

/-- A token text at the front of a text, and the text after it. -/
structure Lexeme where
  /-- The lexical class. -/
  kind : TokenKind
  /-- The characters of the token. -/
  chars : List Char
  /-- The characters after it. -/
  rest : List Char

/-- A literal that cannot be completed. -/
structure Stuck where
  /-- The characters read before the place of the failure. -/
  accepted : List Char
  /-- The reason. -/
  fault : LexFault

namespace Lexeme

open Text (isLetter isDigit)

/-- The longest identifier at the front. -/
def name (text : List Char) : Lexeme :=
  ⟨.identifier, text.takeWhile isNamePart, text.dropWhile isNamePart⟩

/-- The text after the digits of a number begins a fractional part. -/
def startsFraction : List Char → Bool
  | '.' :: digit :: _ => isDigit digit
  | _ => false

/-- The longest unsigned number at the front: digits, and a point with digits if a digit follows
the point. -/
def unsigned (text : List Char) : Lexeme :=
  let whole := text.takeWhile isDigit
  let after := text.dropWhile isDigit
  if startsFraction after then
    let fraction := after.drop 1
    ⟨.decimal, whole ++ '.' :: fraction.takeWhile isDigit, fraction.dropWhile isDigit⟩
  else ⟨.integer, whole, after⟩

/-- The lexeme with one more character in front. -/
def cons (char : Char) (lexeme : Lexeme) : Lexeme :=
  ⟨lexeme.kind, char :: lexeme.chars, lexeme.rest⟩

/-- What follows the opening apostrophe of a character literal. -/
def characterContent : List Char → Except Stuck (List Char × List Char)
  | [] => .error ⟨[], .invalidCharacter⟩
  | [char] => if isPlain char then .ok ([char], []) else .error ⟨[], .invalidCharacter⟩
  | char :: mark :: rest =>
    if char = '\\' && Text.Escape.isMark mark then .ok ([char, mark], rest)
    else if isPlain char then .ok ([char], mark :: rest)
    else .error ⟨[], .invalidCharacter⟩

/-- A character literal, after its opening apostrophe. -/
def character (text : List Char) : Except Stuck Lexeme :=
  match characterContent text with
  | .error stuck => .error ⟨'\'' :: stuck.accepted, stuck.fault⟩
  | .ok (content, '\'' :: rest) => .ok ⟨.character, '\'' :: content ++ ['\''], rest⟩
  | .ok (content, _) => .error ⟨'\'' :: content, .unterminatedCharacter⟩

/-- Puts characters in front of a result of reading a string. -/
def extend (chars : List Char) :
    Except Stuck (List Char × List Char) → Except Stuck (List Char × List Char)
  | .error stuck => .error ⟨chars ++ stuck.accepted, stuck.fault⟩
  | .ok (content, rest) => .ok (chars ++ content, rest)

/-- The characters of a string literal after its opening quotation mark, through the closing one,
and the text after that. -/
def stringContent : List Char → Except Stuck (List Char × List Char)
  | [] => .error ⟨[], .unterminatedString⟩
  | [char] =>
    if char = '"' then .ok ([char], [])
    else if char = '\\' then .error ⟨[char], .invalidEscape⟩
    else .error ⟨[char], .unterminatedString⟩
  | char :: mark :: rest =>
    if char = '"' then .ok ([char], mark :: rest)
    else if char = '\\' then
      if Text.Escape.isMark mark then extend [char, mark] (stringContent rest)
      else .error ⟨[char], .invalidEscape⟩
    else extend [char] (stringContent (mark :: rest))

/-- A string literal, after its opening quotation mark. -/
def string (text : List Char) : Except Stuck Lexeme :=
  match extend ['"'] (stringContent text) with
  | .error stuck => .error stuck
  | .ok (chars, rest) => .ok ⟨.string, chars, rest⟩

/-- A comparison of two characters, or the first character alone. -/
def operator (char : Char) : List Char → Lexeme
  | '=' :: rest =>
    if isComparisonStart char then ⟨.operator, [char, '='], rest⟩
    else ⟨.operator, [char], '=' :: rest⟩
  | rest => ⟨.operator, [char], rest⟩

/-- The text begins with a digit. -/
def startsDigit : List Char → Bool
  | digit :: _ => isDigit digit
  | [] => false

/-- The token text at the front of a text with the first character `char`, which is no blank. -/
def first (char : Char) (rest : List Char) : Except Stuck Lexeme :=
  if isNameStart char then .ok (name (char :: rest))
  else if isDigit char then .ok (unsigned (char :: rest))
  else if isSign char && startsDigit rest then .ok ((unsigned rest).cons char)
  else if char = '\'' then character rest
  else if char = '"' then string rest
  else .ok (operator char rest)

/-- What a name may begin with may stand in it. -/
theorem isNamePart_of_isNameStart {char : Char} (start : isNameStart char = true) :
    isNamePart char = true := by
  simp only [isNameStart, isNamePart, Bool.or_eq_true] at start ⊢
  exact start.elim (fun letter => .inl (.inl (.inl letter)))
    fun underscore => .inl (.inr underscore)

/-- A name and the text after it make up the text. -/
theorem chars_append_rest_name (text : List Char) : (name text).chars ++ (name text).rest = text :=
  List.takeWhile_append_dropWhile

/-- A fraction begins with a point and a digit. -/
theorem eq_cons_of_startsFraction {text : List Char} (fraction : startsFraction text = true) :
    ∃ digit rest, text = '.' :: digit :: rest ∧ isDigit digit = true := by
  unfold startsFraction at fraction
  split at fraction
  next digit rest => exact ⟨digit, rest, rfl, fraction⟩
  next => simp at fraction

/-- A number without a sign and the text after it make up the text. -/
theorem chars_append_rest_unsigned (text : List Char) :
    (unsigned text).chars ++ (unsigned text).rest = text := by
  have split := List.takeWhile_append_dropWhile (p := isDigit) (l := text)
  simp only [unsigned]
  split
  next fraction =>
    obtain ⟨digit, rest, after, _⟩ := eq_cons_of_startsFraction fraction
    rw [after] at split ⊢
    simpa using split
  next => exact split

/-- What stands for a character and the text after it make up the text. -/
theorem append_of_characterContent {text content rest : List Char}
    (read : characterContent text = .ok (content, rest)) : content ++ rest = text := by
  match text with
  | [] => simp [characterContent] at read
  | [char] =>
    simp only [characterContent] at read
    split at read <;> simp_all
  | char :: mark :: tail =>
    simp only [characterContent] at read
    split at read
    · simp only [Except.ok.injEq, Prod.mk.injEq] at read
      simp [← read.1, ← read.2]
    · split at read
      · simp only [Except.ok.injEq, Prod.mk.injEq] at read
        simp [← read.1, ← read.2]
      · simp at read

/-- A character with its quotes and the text after it make up the text. -/
theorem chars_append_rest_of_character {text : List Char} {lexeme : Lexeme}
    (read : character text = .ok lexeme) : lexeme.chars ++ lexeme.rest = '\'' :: text := by
  unfold character at read
  split at read
  · simp at read
  next content rest content_read =>
    have whole := append_of_characterContent content_read
    injection read with read
    subst read
    simp [← whole]
  · simp at read

/-- What stands in a string with its last quote, and the text after it, make up the text. -/
theorem append_of_stringContent {text content rest : List Char}
    (read : stringContent text = .ok (content, rest)) : content ++ rest = text := by
  fun_induction stringContent text generalizing content rest with
  | case1 => simp at read
  | case2 => simp_all
  | case3 => simp at read
  | case4 => simp at read
  | case5 =>
    simp only [Except.ok.injEq, Prod.mk.injEq] at read
    simp [← read.1, ← read.2]
  | case6 mark tail _ _ ih =>
    cases found : stringContent tail with
    | error stuck => simp [found, extend] at read
    | ok pair =>
      obtain ⟨inner, after⟩ := pair
      simp only [found, extend, Except.ok.injEq, Prod.mk.injEq] at read
      obtain ⟨rfl, rfl⟩ := read
      simp [ih found]
  | case7 => simp at read
  | case8 char mark tail _ _ ih =>
    cases found : stringContent (mark :: tail) with
    | error stuck => simp [found, extend] at read
    | ok pair =>
      obtain ⟨inner, after⟩ := pair
      simp only [found, extend, Except.ok.injEq, Prod.mk.injEq] at read
      obtain ⟨rfl, rfl⟩ := read
      simp [ih found]

/-- A string with its quotes and the text after it make up the text. -/
theorem chars_append_rest_of_string {text : List Char} {lexeme : Lexeme}
    (read : string text = .ok lexeme) : lexeme.chars ++ lexeme.rest = '"' :: text := by
  cases found : stringContent text with
  | error stuck => simp [string, found, extend] at read
  | ok pair =>
    obtain ⟨inner, after⟩ := pair
    simp only [string, found, extend, Except.ok.injEq] at read
    subst read
    simp [append_of_stringContent found]

/-- An operator and the text after it make up the text. -/
theorem chars_append_rest_operator (char : Char) (rest : List Char) :
    (operator char rest).chars ++ (operator char rest).rest = char :: rest := by
  unfold operator
  split
  · split <;> simp
  · simp

/-- A lexeme and the text after it make up the text it was read from. -/
theorem chars_append_rest_of_first {char : Char} {rest : List Char} {lexeme : Lexeme}
    (read : first char rest = .ok lexeme) : lexeme.chars ++ lexeme.rest = char :: rest := by
  unfold first at read
  split at read
  · injection read with read
    exact read ▸ chars_append_rest_name _
  split at read
  · injection read with read
    exact read ▸ chars_append_rest_unsigned _
  split at read
  · injection read with read
    subst read
    simp [cons, chars_append_rest_unsigned]
  split at read
  next quote => exact quote ▸ chars_append_rest_of_character read
  split at read
  next quote => exact quote ▸ chars_append_rest_of_string read
  · injection read with read
    exact read ▸ chars_append_rest_operator _ _

/-- A lexeme is not empty. -/
theorem chars_ne_nil_of_first {char : Char} {rest : List Char} {lexeme : Lexeme}
    (read : first char rest = .ok lexeme) : lexeme.chars ≠ [] := by
  unfold first at read
  split at read
  next start =>
    injection read with read
    subst read
    simp [name, isNamePart_of_isNameStart start]
  split at read
  next digit =>
    injection read with read
    subst read
    simp only [unsigned]
    split <;> simp [digit]
  split at read
  · injection read with read
    subst read
    simp [cons]
  split at read
  · unfold character at read
    split at read
    · simp at read
    · injection read with read
      subst read
      simp
    · simp at read
  split at read
  · cases found : stringContent rest with
    | error stuck => simp [string, found, extend] at read
    | ok pair =>
      simp only [string, found, extend, Except.ok.injEq] at read
      subst read
      simp
  · injection read with read
    subst read
    unfold operator
    split
    · split <;> simp
    · simp

/-- Reading a lexeme leaves a shorter text. -/
theorem length_rest_le_of_first {char : Char} {rest : List Char} {lexeme : Lexeme}
    (read : first char rest = .ok lexeme) : lexeme.rest.length ≤ rest.length := by
  have whole := congrArg List.length (chars_append_rest_of_first read)
  have used := List.length_pos_iff.mpr (chars_ne_nil_of_first read)
  simp only [List.length_append, List.length_cons] at whole
  omega

end Lexeme

namespace Token

/-- The tokens of a text whose first character stands at byte `index`. -/
def scanFrom (index : Nat) : List Char → Except LexError (List Token)
  | [] => .ok []
  | char :: rest =>
    if Lexeme.isBlank char then scanFrom (index + char.utf8Size) rest
    else
      match _read : Lexeme.first char rest with
      | .error stuck => .error ⟨index + Text.utf8Length stuck.accepted, stuck.fault⟩
      | .ok lexeme =>
        match scanFrom (index + Text.utf8Length lexeme.chars) lexeme.rest with
        | .error error => .error error
        | .ok later => .ok (⟨lexeme.kind, String.ofList lexeme.chars, index⟩ :: later)
  termination_by text => text.length
  decreasing_by
    · simp
    · have := Lexeme.length_rest_le_of_first ‹Lexeme.first char rest = .ok lexeme›
      simp only [List.length_cons]
      omega

/-- The tokens of a source text in order. -/
def scan (text : String) : Except LexError (List Token) :=
  scanFrom 0 text.toList

end Token

end LetDef
