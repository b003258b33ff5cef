import LetDef.Proofs.Program.Failure
import LetDef.Proofs.Program.Parsing
import LetDef.Proofs.Token.Numbers
import LetDef.Text.Utf8

/-!
# Tokens of a text are safe to read

Reading a literal takes the token before a position and cuts the quotes off its text, byte by byte.
Neither is possible everywhere: `Literal.at?` makes both of them partial. On the tokens of a text
they never fail and give what `Literal.ofToken` reads, every literal has the value that its text
denotes, and no reader of programs stops at a token that is refused (`scanned_tokens_safe_to_read`).
There is one limit: the places of a decimal number are counted in 64 bits, which is no limit for
texts of fewer than `Decimal.scaleLimit` bytes.
-/
namespace LetDef

open Lexeme

namespace Text

/-- The characters that some bytes in front make up; none where a character goes beyond them. -/
def takeBytes? : Nat → List Char → Option (List Char)
  | 0, _ => some []
  | _ + 1, [] => none
  | bytes + 1, char :: rest =>
    if char.utf8Size ≤ bytes + 1 then
      (takeBytes? (bytes + 1 - char.utf8Size) rest).map (char :: ·)
    else none

/-- The characters behind some bytes; none where a character goes beyond them. -/
def dropBytes? : Nat → List Char → Option (List Char)
  | 0, text => some text
  | _ + 1, [] => none
  | bytes + 1, char :: rest =>
    if char.utf8Size ≤ bytes + 1 then dropBytes? (bytes + 1 - char.utf8Size) rest else none

/-- The characters from one byte to another; none where the bytes are out of order, or not both at
the edge of a character of the text. -/
def slice? (start stop : Nat) (text : List Char) : Option (List Char) :=
  if start ≤ stop then (takeBytes? stop text).bind (dropBytes? start) else none

/-- The characters between the first byte and the last one. -/
def unquoted? (text : List Char) : Option (List Char) :=
  slice? 1 (utf8Length text - 1) text

/-- The bytes of characters in front are those characters. -/
theorem takeBytes?_append (front back : List Char) :
    takeBytes? (utf8Length front) (front ++ back) = some front := by
  induction front with
  | nil => cases back <;> rfl
  | cons char rest ih =>
    have wide := char.utf8Size_pos
    obtain ⟨bytes, size⟩ : ∃ bytes, utf8Length (char :: rest) = bytes + 1 :=
      ⟨utf8Length (char :: rest) - 1, by rw [utf8Length_cons]; omega⟩
    have left : bytes + 1 - char.utf8Size = utf8Length rest := by
      rw [← size, utf8Length_cons]
      omega
    rw [size, List.cons_append, takeBytes?, left, ih,
      if_pos (by rw [utf8Length_cons] at size; omega)]
    rfl

/-- Behind the bytes of characters in front are the other ones. -/
theorem dropBytes?_append (front back : List Char) :
    dropBytes? (utf8Length front) (front ++ back) = some back := by
  induction front with
  | nil => cases back <;> rfl
  | cons char rest ih =>
    have wide := char.utf8Size_pos
    obtain ⟨bytes, size⟩ : ∃ bytes, utf8Length (char :: rest) = bytes + 1 :=
      ⟨utf8Length (char :: rest) - 1, by rw [utf8Length_cons]; omega⟩
    have left : bytes + 1 - char.utf8Size = utf8Length rest := by
      rw [← size, utf8Length_cons]
      omega
    rw [size, List.cons_append, dropBytes?, left, ih,
      if_pos (by rw [utf8Length_cons] at size; omega)]

/-- A part of a text is cut out by its bytes. -/
theorem slice?_append (front inside back : List Char) :
    slice? (utf8Length front) (utf8Length front + utf8Length inside) (front ++ (inside ++ back)) =
      some inside := by
  have taken := takeBytes?_append (front ++ inside) back
  rw [utf8Length_append, List.append_assoc] at taken
  rw [slice?, if_pos (Nat.le_add_right _ _), taken, Option.bind_some, dropBytes?_append]

/-- Between two quotes of one byte each stands what is quoted. -/
theorem unquoted?_quoted {quote : Char} (narrow : quote.utf8Size = 1) (inside : List Char) :
    unquoted? (quote :: (inside ++ [quote])) = some inside := by
  have cut := slice?_append [quote] inside [quote]
  have size : utf8Length (quote :: (inside ++ [quote])) - 1 =
      utf8Length [quote] + utf8Length inside := by
    simp only [utf8Length_cons, utf8Length_append, utf8Length_nil, narrow]
    omega
  have first : utf8Length [quote] = 1 := by rw [utf8Length_cons, utf8Length_nil, narrow]
  rw [unquoted?, size]
  rw [first] at cut ⊢
  exact cut

/-- Every character has a byte. -/
theorem length_le_utf8Length (text : List Char) : text.length ≤ utf8Length text := by
  induction text with
  | nil => exact Nat.le_refl 0
  | cons char rest ih =>
    have wide := char.utf8Size_pos
    rw [List.length_cons, utf8Length_cons]
    omega

end Text

/-- The token before a position. -/
def Token.before? (tokens : List Token) : Nat → Option Token
  | 0 => none
  | position + 1 => tokens[position]?

/-- What the token at a position is as a literal. The token is found again as the one before the
position behind it, and quotes are cut off by bytes; there is no result where one of these is not
possible. -/
def Literal.at? (tokens : List Token) (position : Nat) :
    Option (Except ParseFault (Option Literal)) :=
  match tokens[position]? with
  | none => some (.ok none)
  | some token =>
    match token.kind with
    | .integer | .decimal => (Token.before? tokens (position + 1)).map Literal.ofToken
    | .character => do
      let token ← Token.before? tokens (position + 1)
      let inside ← Text.unquoted? token.literal.toList
      some <| match Text.Escape.decode inside with
        | [value] => .ok (some (.character value))
        | _ => .error .invalidCharacter
    | .string => do
      let token ← Token.before? tokens (position + 1)
      let inside ← Text.unquoted? token.literal.toList
      some (.ok (some (.string (String.ofList (Text.Escape.decode inside)))))
    | .identifier | .operator => some (.ok none)

namespace Token

variable {token : Token}

/-- The quotes of a literal can be cut off, and what is left is its content. -/
theorem Shaped.exists_unquoted (shaped : token.Shaped)
    (quoted : token.kind = .character ∨ token.kind = .string) :
    ∃ inside, Text.unquoted? token.literal.toList = some inside ∧
      token.content = Text.Escape.decode inside := by
  unfold Shaped at shaped
  generalize written : token.literal.toList = word at shaped
  rcases quoted with kind | kind
  · rw [kind] at shaped
    cases shaped with
    | character one => exact ⟨_, Text.unquoted?_quoted rfl _, content_eq written⟩
  · rw [kind] at shaped
    cases shaped with
    | string each => exact ⟨_, Text.unquoted?_quoted rfl _, content_eq written⟩

/-- A name that is a word of its class starts with no digit. -/
theorem Shaped.startsWithDigit_eq_false (shaped : token.Shaped) (named : token.kind = .identifier) :
    Parser.startsWithDigit token.literal = false := by
  unfold Shaped at shaped
  rw [named] at shaped
  unfold Parser.startsWithDigit
  generalize token.literal.toList = word at shaped
  cases shaped with
  | @identifier first rest start parts =>
    cases digit : Text.isDigit first with
    | false => exact digit
    | true =>
      rw [isNameStart_of_isDigit digit] at start
      contradiction

/-- A token that is a word of its class is refused only as a decimal number with more places than
can be counted. -/
theorem Shaped.refused {fault : ParseFault} (shaped : token.Shaped)
    (refused : token.Refused fault) :
    fault = .invalidDecimal ∧ Decimal.scaleLimit ≤ token.literal.toList.length := by
  rcases refused with unreadable | ⟨named, digit, _⟩
  · have valued : token.kind ∈ [TokenKind.integer, .decimal, .character, .string] := by
      cases kind : token.kind <;> simp [Literal.ofToken, kind] at unreadable ⊢
    rcases shaped.exists_denotes valued with ⟨value, denotes⟩ | ⟨_, failed, long⟩
    · rw [denotes.ofToken_eq] at unreadable
      contradiction
    · rw [failed] at unreadable
      injection unreadable with same
      exact ⟨same.symm, long⟩
  · rw [shaped.startsWithDigit_eq_false named] at digit
    contradiction

end Token

/-- On words of the classes, everything that is taken or cut out is there, and what is read is the
value of the token. -/
theorem Literal.at?_eq {tokens : List Token} (shaped : ∀ token ∈ tokens, token.Shaped)
    {position : Nat} {token : Token} (found : tokens[position]? = some token) :
    Literal.at? tokens position = some (Literal.ofToken token) := by
  have before : Token.before? tokens (position + 1) = some token := found
  have word := shaped token (List.mem_of_getElem? found)
  simp only [Literal.at?, found]
  cases kind : token.kind with
  | integer | decimal => simp only [before, Option.map_some]
  | character =>
    obtain ⟨inside, cut, content⟩ := word.exists_unquoted (.inl kind)
    -- Both sides ask whether one character is left.
    rcases decoded : Text.Escape.decode inside with _ | ⟨first, _ | ⟨second, rest⟩⟩ <;>
      simp only [before, cut, Literal.ofToken, kind, content, decoded, Option.bind_eq_bind,
        Option.bind_some]
  | string =>
    obtain ⟨inside, cut, content⟩ := word.exists_unquoted (.inr kind)
    simp only [before, cut, Literal.ofToken, kind, content, Option.bind_eq_bind, Option.bind_some]
  | identifier | operator => simp only [Literal.ofToken, kind]

/-- A token has no more characters than its text has bytes. -/
theorem Token.length_le_of_scan {text : String} {tokens : List Token}
    (scanned : Token.scan text = .ok tokens) {token : Token} (member : token ∈ tokens) :
    token.literal.toList.length ≤ text.utf8ByteSize := by
  obtain ⟨pieces, splits, rfl⟩ := exists_splits_of_scanFrom scanned
  obtain ⟨_, before, after, joined, _⟩ := splits.exists_place member
  have size := utf8ByteSize_ofList text.toList
  rw [String.ofList_toList, joined, Text.utf8Length_append, Text.utf8Length_append] at size
  have wide := Text.length_le_utf8Length token.literal.toList
  omega

/-- The tokens of a text are safe to read. Wherever one of them is looked at as a literal, the token
before the position behind it is there, and so are the bytes between its quotes; what is read there
is what the reader of programs reads. A literal has the value that its text denotes, a literal of a
character holds exactly one, and no name starts with a digit. So the tokens are a program, or the
reason why they are none is that something is missing. Numbers whose places cannot be counted in 64
bits are the only exception; they are in no text that has fewer bytes. -/
theorem scanned_tokens_safe_to_read {text : String} {tokens : List Token}
    (scanned : Token.scan text = .ok tokens) :
    ((∃ program, Program.ofTokens tokens = .ok program) ∨
      ∃ error, Program.ofTokens tokens = .error error ∧ ((∃ what, error.fault = .expected what) ∨
        (error.fault = .invalidDecimal ∧ Decimal.scaleLimit ≤ text.utf8ByteSize))) ∧
    (∀ (position : Nat) (token : Token), tokens[position]? = some token →
      Literal.at? tokens position = some (Literal.ofToken token)) ∧
    ∀ token ∈ tokens,
      (token.kind = .identifier → Parser.startsWithDigit token.literal = false) ∧
      (token.kind = .character → ∃ value, token.content = [value]) ∧
      (token.kind ∈ [TokenKind.integer, .decimal, .character, .string] →
        (∃ value, token.Denotes value ∧ Literal.ofToken token = .ok (some value)) ∨
          (token.kind = .decimal ∧ Decimal.scaleLimit ≤ text.utf8ByteSize)) := by
  have shaped := Token.allShaped_of_scan scanned
  refine ⟨?_, fun position token found => Literal.at?_eq shaped found,
    fun token member => ⟨(shaped token member).startsWithDigit_eq_false, fun kind => ?_,
      fun valued => ?_⟩⟩
  · rw [Program.ofTokens]
    cases stopped : Parser.program tokens with
    | ok program => exact .inl ⟨program, rfl⟩
    | error failure =>
      refine .inr ⟨_, rfl, ?_⟩
      obtain ⟨left, missing | ⟨token, rest, remaining, refused⟩⟩ := Parser.program_fails stopped
      · exact .inl missing
      · have member : token ∈ tokens := left.subset (by simp [remaining])
        obtain ⟨fault, long⟩ := (shaped token member).refused refused
        exact .inr ⟨fault, Nat.le_trans long (Token.length_le_of_scan scanned member)⟩
  · have word := shaped token member
    have valued : token.kind ∈ [TokenKind.integer, .decimal, .character, .string] := by simp [kind]
    rcases word.exists_denotes valued with ⟨value, denotes⟩ | ⟨other, _⟩
    · cases denotes with
      | character _ one written =>
        have decoded := one.decode_append (by decide) []
        rw [List.append_nil] at decoded
        exact ⟨_, by rw [Token.content_eq written, decoded, Text.Escape.decode]⟩
      | integer other | decimal other | string other =>
        rw [kind] at other
        contradiction
    · rw [kind] at other
      contradiction
  · rcases (shaped token member).exists_denotes valued with ⟨value, denotes⟩ | ⟨kind, _, long⟩
    · exact .inl ⟨value, denotes, denotes.ofToken_eq⟩
    · exact .inr ⟨kind, Nat.le_trans long (Token.length_le_of_scan scanned member)⟩

/-- A text with a signed number and quoted characters of several bytes, which is no program. -/
def literalsText : String :=
  "LET x: Any = +1.50 'é' \"\\t€\" END"

/-- A text with a signed number and quoted characters of several bytes is safe to read, though it is
no program. -/
theorem scanned_tokens_safe_to_read_quoted :
    ∃ tokens, Token.scan literalsText = .ok tokens ∧
      ((∃ program, Program.ofTokens tokens = .ok program) ∨
        ∃ error what, Program.ofTokens tokens = .error error ∧ error.fault = .expected what) ∧
      ∀ (position : Nat) (token : Token), tokens[position]? = some token →
        Literal.at? tokens position = some (Literal.ofToken token) := by
  have scanned : Token.scan literalsText =
      .ok [⟨.identifier, "LET", 0⟩, ⟨.identifier, "x", 4⟩, ⟨.operator, ":", 5⟩,
        ⟨.identifier, "Any", 7⟩, ⟨.operator, "=", 11⟩, ⟨.decimal, "+1.50", 13⟩,
        ⟨.character, "'é'", 19⟩, ⟨.string, "\"\\t€\"", 24⟩, ⟨.identifier, "END", 32⟩] :=
    Token.scan_of_toOption (by decide +kernel)
  have short : ¬ Decimal.scaleLimit ≤ literalsText.utf8ByteSize := by
    decide +kernel
  obtain ⟨refused, there, _⟩ := scanned_tokens_safe_to_read scanned
  refine ⟨_, scanned, ?_, there⟩
  rcases refused with read | ⟨error, failed, ⟨what, missing⟩ | ⟨_, long⟩⟩
  · exact .inl read
  · exact .inr ⟨error, what, failed, missing⟩
  · exact absurd long short

end LetDef
