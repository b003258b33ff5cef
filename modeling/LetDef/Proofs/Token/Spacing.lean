import LetDef.Proofs.Token.Tokenization
import Mathlib.Data.List.Forall2

/-!
# Blanks between tokens

No token reaches across a blank that comes after it. So a token stays the longest front of its text
when the text behind it is cut, at its end or at a blank (`Lexeme.Longest.cut`). It follows that the
tokens of a text and of another one behind a blank are read one after the other
(`Token.scan_append`), and that tokens which are written down again with any blanks between them are
read again (`Token.Spaced.exists_scanFrom`).
-/
namespace LetDef

namespace Lexeme

open Text (isDigit)

/-- The second text is a front of the first one, behind which there is nothing, or a blank and
anything. -/
def Cut (rest after : List Char) : Prop :=
  ∃ kept more, kept <+: rest ∧ after = kept ++ more ∧ ∀ char ∈ more.head?, isBlank char = true

variable {kind : TokenKind} {word other text rest after : List Char} {lexeme : Lexeme}

/-- A text may be cut at its end. -/
theorem cut_append_blank (rest more : List Char) {blank : Char} (isBlank : isBlank blank = true) :
    Cut rest (rest ++ blank :: more) :=
  ⟨rest, blank :: more, List.prefix_rfl, rfl, fun _ same => Option.some.inj same ▸ isBlank⟩

/-- A text may be cut at its beginning. -/
theorem cut_of_head (rest : List Char) (apart : ∀ char ∈ after.head?, isBlank char = true) :
    Cut rest after :=
  ⟨[], after, List.nil_prefix, rfl, apart⟩

/-- A blank is no part of a name. -/
theorem isNamePart_of_isBlank {char : Char} (blank : isBlank char = true) :
    isNamePart char = false := by
  simp only [isBlank, Bool.or_eq_true, decide_eq_true_eq] at blank
  rcases blank with (((rfl | rfl) | rfl) | rfl) | rfl <;> rfl

/-- A part of a name is no blank. -/
theorem isBlank_of_isNamePart {char : Char} (part : isNamePart char = true) :
    isBlank char = false := by
  cases blank : isBlank char with
  | false => rfl
  | true =>
    rw [isNamePart_of_isBlank blank] at part
    contradiction

/-- A digit may be part of a name. -/
theorem isNamePart_of_isDigit {char : Char} (digit : isDigit char = true) :
    isNamePart char = true := by
  simp only [isNamePart, digit, Bool.or_true, Bool.true_or]

/-- A blank is no digit. -/
theorem isDigit_of_isBlank {char : Char} (blank : isBlank char = true) : isDigit char = false := by
  cases digit : isDigit char with
  | false => rfl
  | true =>
    rw [isBlank_of_isNamePart (isNamePart_of_isDigit digit)] at blank
    contradiction

/-- No digits begin behind a cut where none did before. -/
theorem Cut.startsDigit_eq_false (cut : Cut rest after) (none : startsDigit rest = false) :
    startsDigit after = false := by
  obtain ⟨kept, more, ⟨others, rfl⟩, rfl, apart⟩ := cut
  cases kept with
  | cons first kept => exact none
  | nil =>
    cases more with
    | nil => rfl
    | cons first more => exact isDigit_of_isBlank (apart first rfl)

/-- No blank is among signs. -/
theorem IsSigns.isBlank_eq_false {signs : List Char} (signed : IsSigns signs) {char : Char}
    (member : char ∈ signs) : isBlank char = false := by
  rcases signed with rfl | rfl | rfl
  · contradiction
  · obtain rfl := List.mem_singleton.mp member
    rfl
  · obtain rfl := List.mem_singleton.mp member
    rfl

/-- No blank is among digits. -/
theorem IsDigits.isBlank_eq_false {digits : List Char} (whole : IsDigits digits) {char : Char}
    (member : char ∈ digits) : isBlank char = false :=
  isBlank_of_isNamePart (isNamePart_of_isDigit (whole.digits char member))

/-- A word that is no literal in quotes holds no blank. -/
theorem isBlank_eq_false_of_mem (isWord : kind.Word word)
    (bare : ¬ (kind = .character ∨ kind = .string)) {char : Char} (member : char ∈ word) :
    isBlank char = false := by
  cases isWord with
  | identifier start parts =>
    have isWord := TokenKind.Word.identifier start parts
    exact isBlank_of_isNamePart (isWord.isNamePart char member)
  | integer signed whole =>
    rcases List.mem_append.mp member with sign | digit
    · exact signed.isBlank_eq_false sign
    · exact whole.isBlank_eq_false digit
  | decimal signed whole fraction =>
    rw [List.append_assoc, List.mem_append, List.mem_append, List.mem_cons] at member
    rcases member with sign | digit | rfl | digit
    · exact signed.isBlank_eq_false sign
    · exact whole.isBlank_eq_false digit
    · rfl
    · exact fraction.isBlank_eq_false digit
  | character => exact absurd (.inl rfl) bare
  | string => exact absurd (.inr rfl) bare
  | comparison start =>
    simp only [isComparisonStart, Bool.or_eq_true, decide_eq_true_eq] at start
    simp only [List.mem_cons, List.not_mem_nil, or_false] at member
    rcases member with rfl | rfl
    · rcases start with ((rfl | rfl) | rfl) | rfl <;> rfl
    · rfl
  | single choice =>
    obtain rfl := List.mem_singleton.mp member
    cases blank : isBlank char with
    | false => rfl
    | true => simp [kindsAt, blank] at choice

/-- Of the words of a class of literals in quotes, at most one is in front of a text. -/
theorem eq_of_quoted (quoted : kind = .character ∨ kind = .string) (isWord : kind.Word word)
    (isOther : kind.Word other) (before : word <+: text) (otherBefore : other <+: text) :
    word = other := by
  obtain ⟨rest, rfl⟩ := before
  obtain ⟨after, joined⟩ := otherBefore
  rcases quoted with rfl | rfl
  · cases isWord with | character one
    cases isOther with | character item
    simp only [List.cons_append, List.append_assoc, List.nil_append, List.cons.injEq,
      true_and] at joined
    have read := character_of_item one rest
    rw [← joined, character_of_item item after] at read
    simp only [Except.ok.injEq, mk.injEq, true_and] at read
    exact read.1.symm
  · cases isWord with | string each
    cases isOther with | string eachOther
    simp only [List.cons_append, List.append_assoc, List.nil_append, List.cons.injEq,
      true_and] at joined
    have read := stringContent_of_items each rest
    rw [← joined, stringContent_of_items eachOther after] at read
    simp only [Except.ok.injEq, Prod.mk.injEq] at read
    rw [read.1]

/-- A class of literals in quotes is chosen alone. -/
theorem kindsAt_of_quoted (quoted : kind = .character ∨ kind = .string)
    (chosen : kind ∈ kindsAt text) : kindsAt text = [kind] := by
  obtain ⟨char, rest, rfl, solid⟩ := exists_cons_of_kindsAt chosen
  have begins := begins_first rest solid
  generalize kindsAt (char :: rest) = kinds at begins chosen ⊢
  generalize first char rest = result at begins
  cases begins with
  | unsigned | signed => rcases quoted with rfl | rfl <;> simp at chosen
  | _ => rw [List.mem_singleton.mp chosen]

/-- A sign is no number. -/
theorem not_word_sign {sign : Char} (signed : isSign sign = true)
    (numeric : kind ∈ [TokenKind.integer, .decimal]) : ¬ kind.Word [sign] := by
  intro isWord
  have parts : ∃ signs digits more : List Char, IsDigits digits ∧
      signs ++ digits ++ more = [sign] := by
    generalize [sign] = word at isWord
    cases isWord with
    | @integer signs digits _ whole => exact ⟨signs, digits, [], whole, List.append_nil _⟩
    | @decimal signs digits places _ whole _ => exact ⟨signs, digits, _, whole, rfl⟩
    | _ => simp at numeric
  obtain ⟨signs, digits, more, whole, joined⟩ := parts
  obtain ⟨digit, others, rfl, begins⟩ := whole.exists_cons
  -- There is room for one digit alone, and the sign is none.
  have member : digit ∈ [sign] := joined ▸ by simp
  rw [List.mem_singleton.mp member, isDigit_of_isSign signed] at begins
  contradiction

/-- No digit follows a sign that is a token. -/
theorem Longest.startsDigit_eq_false {sign : Char} (longest : lexeme.Longest (kindsAt text) text)
    (alone : lexeme.chars = [sign]) (signed : isSign sign = true) :
    startsDigit lexeme.rest = false := by
  cases digit : startsDigit lexeme.rest with
  | false => rfl
  | true =>
    have kinds : kindsAt text = [.integer, .decimal] := by
      rw [← longest.whole, alone]
      simp only [isSign, Bool.or_eq_true, decide_eq_true_eq] at signed
      rcases signed with rfl | rfl
      · exact if_pos digit
      · exact if_pos digit
    exact absurd (alone ▸ longest.word) (not_word_sign signed (kinds ▸ longest.chosen))

/-- The text of a token chooses the same classes behind a cut. -/
theorem Longest.kindsAt_cut (longest : lexeme.Longest (kindsAt text) text)
    (cut : Cut lexeme.rest after) : kindsAt (lexeme.chars ++ after) = kindsAt text := by
  rw [← longest.whole]
  cases spelled : lexeme.chars with
  | nil => exact absurd spelled longest.word.ne_nil
  | cons first others =>
    -- Only behind a sign does the choice depend on the second character.
    have second : isSign first = true → startsDigit (others ++ after) =
        startsDigit (others ++ lexeme.rest) := by
      intro signed
      cases others with
      | cons next others => rfl
      | nil =>
        have none := longest.startsDigit_eq_false spelled signed
        exact (cut.startsDigit_eq_false none).trans none.symm
    cases signed : isSign first with
    | false => simp only [List.cons_append, kindsAt, signed, Bool.false_and]
    | true => simp only [List.cons_append, kindsAt, second signed]

/-- A token is still the longest front of its text when what is behind it is cut. -/
theorem Longest.cut (longest : lexeme.Longest (kindsAt text) text) (cut : Cut lexeme.rest after) :
    Longest ⟨lexeme.kind, lexeme.chars, after⟩ (kindsAt (lexeme.chars ++ after))
      (lexeme.chars ++ after) := by
  rw [longest.kindsAt_cut cut]
  refine ⟨rfl, longest.chosen, longest.word, fun kind chosen word isWord before => ?_⟩
  obtain ⟨kept, more, keptBefore, rfl, apart⟩ := cut
  have whole : lexeme.chars ++ kept <+: text := by
    rw [← longest.whole]
    exact (List.prefix_append_right_inj _).mpr keptBefore
  by_cases quoted : kind = .character ∨ kind = .string
  · have same : lexeme.kind = kind := by
      have choice := longest.chosen
      rw [kindsAt_of_quoted quoted chosen] at choice
      exact List.mem_singleton.mp choice
    have own : kind.Word lexeme.chars := same ▸ longest.word
    have equal := eq_of_quoted quoted isWord own before (List.prefix_append _ _)
    exact Nat.le_of_eq (congrArg List.length equal)
  · rw [← List.append_assoc] at before
    rcases Nat.le_total word.length (lexeme.chars ++ kept).length with short | long
    · have inside := List.prefix_of_prefix_length_le before (List.prefix_append _ _) short
      exact longest.most kind chosen word isWord (inside.trans whole)
    · obtain ⟨extra, rfl⟩ := List.prefix_of_prefix_length_le (List.prefix_append _ _) before long
      cases extra with
      | nil =>
        rw [List.append_nil] at isWord ⊢
        exact longest.most kind chosen _ isWord whole
      | cons blank extra =>
        -- A longer word would hold the blank.
        obtain ⟨behind, rfl⟩ := (List.prefix_append_right_inj _).mp before
        have solid := isBlank_eq_false_of_mem isWord quoted
          (List.mem_append_right _ List.mem_cons_self)
        rw [apart blank rfl] at solid
        contradiction

/-- Reading a text that begins with no blank gives its first token and the tokens behind it, or the
reason why there is none. -/
theorem scanFrom_cons {char : Char} (solid : isBlank char = false) (rest : List Char)
    (index : Nat) :
    Token.scanFrom index (char :: rest) =
      match first char rest with
      | .error stuck => .error ⟨index + Text.utf8Length stuck.accepted, stuck.fault⟩
      | .ok lexeme =>
        (Token.scanFrom (index + Text.utf8Length lexeme.chars) lexeme.rest).map
          (⟨lexeme.kind, String.ofList lexeme.chars, index⟩ :: ·) := by
  rw [Token.scanFrom, if_neg (by simp [solid])]
  split
  next stuck read => rw [read]
  next lexeme read =>
    simp only [read]
    cases Token.scanFrom (index + Text.utf8Length lexeme.chars) lexeme.rest <;> rfl

/-- Reading a text that begins with a token gives that token and the tokens behind it. -/
theorem Longest.scanFrom_eq (longest : lexeme.Longest (kindsAt text) text) (index : Nat) :
    Token.scanFrom index text =
      (Token.scanFrom (index + Text.utf8Length lexeme.chars) lexeme.rest).map
        (⟨lexeme.kind, String.ofList lexeme.chars, index⟩ :: ·) := by
  obtain ⟨char, rest, rfl, solid, read⟩ := longest.exists_first
  rw [scanFrom_cons solid, read]

/-- A literal in quotes is a token whatever text is behind it. -/
theorem longest_quoted (quoted : kind = .character ∨ kind = .string) (isWord : kind.Word word)
    (rest : List Char) :
    Longest ⟨kind, word, rest⟩ (kindsAt (word ++ rest)) (word ++ rest) := by
  rcases quoted with rfl | rfl
  · cases isWord with | @character content one
    rw [List.cons_append, List.append_assoc, List.singleton_append]
    exact longest_character (character_of_item one rest)
  · cases isWord with | @string items each
    have read : string (items.flatten ++ '"' :: rest) =
        .ok ⟨.string, '"' :: (items.flatten ++ ['"']), rest⟩ := by
      rw [string, stringContent_of_items each rest]
      rfl
    rw [List.cons_append, List.append_assoc, List.singleton_append]
    exact longest_string read

/-- The tokens of a text come first when a blank and another text are put behind it. -/
theorem Splits.scanFrom_append {pieces : List Piece} (splits : Splits text pieces) {blank : Char}
    (isBlank : isBlank blank = true) (more : List Char) (index : Nat) :
    Token.scanFrom index (text ++ blank :: more) =
      (Token.scanFrom (index + Text.utf8Length text + blank.utf8Size) more).map
        (tokensFrom index pieces ++ ·) := by
  induction splits generalizing index with
  | nil =>
    rw [List.nil_append, Token.scanFrom, if_pos isBlank, Text.utf8Length_nil, Nat.add_zero]
    cases Token.scanFrom (index + blank.utf8Size) more <;> rfl
  | @blank char rest pieces first _ ih =>
    rw [List.cons_append, Token.scanFrom, if_pos first, ih, Text.utf8Length_cons, Nat.add_assoc
      index, tokensFrom]
  | @token text pieces lexeme longest _ ih =>
    have further := longest.cut (cut_append_blank lexeme.rest more isBlank)
    have joined : text ++ blank :: more = lexeme.chars ++ (lexeme.rest ++ blank :: more) := by
      rw [← List.append_assoc, longest.whole]
    have size : index + Text.utf8Length text =
        index + Text.utf8Length lexeme.chars + Text.utf8Length lexeme.rest := by
      rw [← longest.whole, Text.utf8Length_append, Nat.add_assoc]
    rw [joined, further.scanFrom_eq, ih, size, tokensFrom]
    cases Token.scanFrom _ more <;> rfl

end Lexeme

open Lexeme

/-- The token in a text that begins some bytes later. -/
def Token.shift (bytes : Nat) (token : Token) : Token :=
  { token with index := bytes + token.index }

/-- The error in a text that begins some bytes later. -/
def LexError.shift (bytes : Nat) (error : LexError) : LexError :=
  { error with index := bytes + error.index }

/-- What is read from a text that begins some bytes later. -/
def Token.shiftAll (bytes : Nat) : Except LexError (List Token) → Except LexError (List Token)
  | .ok tokens => .ok (tokens.map (shift bytes))
  | .error error => .error (error.shift bytes)

/-- Two tokens have the same class and the same text. -/
structure Token.Alike (one other : Token) : Prop where
  /-- They have the same class. -/
  kind : one.kind = other.kind
  /-- They have the same text. -/
  literal : one.literal = other.literal

/-- The token is what some text begins with. -/
def Token.Lexed (token : Token) : Prop :=
  ∃ rest, Longest ⟨token.kind, token.literal.toList, rest⟩ (kindsAt (token.literal.toList ++ rest))
    (token.literal.toList ++ rest)

/-- The text is made of the texts of the tokens in order and of blanks, of which there is one at
least between two tokens. -/
inductive Token.Spaced : List Token → List Char → Prop where
  | nil : Spaced [] []
  | blank {tokens text char} (blank : isBlank char = true) (later : Spaced tokens text) :
    Spaced tokens (char :: text)
  | token {token tokens text} (later : Spaced tokens text)
    (apart : ∀ char ∈ text.head?, isBlank char = true) :
    Spaced (token :: tokens) (token.literal.toList ++ text)

namespace Token

/-- A text that begins some bytes later is read in the same way. -/
theorem scanFrom_add (bytes index : Nat) (text : List Char) :
    scanFrom (bytes + index) text = shiftAll bytes (scanFrom index text) := by
  fun_induction scanFrom index text with
  | case1 index => rw [scanFrom, shiftAll, List.map_nil]
  | case2 index char rest blank ih => rw [scanFrom, if_pos blank, Nat.add_assoc, ih]
  | case3 index char rest solid stuck read =>
    rw [scanFrom_cons (Bool.not_eq_true _ ▸ solid), read]
    simp only [Nat.add_assoc]
    rfl
  | case4 index char rest solid lexeme read error failed ih =>
    rw [scanFrom_cons (Bool.not_eq_true _ ▸ solid), read]
    simp only [Nat.add_assoc, ih, failed]
    rfl
  | case5 index char rest solid lexeme read later rescanned ih =>
    rw [scanFrom_cons (Bool.not_eq_true _ ▸ solid), read]
    simp only [Nat.add_assoc, ih, rescanned]
    rfl

/-- The tokens of a text, a blank and another text are those of the first text and those of the
second at its place; where the second cannot be read, the error is at its place. -/
theorem scan_append {text : String} {tokens : List Token} (scanned : scan text = .ok tokens)
    {blank : Char} (isBlank : isBlank blank = true) (more : String) :
    scan (text ++ String.singleton blank ++ more) =
      (shiftAll (text ++ String.singleton blank).utf8ByteSize (scan more)).map (tokens ++ ·) := by
  obtain ⟨pieces, splits, rfl⟩ := exists_splits_of_scanFrom scanned
  have whole : (text ++ String.singleton blank ++ more).toList =
      text.toList ++ blank :: more.toList := by
    simp only [String.toList_append, String.toList_singleton, List.append_assoc,
      List.singleton_append]
  have size : (text ++ String.singleton blank).utf8ByteSize =
      0 + Text.utf8Length text.toList + blank.utf8Size := by
    rw [String.utf8ByteSize_append, String.utf8ByteSize_singleton, ← utf8ByteSize_ofList,
      String.ofList_toList, Nat.zero_add]
  rw [scan, whole, splits.scanFrom_append isBlank, scan, size, ← scanFrom_add, Nat.add_zero]

/-- Every token of a text is what some text begins with. -/
theorem lexed_of_splits {text : List Char} {pieces : List Piece} (splits : Splits text pieces)
    (index : Nat) : ∀ token ∈ tokensFrom index pieces, token.Lexed := by
  induction splits generalizing index with
  | nil => simp [tokensFrom]
  | blank _ _ ih => exact ih _
  | @token text pieces lexeme longest _ ih =>
    refine List.forall_mem_cons.mpr ⟨⟨lexeme.rest, ?_⟩, ih _⟩
    rw [String.toList_ofList, longest.whole]
    exact longest

/-- Tokens that are written down with blanks between them are read again. -/
theorem Spaced.exists_scanFrom {tokens : List Token} {text : List Char}
    (spaced : Spaced tokens text) (lexed : ∀ token ∈ tokens, token.Lexed) (index : Nat) :
    ∃ again, scanFrom index text = .ok again ∧ List.Forall₂ Alike tokens again := by
  induction spaced generalizing index with
  | nil => exact ⟨[], by rw [scanFrom], .nil⟩
  | blank blank _ ih =>
    rw [scanFrom, if_pos blank]
    exact ih lexed _
  | @token token tokens text _ apart ih =>
    obtain ⟨⟨rest, longest⟩, others⟩ := List.forall_mem_cons.mp lexed
    have again := longest.cut (cut_of_head rest apart)
    obtain ⟨later, scanned, alike⟩ := ih others (index + Text.utf8Length token.literal.toList)
    refine ⟨⟨token.kind, String.ofList token.literal.toList, index⟩ :: later, ?_,
      .cons ⟨rfl, String.ofList_toList.symm⟩ alike⟩
    rw [again.scanFrom_eq, scanned]
    rfl

/-- Every token of a text is what some text begins with. -/
theorem lexed_of_scan {text : String} {tokens : List Token} (scanned : scan text = .ok tokens) :
    ∀ token ∈ tokens, token.Lexed := by
  obtain ⟨pieces, splits, rfl⟩ := exists_splits_of_scanFrom scanned
  exact lexed_of_splits splits 0

/-- The texts of some tokens in order, each with its own characters behind it. -/
def joined (tokens : List (Token × List Char)) : List Char :=
  tokens.flatMap fun (token, gap) => token.literal.toList ++ gap

/-- Tokens that are joined with blanks are spaced by them. -/
theorem spaced_joined {tokens : List (Token × List Char)}
    (gaps : ∀ pair ∈ tokens, pair.2 ≠ [] ∧ ∀ char ∈ pair.2, isBlank char = true) :
    Spaced (tokens.map Prod.fst) (joined tokens) := by
  induction tokens with
  | nil => exact .nil
  | cons pair rest ih =>
    obtain ⟨token, gap⟩ := pair
    obtain ⟨⟨filled, blanks⟩, others⟩ := List.forall_mem_cons.mp gaps
    have behind : ∀ gap : List Char, (∀ char ∈ gap, isBlank char = true) →
        Spaced (rest.map Prod.fst) (gap ++ joined rest) := by
      intro gap blanks
      induction gap with
      | nil => exact ih others
      | cons char gap further =>
        obtain ⟨blank, blanks⟩ := List.forall_mem_cons.mp blanks
        exact .blank blank (further blanks)
    obtain ⟨char, gap, rfl⟩ := List.exists_cons_of_ne_nil filled
    have head := blanks char List.mem_cons_self
    have spaced : Spaced (token :: rest.map Prod.fst)
        (token.literal.toList ++ (char :: gap ++ joined rest)) :=
      .token (behind (char :: gap) blanks) fun first same => Option.some.inj same ▸ head
    rwa [← List.append_assoc] at spaced

end Token

end LetDef
