import LetDef.Proofs.Token.Classes

/-!
# The split of a text into blanks and tokens

A text splits into pieces, each a blank or the longest front that is a word of a class which its
first characters choose (`Lexeme.Splits`). A text is read as tokens exactly if it splits, and they
are those of the split, which is unique, at their places in the text (`scan_eq_ok_iff_splits`).
-/
namespace LetDef

namespace Lexeme

/-- A piece of a text. -/
inductive Piece where
  /-- A blank. -/
  | blank (char : Char)
  /-- A token by its class and its word. -/
  | token (kind : TokenKind) (word : List Char)

/-- The text splits into the pieces, each token being as long as it can be. -/
inductive Splits : List Char → List Piece → Prop where
  | nil : Splits [] []
  | blank {char rest pieces} (blank : isBlank char = true) (later : Splits rest pieces) :
    Splits (char :: rest) (.blank char :: pieces)
  | token {text pieces} {lexeme : Lexeme} (longest : lexeme.Longest (kindsAt text) text)
    (later : Splits lexeme.rest pieces) :
    Splits text (.token lexeme.kind lexeme.chars :: pieces)

/-- The tokens among the pieces of a text that begins at byte `index`. -/
def tokensFrom (index : Nat) : List Piece → List Token
  | [] => []
  | .blank char :: pieces => tokensFrom (index + char.utf8Size) pieces
  | .token kind word :: pieces =>
    ⟨kind, String.ofList word, index⟩ :: tokensFrom (index + Text.utf8Length word) pieces

variable {text : List Char} {pieces others : List Piece} {lexeme : Lexeme}

/-- Where a class is chosen, the text begins with no blank. -/
theorem exists_cons_of_kindsAt {kind : TokenKind} (chosen : kind ∈ kindsAt text) :
    ∃ char rest, text = char :: rest ∧ isBlank char = false := by
  cases text with
  | nil => simp [kindsAt] at chosen
  | cons char rest =>
    refine ⟨char, rest, rfl, ?_⟩
    cases blank : isBlank char with
    | false => rfl
    | true => simp [kindsAt, blank] at chosen

/-- Where a token is in front, the text begins with no blank and reading finds it. -/
theorem Longest.exists_first (longest : lexeme.Longest (kindsAt text) text) :
    ∃ char rest, text = char :: rest ∧ isBlank char = false ∧ first char rest = .ok lexeme := by
  obtain ⟨char, rest, rfl, solid⟩ := exists_cons_of_kindsAt longest.chosen
  exact ⟨char, rest, rfl, solid, (first_eq_ok_iff solid).mpr longest⟩

/-- A text splits in one way at most. -/
theorem Splits.unique (splits : Splits text pieces) (also : Splits text others) :
    pieces = others := by
  induction splits generalizing others with
  | nil =>
    cases also with
    | nil => rfl
    | token longest =>
      obtain ⟨_, _, same, _⟩ := exists_cons_of_kindsAt longest.chosen
      contradiction
  | blank blank _ ih =>
    cases also with
    | blank _ later => rw [ih later]
    | token longest =>
      obtain ⟨_, _, same, solid⟩ := exists_cons_of_kindsAt longest.chosen
      injection same with same
      rw [← same, blank] at solid
      contradiction
  | token longest _ ih =>
    cases also with
    | nil =>
      obtain ⟨_, _, same, _⟩ := exists_cons_of_kindsAt longest.chosen
      contradiction
    | blank blank =>
      obtain ⟨_, _, same, solid⟩ := exists_cons_of_kindsAt longest.chosen
      injection same with same
      rw [← same, blank] at solid
      contradiction
    | token otherLongest later =>
      obtain rfl := longest.unique otherLongest
      rw [ih later]

/-- What is read as tokens splits, and the tokens are those of the split. -/
theorem exists_splits_of_scanFrom {index : Nat} {tokens : List Token}
    (scanned : Token.scanFrom index text = .ok tokens) :
    ∃ pieces, Splits text pieces ∧ tokens = tokensFrom index pieces := by
  fun_induction Token.scanFrom index text generalizing tokens with
  | case1 =>
    injection scanned with same
    exact ⟨[], .nil, same.symm⟩
  | case2 index char rest blank ih =>
    obtain ⟨pieces, splits, rfl⟩ := ih scanned
    exact ⟨_, .blank blank splits, rfl⟩
  | case3 => contradiction
  | case4 => contradiction
  | case5 index char rest solid lexeme read later rescanned ih =>
    obtain ⟨pieces, splits, rfl⟩ := ih rescanned
    injection scanned with same
    subst same
    have longest := longest_of_first (Bool.not_eq_true _ ▸ solid) read
    exact ⟨_, .token longest splits, rfl⟩

/-- A text that splits is read as the tokens of the split. -/
theorem Splits.scanFrom_eq (splits : Splits text pieces) (index : Nat) :
    Token.scanFrom index text = .ok (tokensFrom index pieces) := by
  induction splits generalizing index with
  | nil => rw [Token.scanFrom, tokensFrom]
  | blank blank _ ih => rw [Token.scanFrom, if_pos blank, ih, tokensFrom]
  | token longest _ ih =>
    obtain ⟨char, rest, rfl, solid, read⟩ := longest.exists_first
    rw [Token.scanFrom, if_neg (by simp [solid])]
    split
    next stuck failed =>
      rw [read] at failed
      contradiction
    next found again =>
      rw [read] at again
      injection again with same
      subst same
      rw [ih, tokensFrom]

/-- The bytes of a text made of characters. -/
theorem utf8ByteSize_ofList (chars : List Char) :
    (String.ofList chars).utf8ByteSize = Text.utf8Length chars := by
  induction chars with
  | nil => rfl
  | cons first rest ih =>
    rw [String.ofList_cons, String.utf8ByteSize_append, String.utf8ByteSize_singleton, ih,
      Text.utf8Length_cons]

/-- A token stands where the pieces before it end, and it is a word of its class. -/
theorem Splits.exists_place (splits : Splits text pieces) {index : Nat} {token : Token}
    (member : token ∈ tokensFrom index pieces) :
    token.kind.Word token.literal.toList ∧
      ∃ before after, text = before ++ token.literal.toList ++ after ∧
        token.index = index + Text.utf8Length before := by
  induction splits generalizing index with
  | nil => simp [tokensFrom] at member
  | @blank char _ _ _ _ ih =>
    obtain ⟨word, before, after, rfl, place⟩ := ih member
    refine ⟨word, char :: before, after, rfl, ?_⟩
    rw [place, Text.utf8Length_cons, Nat.add_assoc]
  | @token _ _ lexeme longest _ ih =>
    rcases List.mem_cons.mp member with rfl | later
    · refine ⟨?_, [], lexeme.rest, ?_, rfl⟩
      · rw [String.toList_ofList]
        exact longest.word
      · rw [String.toList_ofList, List.nil_append, longest.whole]
    · obtain ⟨word, before, after, joined, place⟩ := ih later
      refine ⟨word, lexeme.chars ++ before, after, ?_, ?_⟩
      · rw [← longest.whole, joined]
        simp only [List.append_assoc]
      · rw [place, Text.utf8Length_append, Nat.add_assoc]

/-- Tokens stand one after the other: each begins where the one before it ends, or later. -/
theorem pairwise_tokensFrom (index : Nat) (pieces : List Piece) :
    (tokensFrom index pieces).Pairwise (fun left right => left.stop ≤ right.index) ∧
      ∀ token ∈ tokensFrom index pieces, index ≤ token.index := by
  induction pieces generalizing index with
  | nil => simp [tokensFrom]
  | cons piece pieces ih =>
    cases piece with
    | blank char =>
      obtain ⟨ordered, after⟩ := ih (index + char.utf8Size)
      exact ⟨ordered, fun token member => Nat.le_of_add_right_le (after token member)⟩
    | token kind word =>
      obtain ⟨ordered, after⟩ := ih (index + Text.utf8Length word)
      refine ⟨List.pairwise_cons.mpr ⟨fun token member => ?_, ordered⟩, ?_⟩
      · rw [Token.stop, utf8ByteSize_ofList]
        exact after token member
      · exact List.forall_mem_cons.mpr
          ⟨Nat.le_refl _, fun token member => Nat.le_of_add_right_le (after token member)⟩

end Lexeme

/-- No class has the empty word. -/
theorem TokenKind.Word.ne_nil {kind : TokenKind} {word : List Char} (isWord : kind.Word word) :
    word ≠ [] := by
  cases isWord with
  | integer _ whole => simp [whole.filled]
  | _ => simp

/-- Where the tokens of a text are found, they are what reading it gives. -/
theorem Token.scan_of_toOption {text : String} {tokens : List Token}
    (found : (Token.scan text).toOption = some tokens) : Token.scan text = .ok tokens := by
  cases scanned : Token.scan text with
  | error error =>
    rw [scanned] at found
    contradiction
  | ok others =>
    rw [scanned] at found
    injection found with same
    rw [same]

open Lexeme in
/-- A text is read as tokens exactly if it splits into blanks and tokens, each the longest front of
what is left that is a word of a class chosen there. The split is unique and the tokens are its
tokens in order: each is the part of the text from its byte index to its end, none is empty, and
none begins before the one before it has ended. -/
theorem scan_eq_ok_iff_splits (text : String) :
    (∀ tokens, Token.scan text = .ok tokens ↔
      ∃ pieces, Splits text.toList pieces ∧ tokens = tokensFrom 0 pieces) ∧
    (∀ pieces others, Splits text.toList pieces → Splits text.toList others → pieces = others) ∧
    ∀ tokens, Token.scan text = .ok tokens →
      (∀ token ∈ tokens, token.index < token.stop ∧
        ∃ before after, text = before ++ token.literal ++ after ∧
          token.index = before.utf8ByteSize) ∧
      tokens.Pairwise (fun left right => left.index < right.index ∧ left.stop ≤ right.index) := by
  have exact_split : ∀ tokens, Token.scan text = .ok tokens ↔
      ∃ pieces, Splits text.toList pieces ∧ tokens = tokensFrom 0 pieces := by
    refine fun tokens => ⟨exists_splits_of_scanFrom, ?_⟩
    rintro ⟨pieces, splits, rfl⟩
    exact splits.scanFrom_eq 0
  refine ⟨exact_split, fun _ _ splits also => splits.unique also, fun tokens scanned => ?_⟩
  obtain ⟨pieces, splits, rfl⟩ := (exact_split tokens).mp scanned
  -- Places are counted in bytes, of which every character has one at least.
  have filled : ∀ token ∈ tokensFrom 0 pieces, token.index < token.stop := by
    intro token member
    obtain ⟨isWord, _⟩ := splits.exists_place member
    have size := utf8ByteSize_ofList token.literal.toList
    obtain ⟨char, rest, spelled⟩ := List.exists_cons_of_ne_nil isWord.ne_nil
    have wide := char.utf8Size_pos
    rw [String.ofList_toList, spelled, Text.utf8Length_cons] at size
    rw [Token.stop]
    omega
  refine ⟨fun token member => ⟨filled token member, ?_⟩, ?_⟩
  · obtain ⟨_, before, after, joined, place⟩ := splits.exists_place member
    refine ⟨String.ofList before, String.ofList after, ?_, ?_⟩
    · rw [← String.toList_inj, joined]
      simp only [String.toList_append, String.toList_ofList]
    · rw [place, utf8ByteSize_ofList, Nat.zero_add]
  · refine (pairwise_tokensFrom 0 pieces).1.imp_of_mem fun left _ apart => ⟨?_, apart⟩
    exact Nat.lt_of_lt_of_le (filled _ left) apart

open Lexeme in
/-- After a character of two bytes and a blank, a sign, digits and places make one number, and the
comparison behind it is one operator. -/
theorem scan_eq_ok_iff_splits_signed :
    ∃ pieces, Splits "é -1.50<=x".toList pieces ∧
      [⟨.operator, "é", 0⟩, ⟨.decimal, "-1.50", 3⟩, ⟨.operator, "<=", 8⟩, ⟨.identifier, "x", 10⟩] =
        tokensFrom 0 pieces := by
  refine ((scan_eq_ok_iff_splits "é -1.50<=x").1 _).mp (Token.scan_of_toOption ?_)
  decide +kernel

end LetDef
