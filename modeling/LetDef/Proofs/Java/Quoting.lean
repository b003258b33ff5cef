import LetDef.Java.Expression
import LetDef.Proofs.Program.Parsing
import LetDef.Proofs.Token.Spacing

/-!
# Literals in quotes in Java, read again

The Java text of a character or a string is a token of its class in front of any text, and that
token is read as the character or the string again (`Literal.Recovers`). Each character is written
as something that stands for it between its quotes (`Lexeme.means_encodeChar`): the writer puts a
backslash before more characters than need one, but only where the reader knows what the two mean
together.
-/
namespace LetDef

open Lexeme Text

/-- Whatever tokens follow it, the token is read as a literal of the value. -/
def Token.ReadsAs (token : Token) (value : Literal) : Prop :=
  ∀ rest, Parser.Gives (Parser.primary (token :: rest)) (.literal value none) rest

/-- The Java text of the literal, with any text behind it, is read as one token of the class and
then as what is behind it; and that token is read as the literal. -/
structure Literal.Recovers (value : Literal) (kind : TokenKind) : Prop where
  /-- The token comes first, and the tokens of the text behind it follow at their places. -/
  scans : ∀ text, Token.scan (Java.literal value ++ text) =
    (Token.shiftAll (Java.literal value).utf8ByteSize (Token.scan text)).map
      (⟨kind, Java.literal value, 0⟩ :: ·)
  /-- The token is read as the literal. -/
  reads : Token.ReadsAs ⟨kind, Java.literal value, 0⟩ value

namespace Lexeme

variable {quote char : Char} {excluded : List Char}

/-- The characters that are written with a backslash between any quotes. -/
def alwaysEscaped : List Char := ['\x08', '\n', '\r', '\t', '\\']

/-- A character that is neither the quote nor always escaped is written as it is. -/
theorem encodeChar_of_not_mem (plain : char ∉ quote :: alwaysEscaped) :
    Escape.encodeChar quote char = [char] := by
  simp only [alwaysEscaped, List.mem_cons, List.not_mem_nil, or_false, not_or] at plain
  obtain ⟨noQuote, noBackspace, noNewline, noReturn, noTab, noBackslash⟩ := plain
  rw [Escape.encodeChar, if_neg noBackspace, if_neg noNewline, if_neg noReturn, if_neg noTab,
    if_neg noBackslash, if_neg noQuote]

/-- The quote, and what is always escaped, is written as a backslash and a mark that means it. -/
theorem exists_mark_of_mem (quotes : quote ∈ ['\'', '"'])
    (special : char ∈ quote :: alwaysEscaped) :
    ∃ mark, Escape.encodeChar quote char = ['\\', mark] ∧ Escape.isMark mark = true ∧
      Escape.meaning mark = char := by
  simp only [alwaysEscaped, List.mem_cons, List.not_mem_nil, or_false] at quotes special
  rcases special with rfl | rfl | rfl | rfl | rfl | rfl
  · rcases quotes with rfl | rfl <;> exact ⟨_, rfl, rfl, rfl⟩
  · exact ⟨'b', rfl, rfl, rfl⟩
  · exact ⟨'n', rfl, rfl, rfl⟩
  · exact ⟨'r', rfl, rfl, rfl⟩
  · exact ⟨'t', rfl, rfl, rfl⟩
  · exact ⟨'\\', rfl, rfl, rfl⟩

/-- A character that is neither the quote nor always escaped is neither the quote nor a
backslash. -/
theorem ne_of_not_mem (plain : char ∉ quote :: alwaysEscaped) : char ≠ quote ∧ char ≠ '\\' := by
  refine ⟨fun same => plain (same ▸ List.mem_cons_self), ?_⟩
  rintro rfl
  exact plain (List.mem_cons_of_mem _ (by decide))

/-- The texts that stand between two quotes: marks behind backslashes, and characters that are
written as they are. -/
inductive Escaped (quote : Char) : List Char → Prop where
  | nil : Escaped quote []
  | mark {mark rest} (marked : Escape.isMark mark = true) (later : Escaped quote rest) :
    Escaped quote ('\\' :: mark :: rest)
  | plain {char rest} (ordinary : char ∉ quote :: alwaysEscaped) (later : Escaped quote rest) :
    Escaped quote (char :: rest)

/-- What is written for a text can stand between the quotes. -/
theorem escaped_encode (quotes : quote ∈ ['\'', '"']) (text : List Char) :
    Escaped quote (Escape.encode quote text) := by
  induction text with
  | nil => exact .nil
  | cons first rest ih =>
    rw [Escape.encode, List.flatMap_cons]
    by_cases special : first ∈ quote :: alwaysEscaped
    · obtain ⟨mark, written, marked, _⟩ := exists_mark_of_mem quotes special
      rw [written]
      exact .mark marked ih
    · rw [encodeChar_of_not_mem special]
      exact .plain special ih

/-- A character stands for itself as it is written, if no other characters are excluded than the
quote and those that are always escaped. -/
theorem means_encodeChar (quotes : quote ∈ ['\'', '"'])
    (covered : excluded ⊆ quote :: alwaysEscaped) (char : Char) :
    Means excluded (Escape.encodeChar quote char) char := by
  by_cases special : char ∈ quote :: alwaysEscaped
  · obtain ⟨mark, written, marked, rfl⟩ := exists_mark_of_mem quotes special
    rw [written]
    exact .escape marked
  · rw [encodeChar_of_not_mem special]
    exact .plain fun member => special (covered member)

end Lexeme

/-- What is written between two quotes. -/
theorem Java.toList_quoted (quote : Char) (text : List Char) :
    (Java.quoted quote text).toList = quote :: (Escape.encode quote text ++ [quote]) := by
  rw [Java.quoted, String.toList_ofList, List.cons_append]

namespace Token

variable {value : Literal} {kind : TokenKind} {token : Token}

/-- The Java text of a character denotes it. -/
theorem denotes_character (char : Char) (index : Nat) :
    Denotes ⟨.character, Java.literal (.character char), index⟩ (.character char) := by
  have one : Means characterExcluded (Escape.encodeChar '\'' char) char :=
    means_encodeChar (by decide) (by decide) char
  refine .character rfl one ?_
  rw [Java.literal, Java.toList_quoted, Escape.encode, List.flatMap_singleton]

/-- The Java text of a string denotes it. -/
theorem denotes_string (text : String) (index : Nat) :
    Denotes ⟨.string, Java.literal (.string text), index⟩ (.string text) := by
  have each : ∀ item ∈ text.toList.map fun char => (Escape.encodeChar '"' char, char),
      Means stringExcluded item.1 item.2 :=
    List.forall_mem_map.mpr fun char _ => means_encodeChar (by decide) (by decide) char
  have values : (text.toList.map fun char => (Escape.encodeChar '"' char, char)).map (·.2) =
      text.toList := by
    rw [List.map_map]
    exact List.map_id _
  have denotes : Denotes ⟨.string, Java.literal (.string text), index⟩ _ := .string rfl each (by
    rw [Java.literal, Java.toList_quoted, Escape.encode, List.flatMap_map])
  rwa [values, String.ofList_toList] at denotes

/-- A token that denotes a value is read as a literal of it. -/
theorem Denotes.readsAs (denotes : token.Denotes value) : token.ReadsAs value := by
  intro rest
  obtain ⟨noName, noOperator⟩ := Grammar.kind_of_denotes denotes
  have noKeyword := Parser.ofKeyword?_eq_none
    (Grammar.not_mem_of_denotes denotes denotes.shaped (by decide))
  exact (Parser.gives_primary_of_literal noKeyword noName noOperator).mpr
    ⟨value, denotes.ofToken_eq, rfl, rfl⟩

/-- A word in quotes is one token of a text that begins with it, and the tokens behind it are those
of what is behind it. -/
theorem scan_quoted (quoted : kind = .character ∨ kind = .string) {word : String}
    (isWord : kind.Word word.toList) (text : String) :
    scan (word ++ text) = (shiftAll word.utf8ByteSize (scan text)).map (⟨kind, word, 0⟩ :: ·) := by
  have size : Text.utf8Length word.toList = word.utf8ByteSize := by
    rw [← utf8ByteSize_ofList, String.ofList_toList]
  rw [scan, String.toList_append, (longest_quoted quoted isWord text.toList).scanFrom_eq,
    String.ofList_toList, size, Nat.add_comm, scanFrom_add, scan]

end Token

namespace Literal

variable {value : Literal} {kind : TokenKind} {token : Token}

/-- A literal in quotes is recovered if its Java text denotes it. -/
theorem recovers_of_denotes (quoted : kind = .character ∨ kind = .string)
    (denotes : Token.Denotes ⟨kind, Java.literal value, 0⟩ value) : value.Recovers kind :=
  ⟨Token.scan_quoted quoted denotes.shaped, denotes.readsAs⟩

/-- Characters are recovered. -/
theorem recovers_character (char : Char) : (character char).Recovers .character :=
  recovers_of_denotes (.inl rfl) (Token.denotes_character char 0)

/-- Strings are recovered. -/
theorem recovers_string (text : String) : (string text).Recovers .string :=
  recovers_of_denotes (.inr rfl) (Token.denotes_string text 0)

/-- What a token in quotes denotes is recovered as a token of its class. -/
theorem recovers_of_token (quoted : token.kind = .character ∨ token.kind = .string)
    (denotes : token.Denotes value) : value.Recovers token.kind := by
  cases denotes with
  | integer kind | decimal kind => rw [kind] at quoted; simp at quoted
  | character kind => exact kind ▸ recovers_character _
  | string kind => exact kind ▸ recovers_string _

end Literal

/-- Every character and every string is recovered from its Java text, whatever text stands behind
it. And every token in quotes of a text is read as a literal that is recovered from its Java text as
a token of the same class. -/
theorem quoted_literal_recovers :
    (∀ char, (Literal.character char).Recovers .character) ∧
    (∀ text, (Literal.string text).Recovers .string) ∧
    ∀ source tokens, Token.scan source = .ok tokens → ∀ token ∈ tokens,
      token.kind = .character ∨ token.kind = .string →
        ∃ value, token.ReadsAs value ∧ value.Recovers token.kind := by
  refine ⟨Literal.recovers_character, Literal.recovers_string, ?_⟩
  intro source tokens scanned token member quoted
  have shaped := Token.allShaped_of_scan scanned token member
  have valued : token.kind ∈ [TokenKind.integer, .decimal, .character, .string] := by
    rcases quoted with kind | kind <;> simp [kind]
  rcases shaped.exists_denotes valued with ⟨value, denotes⟩ | ⟨kind, _⟩
  · exact ⟨value, denotes.readsAs, Literal.recovers_of_token quoted denotes⟩
  · -- Only a number can have more places than can be counted.
    rw [kind] at quoted
    simp at quoted

/-- A string that is an apostrophe behind a backslash is recovered as the apostrophe, which the Java
text has without one. -/
theorem quoted_literal_recovers_apostrophe :
    Token.scan "\"\\'\"" = .ok [⟨.string, "\"\\'\"", 0⟩] ∧
      Java.literal (.string "'") = "\"'\"" ∧
      Token.ReadsAs ⟨.string, "\"\\'\"", 0⟩ (.string "'") ∧
      (Literal.string "'").Recovers .string := by
  have scanned : Token.scan "\"\\'\"" = .ok [⟨.string, "\"\\'\"", 0⟩] :=
    Token.scan_of_toOption (by decide +kernel)
  obtain ⟨value, reads, recovers⟩ :=
    quoted_literal_recovers.2.2 _ _ scanned _ List.mem_cons_self (.inr rfl)
  have noKeyword : Literal.ofKeyword? ⟨.string, "\"\\'\"", 0⟩ = none := by decide
  have denoted : Literal.ofToken ⟨.string, "\"\\'\"", 0⟩ = .ok (some (.string "'")) := rfl
  obtain ⟨found, read, same, _⟩ :=
    (Parser.gives_primary_of_literal noKeyword (by decide) (by decide)).mp (reads [])
  obtain rfl : value = .string "'" := by
    rw [denoted] at read
    cases read
    cases same
    rfl
  exact ⟨scanned, rfl, reads, recovers⟩

end LetDef
