import LetDef.Error
import LetDef.Proofs.Program.Placement
import LetDef.Proofs.Program.Promptness

/-!
# Parse errors point at the first token that cannot stand there

The readers of fields and methods are prompt, and so is the reader of programs
(`Parser.program_prompt`): the tokens before a failure are the beginning of a program, and with the
token at which it lies they are so no longer. That program can be written down, since the tokens
before any place in a text are those of some front of it (`Token.exists_scan_take_append`).
-/
namespace LetDef

namespace Lexeme

/-- The first tokens of a text are those of some front of it. -/
theorem Splits.exists_front {text : List Char} {pieces : List Piece} (splits : Splits text pieces)
    (index count : Nat) : ∃ front, front <+: text ∧
      Token.scanFrom index front = .ok ((tokensFrom index pieces).take count) := by
  induction splits generalizing index count with
  | nil => exact ⟨[], List.nil_prefix, by rw [Token.scanFrom, tokensFrom, List.take_nil]⟩
  | @blank char rest pieces blank _ ih =>
    obtain ⟨front, before, scanned⟩ := ih (index + char.utf8Size) count
    refine ⟨char :: front, (List.cons_prefix_cons).mpr ⟨rfl, before⟩, ?_⟩
    rw [Token.scanFrom, if_pos blank, scanned, tokensFrom]
  | @token text pieces lexeme longest _ ih =>
    cases count with
    | zero => exact ⟨[], List.nil_prefix, by rw [Token.scanFrom, List.take_zero]⟩
    | succ count =>
      obtain ⟨front, before, scanned⟩ := ih (index + Text.utf8Length lexeme.chars) count
      have again := longest.cut ⟨front, [], before, (List.append_nil _).symm, by simp⟩
      refine ⟨lexeme.chars ++ front, ?_, ?_⟩
      · rw [← longest.whole]
        exact (List.prefix_append_right_inj _).mpr before
      · rw [again.scanFrom_eq, scanned]
        rfl

end Lexeme

namespace Token

/-- Tokens at later places are alike. -/
theorem Alike.shift {tokens others : List Token} (alike : List.Forall₂ Alike tokens others)
    (bytes : Nat) : List.Forall₂ Alike tokens (others.map (Token.shift bytes)) := by
  induction alike with
  | nil => exact .nil
  | cons same _ ih => exact .cons ⟨same.kind, same.literal⟩ ih

/-- Behind the first tokens of a text, others can be written down. -/
theorem exists_scan_take_append {text : String} {tokens more : List Token}
    (scanned : scan text = .ok tokens) (lexed : ∀ token ∈ more, token.Lexed) (count : Nat) :
    ∃ longer again, scan longer = .ok (tokens.take count ++ again) ∧
      List.Forall₂ Alike more again := by
  obtain ⟨pieces, splits, rfl⟩ := Lexeme.exists_splits_of_scanFrom scanned
  obtain ⟨front, _, first⟩ := splits.exists_front 0 count
  have spaced : Spaced more (joined (more.map fun token => (token, [' ']))) := by
    have joins : Spaced ((more.map fun token => (token, [' '])).map Prod.fst) _ :=
      spaced_joined (List.forall_mem_map.mpr fun _ _ => ⟨by simp, by simp [Lexeme.isBlank]⟩)
    rwa [List.map_map, show Prod.fst ∘ (fun token : Token => (token, [' '])) = id from rfl,
      List.map_id] at joins
  obtain ⟨again, second, alike⟩ := spaced.exists_scanFrom lexed 0
  generalize joined (more.map fun token => (token, [' '])) = behind at second
  have scannedFront : scan (String.ofList front) =
      .ok ((Lexeme.tokensFrom 0 pieces).take count) := by
    rw [scan, String.toList_ofList, first]
  have scannedBehind : scan (String.ofList behind) = .ok again := by
    rw [scan, String.toList_ofList, second]
  have both := scan_append scannedFront (show Lexeme.isBlank ' ' = true from rfl)
    (String.ofList behind)
  rw [scannedBehind] at both
  exact ⟨_, _, both, Alike.shift alike _⟩

end Token

namespace Parser

/-- The tokens of completions can be written down. -/
theorem fillers_lexed : ∀ token ∈ fillers, token.Lexed := by
  have scanned : Token.scan ": ; ) ( , DO IN END x" = .ok fillers :=
    Token.scan_of_toOption (by decide +kernel)
  exact Token.lexed_of_scan scanned

/-- No tokens are a program without fields and methods. -/
theorem program_nil : program [] = .ok ⟨[], []⟩ :=
  program_eq_ok.mpr ⟨[], (gives_fields_of_not_starts not_starts_nil).mpr ⟨rfl, rfl⟩,
    (gives_methods_of_not_starts not_starts_nil).mpr ⟨rfl, rfl⟩⟩

/-- Where a program cannot be read, the tokens before the failure are the beginning of one, and the
failure is the same for all tokens that begin like those up to it. -/
theorem program_prompt {tokens : List Token} {failure : ParseFailure}
    (failed : program tokens = .error failure) :
    ∃ used, tokens = used ++ failure.remaining ∧
      (∀ other, other.head? = failure.remaining.head? →
        program (used ++ other) = .error ⟨failure.fault, other⟩) ∧
      ∃ added found, added ⊆ fillers ∧ program (used ++ added) = .ok found := by
  have prompt : Prompt (¬ Starts "LET" ·) (· = []) (Reader.bind (.of fields) fun fields =>
      Reader.bind (.of methods) fun methods => Reader.pure (⟨fields, methods⟩ : Program)) tokens :=
    (fields_prompt tokens).bind (fun _ stops => stops) fun fields rest _ =>
      ((methods_prompt rest).map _).mono (fun _ none => none ▸ not_starts_nil) fun _ none => none
  rw [Reader.program_eq] at failed
  cases prompt with
  | reads used rest value whole _ same =>
    have read := same rest (.inl rfl)
    rw [← whole] at read
    rw [read] at failed
    cases rest with
    | nil => contradiction
    | cons token rest =>
      -- All fields and methods were read, and this token begins none.
      injection failed with failed
      subst failed
      refine ⟨used, whole, fun other front => ?_, [], value, List.nil_subset _, ?_⟩
      · obtain ⟨later, rfl⟩ : ∃ later, other = token :: later := List.head?_eq_some_iff.mp front
        rw [Reader.program_eq, same (token :: later) (.inl rfl)]
      · rw [Reader.program_eq, same [] (.inr rfl)]
  | fails used rest fault whole same added value filled _ completed =>
    have stuck := same rest rfl
    rw [← whole] at stuck
    rw [stuck] at failed
    injection failed with failed
    subst failed
    refine ⟨used, whole, fun other front => ?_, added, value, filled, ?_⟩
    · rw [Reader.program_eq, same other front]
    · have read := completed [] rfl
      rw [List.append_nil] at read
      rw [Reader.program_eq, read]

end Parser

/-- Some text whose tokens begin with these is a program. -/
def Program.Begins (tokens : List Token) : Prop :=
  ∃ text more program, Token.scan text = .ok (tokens ++ more) ∧
    ofTokens (tokens ++ more) = .ok program

/-- The first tokens of a text begin a program if others can be put behind them. -/
theorem Program.begins_of_filled {text : String} {tokens added : List Token} {found : Program}
    (scanned : Token.scan text = .ok tokens) {count : Nat} (filled : added ⊆ Parser.fillers)
    (read : Parser.program (tokens.take count ++ added) = .ok found) :
    Begins (tokens.take count) := by
  obtain ⟨longer, again, rescanned, alike⟩ := Token.exists_scan_take_append scanned
    (fun token member => Parser.fillers_lexed token (filled member)) count
  have both := readsAlike (List.rel_append (R := Token.Alike)
    (List.forall₂_same.mpr fun token (_ : token ∈ tokens.take count) => ⟨rfl, rfl⟩) alike)
  rw [ofTokens, read] at both
  generalize reread : ofTokens (tokens.take count ++ again) = result at both
  cases both with
  | program => exact ⟨longer, again, found, rescanned, reread⟩

/-- Where the tokens of a text are no program, the error lies at one of them, or at the end of the
last. The tokens before it begin a program. If the error lies at a token, then all tokens that begin
like those up to it have the same error. -/
theorem ofTokens_error_blames_first_impossible_token {text : String} {tokens : List Token}
    {error : ParseError} (scanned : Token.scan text = .ok tokens)
    (failed : Program.ofTokens tokens = .error error) :
    (∃ position token, tokens[position]? = some token ∧ error.index = token.index ∧
      Program.Begins (tokens.take position) ∧
      ∀ more, Program.ofTokens (tokens.take (position + 1) ++ more) = .error error) ∨
    ∃ last, tokens.getLast? = some last ∧ error.index = last.stop ∧ Program.Begins tokens := by
  cases read : Parser.program tokens with
  | ok program =>
    rw [Program.ofTokens, read] at failed
    contradiction
  | error failure =>
    obtain ⟨fault, remaining⟩ := failure
    obtain ⟨used, whole, same, added, found, filled, completed⟩ := Parser.program_prompt read
    rw [Program.ofTokens, read] at failed
    injection failed with place
    have front : tokens.take used.length = used := by
      rw [whole, List.take_left]
    have begins : Program.Begins (tokens.take used.length) :=
      Program.begins_of_filled scanned filled (front.symm ▸ completed)
    cases remaining with
    | cons token rest =>
      dsimp only at whole
      refine .inl ⟨used.length, token, ?_, ?_, begins, fun more => ?_⟩
      · rw [whole, List.getElem?_append_right (Nat.le_refl _), Nat.sub_self]
        rfl
      · rw [← place]
        rfl
      · have upTo : tokens.take (used.length + 1) ++ more = used ++ token :: more := by
          rw [whole, List.take_length_add_append, List.append_assoc]
          rfl
        rw [upTo, Program.ofTokens, same (token :: more) rfl, ← place]
        rfl
    | nil =>
      dsimp only at whole
      rw [List.append_nil] at whole
      cases last : tokens.getLast? with
      | none =>
        obtain rfl := List.getLast?_eq_none_iff.mp last
        rw [Parser.program_nil] at read
        contradiction
      | some token =>
        refine .inr ⟨token, rfl, ?_, ?_⟩
        · rw [← place, ParseFailure.index, last]
          rfl
        · rwa [whole, List.take_length, ← whole] at begins

/-- A call in a branch that lacks an argument behind a comma. -/
def lackingText : String :=
  "DEF f() DO IF a DO print(1, ; END"

/-- A call in a branch lacks an argument behind a comma: the tokens through the comma begin a
program, and no tokens that go on with the semicolon do. -/
theorem ofTokens_error_blames_first_impossible_token_argument :
    ∃ tokens, Token.scan lackingText = .ok tokens ∧
      Program.ofTokens tokens = .error ⟨28, .expected .expression⟩ ∧
      ((∃ position token, tokens[position]? = some token ∧ 28 = token.index ∧
        Program.Begins (tokens.take position) ∧
        ∀ more, Program.ofTokens (tokens.take (position + 1) ++ more) =
          .error ⟨28, .expected .expression⟩) ∨
      ∃ last, tokens.getLast? = some last ∧ 28 = last.stop ∧ Program.Begins tokens) := by
  have computed : (Token.scan lackingText).toOption.any fun tokens =>
      match Program.ofTokens tokens with
      | .ok _ => false
      | .error error => error = ⟨28, .expected .expression⟩ := by
    decide +kernel
  obtain ⟨tokens, scanned, refused⟩ := exists_ok_of_any computed
  have failed : Program.ofTokens tokens = .error ⟨28, .expected .expression⟩ := by
    split at refused
    next => contradiction
    next error failed => rw [failed, of_decide_eq_true refused]
  exact ⟨tokens, scanned, failed, ofTokens_error_blames_first_impossible_token scanned failed⟩

end LetDef
