import LetDef.Compilation
import LetDef.Proofs.Program.Placement

/-!
# The layout of a program does not matter

Blanks between tokens do no more than move them. Whatever blanks a text has between its tokens, the
tokens are the same but for their places, the program is the same, and so are its analysis, its Java
text and its runs (`respaced_text_reads_alike`).
-/
namespace LetDef

variable {text layout : String}

/-- A text is a program if its tokens can be read and are that program. -/
theorem Program.ofText_eq_ok {program : Program} :
    ofText text = .ok program ↔
      ∃ tokens, Token.scan text = .ok tokens ∧ ofTokens tokens = .ok program := by
  unfold ofText
  cases scanned : Token.scan text with
  | error error => simp
  | ok tokens =>
    cases read : ofTokens tokens with
    | error error => simp [read]
    | ok found => simp [read]

/-- What is made of a text depends on the program that it is. -/
theorem Program.same_of_ofText {program : Program} (read : ofText text = .ok program)
    (again : ofText layout = .ok program) :
    ofTextAnalyzed layout = ofTextAnalyzed text ∧
      Compilation.ofText layout = Compilation.ofText text ∧
      ∀ fuel, Execution.ofText? fuel layout = Execution.ofText? fuel text := by
  have analyzed : ofTextAnalyzed layout = ofTextAnalyzed text := by
    unfold ofTextAnalyzed
    rw [read, again]
  refine ⟨analyzed, ?_, fun fuel => ?_⟩
  · rw [Compilation.ofText, Compilation.ofText, analyzed]
  · rw [Execution.ofText?, Execution.ofText?, analyzed]

open Lexeme in
/-- A text whose tokens can be read, a blank and any other text are read one after the other: the
tokens of the first, and those of the second at their places behind it, or the error in the second
at its place. Tokens of a text that are written down again, in order and with blanks between any two
of them, are read as tokens of the same classes with the same texts. Tokens that differ in their
places alone are read as the same program, or are refused for the same reason at the same token. So
with other blanks between its tokens, a text is the same program, with the same analysis, the same
Java text and the same runs. -/
theorem respaced_text_reads_alike :
    (∀ text tokens blank more, Token.scan text = .ok tokens → isBlank blank = true →
      Token.scan (text ++ String.singleton blank ++ more) =
        (Token.shiftAll (text ++ String.singleton blank).utf8ByteSize (Token.scan more)).map
          (tokens ++ ·)) ∧
    (∀ text tokens layout, Token.scan text = .ok tokens → Token.Spaced tokens layout.toList →
      ∃ again, Token.scan layout = .ok again ∧ List.Forall₂ Token.Alike tokens again) ∧
    (∀ one other, List.Forall₂ Token.Alike one other →
      Program.ReadsAlike one other (Program.ofTokens one) (Program.ofTokens other)) ∧
    ∀ text tokens layout program, Token.scan text = .ok tokens →
      Token.Spaced tokens layout.toList → Program.ofText text = .ok program →
        Program.ofText layout = .ok program ∧
        Program.ofTextAnalyzed layout = Program.ofTextAnalyzed text ∧
        Compilation.ofText layout = Compilation.ofText text ∧
        ∀ fuel, Execution.ofText? fuel layout = Execution.ofText? fuel text := by
  have respaced : ∀ text tokens layout, Token.scan text = .ok tokens →
      Token.Spaced tokens layout.toList →
      ∃ again, Token.scan layout = .ok again ∧ List.Forall₂ Token.Alike tokens again :=
    fun text tokens layout scanned spaced =>
      spaced.exists_scanFrom (Token.lexed_of_scan scanned) 0
  refine ⟨fun _ _ _ more scanned blank => Token.scan_append scanned blank more, respaced,
    fun _ _ alike => Program.readsAlike alike,
    fun text tokens layout program scanned spaced read => ?_⟩
  obtain ⟨again, rescanned, alike⟩ := respaced text tokens layout scanned spaced
  obtain ⟨_, same, made⟩ := Program.ofText_eq_ok.mp read
  rw [scanned] at same
  injection same with same
  subst same
  have both := Program.readsAlike alike
  rw [made] at both
  generalize remade : Program.ofTokens again = result at both
  cases both with
  | program =>
    have reread := Program.ofText_eq_ok.mpr ⟨again, rescanned, remade⟩
    exact ⟨reread, Program.same_of_ofText read reread⟩

/-- A program on one line, with a blank and a character of two bytes in a string. -/
def compactText : String :=
  "DEF f():String DO RETURN \"é \";END"

/-- The same program on three lines. -/
def spreadText : String :=
  "DEF f\t( ) : String DO\n  RETURN \"é \" ;\nEND\n"

/-- The tokens of the program on one line, each with the blanks behind it on three lines. -/
def spreadTokens : List (Token × List Char) :=
  [(⟨.identifier, "DEF", 0⟩, [' ']), (⟨.identifier, "f", 4⟩, ['\t']),
    (⟨.operator, "(", 5⟩, [' ']), (⟨.operator, ")", 6⟩, [' ']), (⟨.operator, ":", 7⟩, [' ']),
    (⟨.identifier, "String", 8⟩, [' ']), (⟨.identifier, "DO", 15⟩, ['\n', ' ', ' ']),
    (⟨.identifier, "RETURN", 18⟩, [' ']), (⟨.string, "\"é \"", 25⟩, [' ']),
    (⟨.operator, ";", 30⟩, ['\n']), (⟨.identifier, "END", 31⟩, ['\n'])]

/-- A program on one line, with a blank and a character of two bytes in a string, is the same
program on three lines, and a name behind it begins after all its bytes. -/
theorem respaced_text_reads_alike_lines :
    (∃ tokens, Token.scan compactText = .ok tokens ∧
      Token.scan (compactText ++ " x") = .ok (tokens ++ [⟨.identifier, "x", 35⟩])) ∧
    ∃ program, Program.ofText compactText = .ok program ∧
      Program.ofText spreadText = .ok program ∧
      Compilation.ofText spreadText = Compilation.ofText compactText := by
  have scanned : Token.scan compactText = .ok (spreadTokens.map Prod.fst) :=
    Token.scan_of_toOption (by decide +kernel)
  have gaps : spreadTokens.all fun pair => !pair.2.isEmpty && pair.2.all Lexeme.isBlank := rfl
  have spaced : Token.Spaced (spreadTokens.map Prod.fst) spreadText.toList :=
    Token.spaced_joined fun pair member => by
      have gap := List.all_eq_true.mp gaps pair member
      simpa only [Bool.and_eq_true, Bool.not_eq_true', List.isEmpty_eq_false_iff,
        List.all_eq_true] using gap
  refine ⟨⟨_, scanned, ?_⟩, ?_⟩
  · have behind : Token.scan "x" = .ok [⟨.identifier, "x", 0⟩] :=
      Token.scan_of_toOption (by decide +kernel)
    have both := respaced_text_reads_alike.1 _ _ ' ' "x" scanned rfl
    rwa [behind] at both
  · have found : (Program.ofText compactText).toOption.any fun _ => true := by decide +kernel
    obtain ⟨program, read, _⟩ := exists_ok_of_any found
    obtain ⟨again, _, compiled, _⟩ := respaced_text_reads_alike.2.2.2 _ _ _ _ scanned spaced read
    exact ⟨program, read, again, compiled⟩

end LetDef
