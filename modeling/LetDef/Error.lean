import LetDef.Machine.Error
import LetDef.Program.Parser
import LetDef.Token.Lexer
import LetDef.Typing.Error

/-!
# Errors

Everything that can go wrong with a program, from reading its text to running it.
-/
namespace LetDef

/-- Why a program cannot be read, is refused or ends early. -/
inductive Error where
  /-- The text is not a sequence of tokens. -/
  | lex (error : LexError)
  /-- The tokens are not a program. -/
  | parse (error : ParseError)
  /-- The analysis refuses the program. -/
  | type (error : TypeError)
  /-- A run ends early. -/
  | runtime (error : RuntimeError)

/-- The full wording of an error. -/
def Error.message : Error → String
  | .lex error => error.message
  | .parse error => error.message
  | .type error => error.message
  | .runtime error => error.message

/-- What a test accepts is a value and no error. -/
theorem exists_ok_of_any {ε α : Type} {result : Except ε α} {test : α → Bool}
    (passed : result.toOption.any test) : ∃ value, result = .ok value ∧ test value := by
  cases result with
  | error error => contradiction
  | ok value => exact ⟨value, rfl, passed⟩

end LetDef
