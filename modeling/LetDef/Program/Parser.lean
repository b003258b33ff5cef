import LetDef.Decimal.Notation
import LetDef.Program.Basic
import LetDef.Text.Escape
import LetDef.Token.Basic

/-!
# Reading programs from tokens

Each function reads one construct from the front of a list of tokens and returns it with the
tokens after it, which are fewer (`Parsed`). Keywords and punctuation are recognised by the text
of a token, whatever its kind. A failure names what was expected and keeps the tokens that were
left, so that it does not depend on where the tokens stood in a text;
`Program.ofTokens` turns that into the position of the offending token, or of the end of the last
token when none is left.
-/
namespace LetDef

/-- What can be missing in a program. -/
inductive Expectation where
  /-- The start of a field or method. -/
  | fieldOrMethod
  /-- A name after `LET` outside of methods. -/
  | fieldName
  /-- A colon after the name of a field. -/
  | fieldColon
  /-- The type of a field. -/
  | fieldType
  /-- The end of a field. -/
  | fieldEnd
  /-- A name after `DEF`. -/
  | methodName
  /-- The start of the parameters. -/
  | parametersStart
  /-- The name of a parameter. -/
  | parameterName
  /-- A colon after the name of a parameter. -/
  | parameterColon
  /-- The type of a parameter. -/
  | parameterType
  /-- The end of the parameters. -/
  | parametersEnd
  /-- A type after the colon behind the parameters. -/
  | returnType
  /-- The start of the body of a method. -/
  | methodStart
  /-- The end of a body. -/
  | blockEnd
  /-- The end of a body that may be followed by another. -/
  | branchEnd
  /-- The end of an assignment. -/
  | assignmentEnd
  /-- The end of an expression that is a statement. -/
  | expressionEnd
  /-- A name after `LET` in a method. -/
  | variableName
  /-- A type after the colon behind the name of a variable. -/
  | variableType
  /-- The end of a declaration. -/
  | declarationEnd
  /-- The start of a branch. -/
  | branchStart
  /-- A name after `FOR`. -/
  | loopVariable
  /-- The word before the value that a loop runs over. -/
  | loopValue
  /-- The start of the body of a `FOR` loop. -/
  | iterationStart
  /-- The start of the body of a `WHILE` loop. -/
  | repetitionStart
  /-- The end of a `RETURN` statement. -/
  | resultEnd
  /-- A name after a point. -/
  | memberName
  /-- The end of a group. -/
  | groupEnd
  /-- An expression. -/
  | expression
  /-- The end of the arguments of a call. -/
  | argumentsEnd
  deriving DecidableEq

/-- The wording of what is missing. -/
def Expectation.text : Expectation → String
  | .fieldOrMethod => "LET or DEF"
  | .fieldName => "field name"
  | .fieldColon => "':' before field type"
  | .fieldType => "field type"
  | .fieldEnd => "';' after field"
  | .methodName => "method name"
  | .parametersStart => "'(' after method name"
  | .parameterName => "parameter name"
  | .parameterColon => "':' before parameter type"
  | .parameterType => "parameter type"
  | .parametersEnd => "')' after parameters"
  | .returnType => "return type"
  | .methodStart => "DO before method body"
  | .blockEnd => "END"
  | .branchEnd => "ELSE or END"
  | .assignmentEnd => "';' after assignment"
  | .expressionEnd => "';' after expression"
  | .variableName => "variable name"
  | .variableType => "variable type"
  | .declarationEnd => "';' after declaration"
  | .branchStart => "DO after IF condition"
  | .loopVariable => "loop variable"
  | .loopValue => "IN after loop variable"
  | .iterationStart => "DO after FOR iterable"
  | .repetitionStart => "DO after WHILE condition"
  | .resultEnd => "';' after RETURN value"
  | .memberName => "member name after '.'"
  | .groupEnd => "')' after grouped expression"
  | .expression => "expression"
  | .argumentsEnd => "')' after arguments"

/-- Why tokens are not a program. -/
inductive ParseFault where
  /-- Something is missing. -/
  | expected (what : Expectation)
  /-- A name starts with a digit. -/
  | digitInName
  /-- An integer token does not denote a number. -/
  | invalidInteger
  /-- A decimal token does not denote a number. -/
  | invalidDecimal
  /-- A character token does not denote one character. -/
  | invalidCharacter
  deriving DecidableEq

/-- The wording of a failure to read a program. -/
def ParseFault.message : ParseFault → String
  | .expected what => "expected " ++ what.text
  | .digitInName => "identifier starts with a digit"
  | .invalidInteger => "invalid integer literal"
  | .invalidDecimal => "invalid decimal literal"
  | .invalidCharacter => "invalid character literal"

/-- A failure and the tokens from the offending one on. -/
structure ParseFailure where
  /-- The reason. -/
  fault : ParseFault
  /-- The tokens that were left. -/
  remaining : List Token

/-- Tokens are not a program. -/
structure ParseError where
  /-- Byte position of the offending token, or just after the last token. -/
  index : Nat
  /-- The reason. -/
  fault : ParseFault
  deriving DecidableEq

/-- The full wording of an error in a program. -/
def ParseError.message (error : ParseError) : String :=
  "parse error at byte " ++ toString error.index ++ ": " ++ error.fault.message

/-- A construct read from the front of some tokens, and fewer than `bound` tokens after it. -/
structure Parsed (α : Type) (bound : Nat) where
  /-- The construct. -/
  value : α
  /-- The tokens after it. -/
  rest : List Token
  /-- Something was read. -/
  within : rest.length < bound

/-- A construct that takes no token. -/
def Parsed.untouched {α : Type} (value : α) (tokens : List Token) :
    Parsed α (tokens.length + 1) :=
  ⟨value, tokens, Nat.lt_succ_self _⟩

/-- The outcome of reading a construct. -/
abbrev Parse (α : Type) (bound : Nat) : Type :=
  Except ParseFailure (Parsed α bound)

/-- The digits and sign of a number token without its leading plus signs. -/
def Token.numeral (token : Token) : List Char :=
  token.literal.toList.dropWhile (· = '+')

/-- The characters between the quotes of a token, with escape sequences replaced. -/
def Token.content (token : Token) : List Char :=
  Text.Escape.decode (token.literal.toList.drop 1).dropLast

/-- The value that a token of a literal class denotes. -/
def Literal.ofToken (token : Token) : Except ParseFault (Option Literal) :=
  match token.kind with
  | .integer =>
    match Text.Numeral.integer? token.numeral with
    | some value => .ok (some (.integer value))
    | none => .error .invalidInteger
  | .decimal =>
    match Decimal.ofText? token.numeral with
    | some value => .ok (some (.decimal value))
    | none => .error .invalidDecimal
  | .character =>
    match token.content with
    | [value] => .ok (some (.character value))
    | _ => .error .invalidCharacter
  | .string => .ok (some (.string (String.ofList token.content)))
  | .identifier | .operator => .ok none

/-- The value that a keyword denotes. -/
def Literal.ofKeyword? (token : Token) : Option Literal :=
  if token.reads "NIL" then some .nil
  else if token.reads "TRUE" then some (.boolean true)
  else if token.reads "FALSE" then some (.boolean false)
  else none

namespace Parser

/-- The failure to find something where these tokens stand. -/
def missing {α : Type} (what : Expectation) (tokens : List Token) : Except ParseFailure α :=
  .error ⟨.expected what, tokens⟩

/-- The tokens after the first one if that has the text `literal`. -/
def after? (literal : String) : (tokens : List Token) → Option (Parsed Unit tokens.length)
  | [] => none
  | token :: rest => if token.reads literal then some ⟨(), rest, by simp⟩ else none

/-- The tokens after the first one, which must have the text `literal`. -/
def expect (literal : String) (what : Expectation) (tokens : List Token) :
    Parse Unit tokens.length :=
  match after? literal tokens with
  | some parsed => .ok parsed
  | none => missing what tokens

/-- The text starts with a digit. -/
def startsWithDigit (text : String) : Bool :=
  (text.toList.head?.map Text.isDigit).getD false

/-- The name that the first token is. -/
def name (what : Expectation) : (tokens : List Token) → Parse String tokens.length
  | [] => missing what []
  | token :: rest =>
    if token.kind ≠ .identifier then missing what (token :: rest)
    else if startsWithDigit token.literal then .error ⟨.digitInName, token :: rest⟩
    else .ok ⟨token.literal, rest, by simp⟩

mutual

/-- A chain of operators of one level and all tighter ones, grouped from the left. -/
def chain (level : Level) (tokens : List Token) : Parse Expr tokens.length := do
  let ⟨first, rest, _⟩ ← operand level tokens
  let ⟨value, rest, _⟩ ← chainAfter level first rest
  .ok ⟨value, rest, by omega⟩
  termination_by 16 * tokens.length + 2 * level.rank + 3

/-- The rest of a chain whose operands so far make `left`. -/
def chainAfter (level : Level) (left : Expr) (tokens : List Token) :
    Parse Expr (tokens.length + 1) :=
  match tokens with
  | [] => .ok ⟨left, [], by simp⟩
  | token :: rest =>
    match level.operator? token.literal with
    | none => .ok ⟨left, token :: rest, by simp⟩
    | some operator => do
      let ⟨right, rest, _⟩ ← operand level rest
      let ⟨value, rest, _⟩ ← chainAfter level (.binary operator left right none) rest
      .ok ⟨value, rest, by simp only [List.length_cons]; omega⟩
  termination_by 16 * tokens.length
  decreasing_by
    · have := level.rank_le
      simp only [List.length_cons]
      omega
    · simp only [List.length_cons]
      omega

/-- An operand of a chain: a chain of the next tighter level, or an expression without
operators. -/
def operand (level : Level) (tokens : List Token) : Parse Expr tokens.length :=
  match _next : level.tighter? with
  | some tighter => chain tighter tokens
  | none => selection tokens
  termination_by 16 * tokens.length + 2 * level.rank + 2
  decreasing_by
    · have := Level.rank_lt_of_tighter? ‹level.tighter? = some tighter›
      omega
    · omega

/-- An expression without operators and the members selected from it. -/
def selection (tokens : List Token) : Parse Expr tokens.length := do
  let ⟨first, rest, _⟩ ← primary tokens
  let ⟨value, rest, _⟩ ← selectionAfter first rest
  .ok ⟨value, rest, by omega⟩
  termination_by 16 * tokens.length + 1

/-- The members selected one after the other from `receiver`. -/
def selectionAfter (receiver : Expr) (tokens : List Token) : Parse Expr (tokens.length + 1) :=
  match after? "." tokens with
  | none => .ok (.untouched receiver tokens)
  | some ⟨_, rest, _⟩ => do
    let ⟨member, rest, _⟩ ← name .memberName rest
    match after? "(" rest with
    | some ⟨_, rest, _⟩ =>
      let ⟨arguments, rest, _⟩ ← arguments rest
      let ⟨value, rest, _⟩ ←
        selectionAfter (.memberCall receiver member arguments none none) rest
      .ok ⟨value, rest, by omega⟩
    | none =>
      let ⟨value, rest, _⟩ ← selectionAfter (.member receiver member none none) rest
      .ok ⟨value, rest, by omega⟩
  termination_by 16 * tokens.length

/-- A literal, a name, a call or a group. -/
def primary (tokens : List Token) : Parse Expr tokens.length :=
  match tokens with
  | [] => missing .expression []
  | token :: rest =>
    match Literal.ofKeyword? token with
    | some value => .ok ⟨.literal value none, rest, by simp⟩
    | none =>
      match Literal.ofToken token with
      | .error fault => .error ⟨fault, token :: rest⟩
      | .ok (some value) => .ok ⟨.literal value none, rest, by simp⟩
      | .ok none =>
        if token.kind = .identifier then
          if startsWithDigit token.literal then .error ⟨.digitInName, token :: rest⟩
          else
            match after? "(" rest with
            | none => .ok ⟨.variable token.literal none none, rest, by simp⟩
            | some ⟨_, rest, _⟩ => do
              let ⟨arguments, rest, _⟩ ← arguments rest
              .ok ⟨.call token.literal arguments none none, rest, by
                simp only [List.length_cons]; omega⟩
        else if token.reads "(" then do
          let ⟨inner, rest, _⟩ ← chain .logical rest
          let ⟨_, rest, _⟩ ← expect ")" .groupEnd rest
          .ok ⟨.group inner none, rest, by simp only [List.length_cons]; omega⟩
        else missing .expression (token :: rest)
  termination_by 16 * tokens.length
  decreasing_by all_goals (simp only [List.length_cons, Level.rank]; omega)

/-- The arguments of a call after its opening parenthesis, through the closing one. -/
def arguments (tokens : List Token) : Parse (List Expr) tokens.length :=
  match after? ")" tokens with
  | some ⟨_, rest, within⟩ => .ok ⟨[], rest, within⟩
  | none => argumentsFrom tokens
  termination_by 16 * tokens.length + 11

/-- One argument and those after it, through the closing parenthesis. -/
def argumentsFrom (tokens : List Token) : Parse (List Expr) tokens.length := do
  let ⟨first, rest, _⟩ ← chain .logical tokens
  match after? "," rest with
  | some ⟨_, rest, _⟩ =>
    let ⟨later, rest, _⟩ ← argumentsFrom rest
    .ok ⟨first :: later, rest, by omega⟩
  | none =>
    let ⟨_, rest, _⟩ ← expect ")" .argumentsEnd rest
    .ok ⟨[first], rest, by omega⟩
  termination_by 16 * tokens.length + 10
  decreasing_by
    · simp only [Level.rank]; omega
    · omega

end

/-- An expression. -/
def expression (tokens : List Token) : Parse Expr tokens.length :=
  chain .logical tokens

/-- An expression after the text `literal`, if the tokens start with that. -/
def expressionAfter (literal : String) (tokens : List Token) :
    Parse (Option Expr) (tokens.length + 1) :=
  match after? literal tokens with
  | none => .ok (.untouched none tokens)
  | some ⟨_, rest, _⟩ => do
    let ⟨value, rest, _⟩ ← expression rest
    .ok ⟨some value, rest, by omega⟩

/-- A name after a colon, if the tokens start with that. -/
def nameAfterColon (what : Expectation) (tokens : List Token) :
    Parse (Option String) (tokens.length + 1) :=
  match after? ":" tokens with
  | none => .ok (.untouched none tokens)
  | some ⟨_, rest, _⟩ => do
    let ⟨text, rest, _⟩ ← name what rest
    .ok ⟨some text, rest, by omega⟩

/-- A declaration after its `LET`. -/
def declaration (tokens : List Token) : Parse Declaration tokens.length := do
  let ⟨text, rest, _⟩ ← name .variableName tokens
  let ⟨typeName, rest, _⟩ ← nameAfterColon .variableType rest
  let ⟨value, rest, _⟩ ← expressionAfter "=" rest
  let ⟨_, rest, _⟩ ← expect ";" .declarationEnd rest
  .ok ⟨⟨text, typeName, value, none⟩, rest, by omega⟩

/-- A `RETURN` statement after its first word. -/
def result (tokens : List Token) : Parse Stmt tokens.length := do
  let ⟨value, rest, _⟩ ← expression tokens
  let ⟨_, rest, _⟩ ← expect ";" .resultEnd rest
  .ok ⟨.result value, rest, by omega⟩

/-- A statement that starts with an expression: an assignment, or the expression alone. -/
def expressionStatement (tokens : List Token) : Parse Stmt tokens.length := do
  let ⟨target, rest, _⟩ ← expression tokens
  let ⟨value?, rest, _⟩ ← expressionAfter "=" rest
  match value? with
  | some value =>
    let ⟨_, rest, _⟩ ← expect ";" .assignmentEnd rest
    .ok ⟨.assignment target value, rest, by omega⟩
  | none =>
    let ⟨_, rest, _⟩ ← expect ";" .expressionEnd rest
    .ok ⟨.expression target, rest, by omega⟩

/-- Where a list of statements ends. -/
inductive Closing where
  /-- At the `END` of the construct. -/
  | done
  /-- At the `ELSE` before another list. -/
  | otherwise
  deriving DecidableEq

/-- How a token ends a list of statements, if it does. Only a branch can end at `ELSE`. -/
def Closing.of? (branch : Bool) (token : Token) : Option Closing :=
  if token.reads "END" then some .done
  else if branch && token.reads "ELSE" then some .otherwise
  else none

mutual

/-- The statements of a body, through the token that ends it. -/
def block (branch : Bool) (tokens : List Token) : Parse (List Stmt × Closing) tokens.length :=
  match tokens with
  | [] => missing (if branch then .branchEnd else .blockEnd) []
  | token :: rest =>
    match Closing.of? branch token with
    | some closing => .ok ⟨([], closing), rest, by simp⟩
    | none =>
      if token.reads ";" then do
        let ⟨found, rest, _⟩ ← block branch rest
        .ok ⟨found, rest, by simp only [List.length_cons]; omega⟩
      else do
        let ⟨first, rest, _⟩ ← statement (token :: rest)
        let ⟨(later, closing), rest, _⟩ ← block branch rest
        .ok ⟨(first :: later, closing), rest, by omega⟩
  termination_by 4 * tokens.length + 1
  decreasing_by all_goals (simp only [List.length_cons] at *; omega)

/-- A statement. -/
def statement (tokens : List Token) : Parse Stmt tokens.length :=
  match tokens with
  | [] => expressionStatement []
  | token :: rest =>
    if token.reads "LET" then do
      let ⟨declared, rest, _⟩ ← declaration rest
      .ok ⟨.declaration declared, rest, by simp only [List.length_cons]; omega⟩
    else if token.reads "IF" then do
      let ⟨condition, rest, _⟩ ← expression rest
      let ⟨_, rest, _⟩ ← expect "DO" .branchStart rest
      let ⟨(accepted, closing), rest, _⟩ ← block true rest
      let ⟨rejected, rest, _⟩ ← alternative closing rest
      .ok ⟨.conditional condition accepted rejected, rest, by
        simp only [List.length_cons]; omega⟩
    else if token.reads "FOR" then do
      let ⟨text, rest, _⟩ ← name .loopVariable rest
      let ⟨_, rest, _⟩ ← expect "IN" .loopValue rest
      let ⟨value, rest, _⟩ ← expression rest
      let ⟨_, rest, _⟩ ← expect "DO" .iterationStart rest
      let ⟨(body, _), rest, _⟩ ← block false rest
      .ok ⟨.iteration text value body, rest, by simp only [List.length_cons]; omega⟩
    else if token.reads "WHILE" then do
      let ⟨condition, rest, _⟩ ← expression rest
      let ⟨_, rest, _⟩ ← expect "DO" .repetitionStart rest
      let ⟨(body, _), rest, _⟩ ← block false rest
      .ok ⟨.repetition condition body, rest, by simp only [List.length_cons]; omega⟩
    else if token.reads "RETURN" then do
      let ⟨value, rest, _⟩ ← result rest
      .ok ⟨value, rest, by simp only [List.length_cons]; omega⟩
    else expressionStatement (token :: rest)
  termination_by 4 * tokens.length

/-- The statements after an `ELSE`, or none where the branch has ended. -/
def alternative (closing : Closing) (tokens : List Token) :
    Parse (List Stmt) (tokens.length + 1) :=
  match closing with
  | .done => .ok (.untouched [] tokens)
  | .otherwise => do
    let ⟨(rejected, _), rest, _⟩ ← block false tokens
    .ok ⟨rejected, rest, by omega⟩
  termination_by 4 * tokens.length + 2

end

/-- A field after its `LET`. -/
def field (tokens : List Token) : Parse Field tokens.length := do
  let ⟨text, rest, _⟩ ← name .fieldName tokens
  let ⟨_, rest, _⟩ ← expect ":" .fieldColon rest
  let ⟨typeName, rest, _⟩ ← name .fieldType rest
  let ⟨value, rest, _⟩ ← expressionAfter "=" rest
  let ⟨_, rest, _⟩ ← expect ";" .fieldEnd rest
  .ok ⟨⟨text, typeName, value, none⟩, rest, by omega⟩

/-- One parameter and those after it, through the closing parenthesis. -/
def parametersFrom (tokens : List Token) : Parse (List Parameter) tokens.length := do
  let ⟨text, rest, _⟩ ← name .parameterName tokens
  let ⟨_, rest, _⟩ ← expect ":" .parameterColon rest
  let ⟨typeName, rest, _⟩ ← name .parameterType rest
  match after? "," rest with
  | some ⟨_, rest, _⟩ =>
    let ⟨later, rest, _⟩ ← parametersFrom rest
    .ok ⟨⟨text, typeName⟩ :: later, rest, by omega⟩
  | none =>
    let ⟨_, rest, _⟩ ← expect ")" .parametersEnd rest
    .ok ⟨[⟨text, typeName⟩], rest, by omega⟩
  termination_by tokens.length

/-- The parameters of a method after the opening parenthesis, through the closing one. -/
def parameters (tokens : List Token) : Parse (List Parameter) tokens.length :=
  match after? ")" tokens with
  | some ⟨_, rest, within⟩ => .ok ⟨[], rest, within⟩
  | none => parametersFrom tokens

/-- A method after its `DEF`. -/
def method (tokens : List Token) : Parse Method tokens.length := do
  let ⟨text, rest, _⟩ ← name .methodName tokens
  let ⟨_, rest, _⟩ ← expect "(" .parametersStart rest
  let ⟨parameters, rest, _⟩ ← parameters rest
  let ⟨returnTypeName, rest, _⟩ ← nameAfterColon .returnType rest
  let ⟨_, rest, _⟩ ← expect "DO" .methodStart rest
  let ⟨(body, _), rest, _⟩ ← block false rest
  .ok ⟨⟨text, parameters, returnTypeName, body, none⟩, rest, by omega⟩

/-- All fields at the front. -/
def fields (tokens : List Token) : Parse (List Field) (tokens.length + 1) :=
  match after? "LET" tokens with
  | none => .ok (.untouched [] tokens)
  | some ⟨_, rest, _⟩ => do
    let ⟨first, rest, _⟩ ← field rest
    let ⟨later, rest, _⟩ ← fields rest
    .ok ⟨first :: later, rest, by omega⟩
  termination_by tokens.length

/-- All methods at the front. -/
def methods (tokens : List Token) : Parse (List Method) (tokens.length + 1) :=
  match after? "DEF" tokens with
  | none => .ok (.untouched [] tokens)
  | some ⟨_, rest, _⟩ => do
    let ⟨first, rest, _⟩ ← method rest
    let ⟨later, rest, _⟩ ← methods rest
    .ok ⟨first :: later, rest, by omega⟩
  termination_by tokens.length

/-- A whole program. -/
def program (tokens : List Token) : Except ParseFailure Program := do
  let ⟨fields, rest, _⟩ ← fields tokens
  let ⟨methods, rest, _⟩ ← methods rest
  match rest with
  | [] => .ok ⟨fields, methods⟩
  | token :: rest => missing .fieldOrMethod (token :: rest)

end Parser

/-- Where a failure lies: at its first token, or just after the last of all tokens. -/
def ParseFailure.index (failure : ParseFailure) (tokens : List Token) : Nat :=
  match failure.remaining with
  | token :: _ => token.index
  | [] => (tokens.getLast?.map Token.stop).getD 0

/-- The program that all the tokens make up. -/
def Program.ofTokens (tokens : List Token) : Except ParseError Program :=
  match Parser.program tokens with
  | .ok program => .ok program
  | .error failure => .error ⟨failure.index tokens, failure.fault⟩

end LetDef
