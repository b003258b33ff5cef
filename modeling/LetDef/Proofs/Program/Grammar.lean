import LetDef.Program.Parser
import LetDef.Proofs.Token.Classes

/-!
# The grammar of programs

The productions of the language as relations between token lists and trees: a relation holds of
the tokens that are derived, in their order and without any left over, and the tree with its slots
empty. Keywords and signs are known by their text. What may be a name is a parameter
(`permitted`), since a word like `END` is a name to a reader that looks for one, yet no name that a
writer can rely on. The operators of a level derive chains that lean to the left.
-/
namespace LetDef

open Lexeme Text

/-- The token is a word of its class. -/
def Token.Shaped (token : Token) : Prop :=
  token.kind.Word token.literal.toList

/-- The characters between quotes that stand for a character: an escape sequence, or the character
itself if it is not among some excluded ones. -/
inductive Lexeme.Means (excluded : List Char) : List Char → Char → Prop where
  | escape {mark} (marked : Escape.isMark mark = true) :
    Means excluded ['\\', mark] (Escape.meaning mark)
  | plain {char} (free : char ∉ excluded) : Means excluded [char] char

/-- The number that digits make behind a sign or none. -/
def Lexeme.signedValue (signs digits : List Char) : Int :=
  let magnitude := digits.foldl (fun value digit => 10 * value + digitValue digit) 0
  if signs = ['-'] then -(magnitude : Int) else magnitude

/-- The token is a literal for a value. -/
inductive Token.Denotes (token : Token) : Literal → Prop where
  | integer {signs digits} (kind : token.kind = .integer) (signed : IsSigns signs)
    (whole : IsDigits digits) (written : token.literal.toList = signs ++ digits) :
    Denotes token (.integer (signedValue signs digits))
  | decimal {signs digits places} (kind : token.kind = .decimal) (signed : IsSigns signs)
    (whole : IsDigits digits) (fraction : IsDigits places)
    (stored : Decimal.isScale places.length = true)
    (written : token.literal.toList = signs ++ digits ++ '.' :: places) :
    Denotes token (.decimal ⟨signedValue signs (digits ++ places), places.length⟩)
  | character {content value} (kind : token.kind = .character)
    (one : Means characterExcluded content value)
    (written : token.literal.toList = '\'' :: (content ++ ['\''])) :
    Denotes token (.character value)
  | string {items : List (List Char × Char)} (kind : token.kind = .string)
    (each : ∀ item ∈ items, Means stringExcluded item.1 item.2)
    (written : token.literal.toList = '"' :: (items.flatMap (·.1) ++ ['"'])) :
    Denotes token (.string (String.ofList (items.map (·.2))))

namespace Grammar

/-- The words that no program can rely on as names. -/
def keywords : List String :=
  ["LET", "DEF", "DO", "END", "IF", "ELSE", "FOR", "IN", "WHILE", "RETURN", "NIL", "TRUE", "FALSE",
    "AND", "OR"]

/-- The token is a name with a permitted text. -/
structure IsName (permitted : String → Prop) (token : Token) : Prop where
  /-- It is an identifier. -/
  kind : token.kind = .identifier
  /-- Its text is permitted. -/
  permitted : permitted token.literal

variable (permitted : String → Prop)

mutual

/-- Operands and operators of a level, grouped from the left. -/
inductive Chain : Level → List Token → Expr → Prop where
  | operand {level tokens value} (only : Operand level tokens value) : Chain level tokens value
  | operator {level before sign after operator left right} (first : Chain level before left)
    (member : operator ∈ level.operators) (written : sign.literal = operator.symbol)
    (second : Operand level after right) :
    Chain level (before ++ sign :: after) (.binary operator left right none)

/-- An operand of a level: a chain of the next tighter level, if there is one. -/
inductive Operand : Level → List Token → Expr → Prop where
  | chain {level tighter tokens value} (next : level.tighter? = some tighter)
    (inner : Chain tighter tokens value) : Operand level tokens value
  | selection {level tokens value} (last : level.tighter? = none)
    (inner : Selection tokens value) : Operand level tokens value

/-- A primary expression and the members that are selected from it. -/
inductive Selection : List Token → Expr → Prop where
  | primary {tokens value} (only : Primary tokens value) : Selection tokens value
  | member {tokens point name receiver} (object : Selection tokens receiver)
    (pointed : point.literal = ".") (named : IsName permitted name) :
    Selection (tokens ++ [point, name]) (.member receiver name.literal none none)
  | memberCall {tokens point name opening inside receiver values}
    (object : Selection tokens receiver) (pointed : point.literal = ".")
    (named : IsName permitted name) (opened : opening.literal = "(")
    (arguments : Arguments inside values) :
    Selection (tokens ++ point :: name :: opening :: inside)
      (.memberCall receiver name.literal values none none)

/-- A literal, a name, a call or a group. -/
inductive Primary : List Token → Expr → Prop where
  | nil {token} (written : token.literal = "NIL") : Primary [token] (.literal .nil none)
  | true {token} (written : token.literal = "TRUE") :
    Primary [token] (.literal (.boolean true) none)
  | false {token} (written : token.literal = "FALSE") :
    Primary [token] (.literal (.boolean false) none)
  | literal {token value} (denotes : token.Denotes value) : Primary [token] (.literal value none)
  | name {name} (named : IsName permitted name) : Primary [name] (.variable name.literal none none)
  | call {name opening inside values} (named : IsName permitted name)
    (opened : opening.literal = "(") (arguments : Arguments inside values) :
    Primary (name :: opening :: inside) (.call name.literal values none none)
  | group {opening inside closing value} (opened : opening.literal = "(")
    (inner : Chain .logical inside value) (closed : closing.literal = ")") :
    Primary (opening :: (inside ++ [closing])) (.group value none)

/-- The arguments of a call and the parenthesis that closes them. -/
inductive Arguments : List Token → List Expr → Prop where
  | none {closing} (closed : closing.literal = ")") : Arguments [closing] []
  | some {inside closing values} (listed : ArgumentList inside values)
    (closed : closing.literal = ")") : Arguments (inside ++ [closing]) values

/-- One argument or more, with commas between them. -/
inductive ArgumentList : List Token → List Expr → Prop where
  | one {tokens value} (first : Chain .logical tokens value) : ArgumentList tokens [value]
  | more {tokens comma later value values} (first : Chain .logical tokens value)
    (separated : comma.literal = ",") (rest : ArgumentList later values) :
    ArgumentList (tokens ++ comma :: later) (value :: values)

end

/-- An expression. -/
abbrev Expression : List Token → Expr → Prop :=
  Chain permitted .logical

/-- A colon and the name of a type, or nothing. -/
inductive OptionalType : List Token → Option String → Prop where
  | none : OptionalType [] none
  | some {colon name} (marked : colon.literal = ":") (named : IsName permitted name) :
    OptionalType [colon, name] (some name.literal)

/-- An equals sign and an expression, or nothing. -/
inductive Initial : List Token → Option Expr → Prop where
  | none : Initial [] none
  | some {equals tokens value} (marked : equals.literal = "=")
    (inner : Expression permitted tokens value) : Initial (equals :: tokens) (some value)

mutual

/-- A statement. -/
inductive Statement : List Token → Stmt → Prop where
  | declaration {word name marked given stop typeName value} (first : word.literal = "LET")
    (named : IsName permitted name) (noted : OptionalType permitted marked typeName)
    (initial : Initial permitted given value) (stopped : stop.literal = ";") :
    Statement (word :: name :: (marked ++ given ++ [stop]))
      (.declaration ⟨name.literal, typeName, value, none⟩)
  | conditional {word tested opening inside closing condition accepted}
    (first : word.literal = "IF") (test : Expression permitted tested condition)
    (opened : opening.literal = "DO") (body : Block inside accepted)
    (closed : closing.literal = "END") :
    Statement (word :: (tested ++ opening :: (inside ++ [closing])))
      (.conditional condition accepted [])
  | alternative {word tested opening inside between other closing condition accepted rejected}
    (first : word.literal = "IF") (test : Expression permitted tested condition)
    (opened : opening.literal = "DO") (body : Block inside accepted)
    (otherwise : between.literal = "ELSE") (alternative : Block other rejected)
    (closed : closing.literal = "END") :
    Statement (word :: (tested ++ opening :: (inside ++ between :: (other ++ [closing]))))
      (.conditional condition accepted rejected)
  | iteration {word name preposition tested opening inside closing value body}
    (first : word.literal = "FOR") (named : IsName permitted name)
    (within : preposition.literal = "IN") (loop : Expression permitted tested value)
    (opened : opening.literal = "DO") (inner : Block inside body)
    (closed : closing.literal = "END") :
    Statement (word :: name :: preposition :: (tested ++ opening :: (inside ++ [closing])))
      (.iteration name.literal value body)
  | repetition {word tested opening inside closing condition body}
    (first : word.literal = "WHILE") (test : Expression permitted tested condition)
    (opened : opening.literal = "DO") (inner : Block inside body)
    (closed : closing.literal = "END") :
    Statement (word :: (tested ++ opening :: (inside ++ [closing]))) (.repetition condition body)
  | result {word tokens stop value} (first : word.literal = "RETURN")
    (inner : Expression permitted tokens value) (stopped : stop.literal = ";") :
    Statement (word :: (tokens ++ [stop])) (.result value)
  | assignment {place equals tokens stop target value} (goal : Expression permitted place target)
    (marked : equals.literal = "=") (inner : Expression permitted tokens value)
    (stopped : stop.literal = ";") :
    Statement (place ++ equals :: (tokens ++ [stop])) (.assignment target value)
  | expression {tokens stop value} (inner : Expression permitted tokens value)
    (stopped : stop.literal = ";") : Statement (tokens ++ [stop]) (.expression value)

/-- Statements, with blank semicolons before, between and after them. -/
inductive Block : List Token → List Stmt → Prop where
  | nil : Block [] []
  | blank {stop tokens statements} (stopped : stop.literal = ";")
    (later : Block tokens statements) : Block (stop :: tokens) statements
  | cons {tokens later statement statements} (first : Statement tokens statement)
    (rest : Block later statements) : Block (tokens ++ later) (statement :: statements)

end

/-- A field. -/
inductive IsField : List Token → Field → Prop where
  | mk {word name colon type given stop value} (first : word.literal = "LET")
    (named : IsName permitted name) (marked : colon.literal = ":")
    (typed : IsName permitted type) (initial : Initial permitted given value)
    (stopped : stop.literal = ";") :
    IsField (word :: name :: colon :: type :: (given ++ [stop]))
      ⟨name.literal, type.literal, value, none⟩

/-- One parameter or more, with commas between them. -/
inductive ParameterList : List Token → List Parameter → Prop where
  | one {name colon type} (named : IsName permitted name) (marked : colon.literal = ":")
    (typed : IsName permitted type) :
    ParameterList [name, colon, type] [⟨name.literal, type.literal⟩]
  | more {name colon type comma later parameters} (named : IsName permitted name)
    (marked : colon.literal = ":") (typed : IsName permitted type)
    (separated : comma.literal = ",") (rest : ParameterList later parameters) :
    ParameterList (name :: colon :: type :: comma :: later)
      (⟨name.literal, type.literal⟩ :: parameters)

/-- The parameters of a method and the parenthesis that closes them. -/
inductive Parameters : List Token → List Parameter → Prop where
  | none {closing} (closed : closing.literal = ")") : Parameters [closing] []
  | some {inside closing parameters} (listed : ParameterList permitted inside parameters)
    (closed : closing.literal = ")") : Parameters (inside ++ [closing]) parameters

/-- A method. -/
inductive IsMethod : List Token → Method → Prop where
  | mk {word name opening listed marked beginning inside closing parameters typeName body}
    (first : word.literal = "DEF") (named : IsName permitted name)
    (opened : opening.literal = "(") (accepts : Parameters permitted listed parameters)
    (noted : OptionalType permitted marked typeName) (begun : beginning.literal = "DO")
    (inner : Block permitted inside body) (closed : closing.literal = "END") :
    IsMethod (word :: name :: opening :: (listed ++ (marked ++ beginning :: (inside ++ [closing]))))
      ⟨name.literal, parameters, typeName, body, none⟩

/-- Any number of constructs of one kind, one after the other. -/
inductive Many {α : Type} (one : List Token → α → Prop) : List Token → List α → Prop where
  | nil : Many one [] []
  | cons {tokens later value values} (first : one tokens value) (rest : Many one later values) :
    Many one (tokens ++ later) (value :: values)

/-- A program: fields, then methods. -/
inductive IsProgram : List Token → Program → Prop where
  | mk {front back fields methods} (first : Many (IsField permitted) front fields)
    (second : Many (IsMethod permitted) back methods) : IsProgram (front ++ back) ⟨fields, methods⟩

end Grammar

end LetDef
