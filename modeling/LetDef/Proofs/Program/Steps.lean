import LetDef.Proofs.Program.Reading

/-!
# Readers as steps

A reader without the proof that it takes tokens is a function from tokens to a construct and the
tokens behind it, or a failure (`Parser.Reader`). Such readers are put together from the readers
of their parts, one step behind the other and with a choice where one token is looked at. The
equations here say so for every reader of the parser.
-/
namespace LetDef.Parser

variable {α β : Type} {bound fewer : Nat}

/-- What reads a construct from the front of some tokens. -/
abbrev Reader (α : Type) : Type :=
  List Token → Except ParseFailure (α × List Token)

/-- What was read, without the bound on the tokens behind it. -/
def plain : Parse α bound → Except ParseFailure (α × List Token)
  | .ok ⟨value, rest, _⟩ => .ok (value, rest)
  | .error failure => .error failure

/-- What was read is what the reader gives. -/
theorem plain_eq_ok {result : Parse α bound} {value : α} {rest : List Token} :
    plain result = .ok (value, rest) ↔ Gives result value rest := by
  cases result with
  | error failure => simp [plain, gives_error]
  | ok parsed =>
    obtain ⟨found, left, within⟩ := parsed
    simp [plain, gives_ok]

namespace Reader

/-- A reader of the parser. -/
def of {size : List Token → Nat} (read : (tokens : List Token) → Parse α (size tokens)) :
    Reader α :=
  fun tokens => plain (read tokens)

/-- Nothing is read. -/
def pure (value : α) : Reader α :=
  fun tokens => .ok (value, tokens)

/-- Something is missing. -/
def missing (what : Expectation) : Reader α :=
  fun tokens => .error ⟨.expected what, tokens⟩

/-- A step and the step after it. -/
def bind (first : Reader β) (next : β → Reader α) : Reader α := fun tokens =>
  match first tokens with
  | .ok (found, rest) => next found rest
  | .error failure => .error failure

/-- What is read behind a text, if that is in front, or else in its place. -/
def behind (literal : String) (taken other : Reader α) : Reader α := fun tokens =>
  match after? literal tokens with
  | some ⟨_, rest, _⟩ => taken rest
  | none => other tokens

/-- Behind a text that is in front, what is taken is read. -/
theorem behind_cons {literal : String} {token : Token} (reads : token.literal = literal)
    (taken other : Reader α) (rest : List Token) :
    behind literal taken other (token :: rest) = taken rest := by
  rw [behind, after?_cons reads]

/-- Where a text is not in front, the other reader is at work. -/
theorem behind_of_not_starts {literal : String} {tokens : List Token}
    (stops : ¬ Starts literal tokens) (taken other : Reader α) :
    behind literal taken other tokens = other tokens := by
  rw [behind, after?_eq_none stops]

/-- A reader that takes two steps. -/
theorem plain_bind {first : Parse β fewer} {next : Parsed β fewer → Parse α bound}
    {after : β → Reader α}
    (same : ∀ found rest within, plain (next ⟨found, rest, within⟩) = after found rest) :
    plain (first >>= next) = bind (fun _ => plain first) after [] := by
  cases first with
  | error failure => rfl
  | ok parsed => exact same _ _ _

/-- A step whose construct is passed on. -/
theorem plain_pass {first : Parse α fewer} {next : Parsed α fewer → Parse α bound}
    (same : ∀ found rest within, plain (next ⟨found, rest, within⟩) = .ok (found, rest)) :
    plain (first >>= next) = plain first := by
  cases first with
  | error failure => rfl
  | ok parsed => exact same _ _ _

section Expressions

variable {level : Level} {left receiver : Expr} {token : Token} {rest : List Token}

/-- A text is read if it is in front, and else it is missing. -/
theorem of_expect (literal : String) (what : Expectation) :
    of (expect literal what) = behind literal (pure ()) (missing what) := by
  funext tokens
  unfold of expect behind
  cases after? literal tokens <;> rfl

/-- The first token decides whether it is read as a name. -/
theorem of_name_cons (what : Expectation) (token : Token) :
    (∀ rest, of (name what) (token :: rest) = .ok (token.literal, rest)) ∨
      ∃ fault, ∀ rest, of (name what) (token :: rest) = .error ⟨fault, token :: rest⟩ := by
  by_cases named : token.kind = .identifier
  · cases digit : startsWithDigit token.literal with
    | true => exact .inr ⟨.digitInName, fun rest => by simp [of, name, named, digit, plain]⟩
    | false => exact .inl fun rest => by simp [of, name, named, digit, plain]
  · exact .inr ⟨.expected what, fun rest => by simp [of, name, named, Parser.missing, plain]⟩

/-- A chain is read in two steps. -/
theorem of_chain : of (chain level) = bind (of (operand level)) fun first =>
    of (chainAfter level first) := by
  funext tokens
  rw [of, chain]
  exact plain_bind fun _ _ _ => plain_pass fun _ _ _ => rfl

/-- Behind an operator its right operand is read, and then the rest of the chain. -/
theorem of_chainAfter_cons {operator : BinaryOp}
    (found : level.operator? token.literal = some operator) :
    of (chainAfter level left) (token :: rest) =
      bind (of (operand level)) (fun right =>
        of (chainAfter level (.binary operator left right none))) rest := by
  rw [of, chainAfter]
  simp only [found]
  exact plain_bind fun _ _ _ => plain_pass fun _ _ _ => rfl

/-- Nothing is read where no operator of the level is in front. -/
theorem of_chainAfter_of_stopsAt {tokens : List Token} (stops : StopsAt level tokens) :
    of (chainAfter level left) tokens = pure left tokens := by
  cases tokens with
  | nil =>
    rw [of, chainAfter]
    rfl
  | cons token rest =>
    have none : level.operator? token.literal = none := stops token rfl
    rw [of, chainAfter]
    simp only [none]
    rfl

/-- An operand is read as a chain of the next tighter level, if there is one. -/
theorem of_operand_of_tighter {tighter : Level} (next : level.tighter? = some tighter) :
    of (operand level) = of (chain tighter) := by
  funext tokens
  rw [of, operand]
  split
  next found =>
    obtain rfl := Option.some.inj (next.symm.trans found)
    rfl
  next found =>
    rw [next] at found
    contradiction

/-- An operand of the tightest level is read as a selection. -/
theorem of_operand_of_last (last : level.tighter? = none) : of (operand level) = of selection := by
  funext tokens
  rw [of, operand]
  split
  next found =>
    rw [last] at found
    contradiction
  next => rfl

/-- A selection is read in two steps. -/
theorem of_selection : of selection = bind (of primary) fun first => of (selectionAfter first) := by
  funext tokens
  rw [of, selection]
  exact plain_bind fun _ _ _ => plain_pass fun _ _ _ => rfl

/-- Behind a point a name is read, and behind a parenthesis the arguments of a call; then more
members. -/
theorem of_selectionAfter : of (selectionAfter receiver) =
    behind "." (bind (of (name .memberName)) fun member =>
        behind "(" (bind (of arguments) fun arguments =>
            of (selectionAfter (.memberCall receiver member arguments none none)))
          (of (selectionAfter (.member receiver member none none))))
      (pure receiver) := by
  funext tokens
  rw [of, selectionAfter, behind]
  cases after? "." tokens with
  | none => rfl
  | some point =>
    refine plain_bind fun member rest _ => ?_
    dsimp only [behind]
    cases after? "(" rest with
    | none => exact plain_pass fun _ _ _ => rfl
    | some opening => exact plain_bind fun _ _ _ => plain_pass fun _ _ _ => rfl

/-- Arguments are read unless a parenthesis closes them at once. -/
theorem of_arguments : of arguments = behind ")" (pure []) (of argumentsFrom) := by
  funext tokens
  rw [of, arguments, behind]
  cases after? ")" tokens <;> rfl

/-- One argument is read, and then others behind a comma or else the parenthesis. -/
theorem of_argumentsFrom : of argumentsFrom = bind (of (chain .logical)) fun first =>
    behind "," (bind (of argumentsFrom) fun later => pure (first :: later))
      (bind (of (expect ")" .argumentsEnd)) fun _ => pure [first]) := by
  funext tokens
  rw [of, argumentsFrom]
  refine plain_bind fun first rest _ => ?_
  dsimp only [behind]
  cases after? "," rest with
  | none => exact plain_bind fun _ _ _ => rfl
  | some comma => exact plain_bind fun _ _ _ => rfl

/-- How a primary expression is read by its first token: at once, as a group or as a call; or the
first token is none that may stand there. -/
inductive ReadsPrimary (token : Token) : Prop where
  | word (value : Expr) (same : ∀ rest, of primary (token :: rest) = .ok (value, rest))
  | name (value : Expr) (call : List Expr → Expr) (same : ∀ rest, of primary (token :: rest) =
      behind "(" (bind (of arguments) fun values => pure (call values)) (pure value) rest)
  | group (same : ∀ rest, of primary (token :: rest) = bind (of (chain .logical))
      (fun inner => bind (of (expect ")" .groupEnd)) fun _ => pure (.group inner none)) rest)
  | refused (fault : ParseFault)
    (same : ∀ rest, of primary (token :: rest) = .error ⟨fault, token :: rest⟩)

/-- The first token decides how a primary expression is read. -/
theorem readsPrimary (token : Token) : ReadsPrimary token := by
  cases keyword : Literal.ofKeyword? token with
  | some value =>
    refine .word (.literal value none) fun rest => ?_
    rw [of, primary]
    simp only [keyword]
    rfl
  | none =>
    cases read : Literal.ofToken token with
    | error fault =>
      refine .refused fault fun rest => ?_
      rw [of, primary]
      simp only [keyword, read]
      rfl
    | ok value =>
      cases value with
      | some value =>
        refine .word (.literal value none) fun rest => ?_
        rw [of, primary]
        simp only [keyword, read]
        rfl
      | none =>
        by_cases named : token.kind = .identifier
        · cases digit : startsWithDigit token.literal with
          | true =>
            refine .refused .digitInName fun rest => ?_
            rw [of, primary]
            simp only [keyword, read, named, digit, if_true]
            rfl
          | false =>
            refine .name (.variable token.literal none none)
              (fun values => .call token.literal values none none) fun rest => ?_
            rw [of, primary, behind]
            simp only [keyword, read, named, digit, if_true, Bool.false_eq_true, if_false]
            cases after? "(" rest with
            | none => rfl
            | some opening => exact plain_bind fun _ _ _ => rfl
        · cases opened : token.reads "(" with
          | true =>
            refine .group fun rest => ?_
            rw [of, primary]
            simp only [keyword, read, named, opened, if_true, if_false]
            exact plain_bind fun _ _ _ => plain_bind fun _ _ _ => rfl
          | false =>
            refine .refused (.expected .expression) fun rest => ?_
            rw [of, primary]
            simp only [keyword, read, named, opened, if_false, Bool.false_eq_true]
            rfl

/-- No primary expression is read where no token is. -/
theorem of_primary_nil : of primary [] = .error ⟨.expected .expression, []⟩ := by
  rw [of, primary]
  rfl

end Expressions

section Statements

/-- An expression is read behind its sign, if that is in front. -/
theorem of_expressionAfter (literal : String) : of (expressionAfter literal) =
    behind literal (bind (of expression) fun value => pure (some value)) (pure none) := by
  funext tokens
  unfold of expressionAfter behind
  cases after? literal tokens with
  | none => rfl
  | some sign => exact plain_bind fun _ _ _ => rfl

/-- A name is read behind a colon, if that is in front. -/
theorem of_nameAfterColon (what : Expectation) : of (nameAfterColon what) =
    behind ":" (bind (of (name what)) fun text => pure (some text)) (pure none) := by
  funext tokens
  unfold of nameAfterColon behind
  cases after? ":" tokens with
  | none => rfl
  | some colon => exact plain_bind fun _ _ _ => rfl

/-- A declaration is read in four steps. -/
theorem of_declaration : of declaration = bind (of (name .variableName)) fun text =>
    bind (of (nameAfterColon .variableType)) fun typeName =>
      bind (of (expressionAfter "=")) fun value =>
        bind (of (expect ";" .declarationEnd)) fun _ => pure ⟨text, typeName, value, none⟩ := by
  funext tokens
  exact plain_bind fun _ _ _ => plain_bind fun _ _ _ => plain_bind fun _ _ _ =>
    plain_bind fun _ _ _ => rfl

/-- The value of a `RETURN` is read in two steps. -/
theorem of_result : of result = bind (of expression) fun value =>
    bind (of (expect ";" .resultEnd)) fun _ => pure (.result value) := by
  funext tokens
  exact plain_bind fun _ _ _ => plain_bind fun _ _ _ => rfl

/-- What is missing where an assignment, or an expression alone, has no end. -/
def assignedEnd : Option Expr → Expectation
  | some _ => .assignmentEnd
  | none => .expressionEnd

/-- An assignment or an expression is read in three steps, of which the last one depends on which
of them it is. -/
theorem of_expressionStatement : of expressionStatement = bind (of expression) fun target =>
    bind (of (expressionAfter "=")) fun value =>
      bind (of (expect ";" (assignedEnd value))) fun _ => pure (assigned target value) := by
  funext tokens
  refine plain_bind fun target rest _ => plain_bind fun value rest _ => ?_
  cases value with
  | some value => exact plain_bind fun _ _ _ => rfl
  | none => exact plain_bind fun _ _ _ => rfl

/-- A body ends at the word that closes it. -/
theorem of_block_of_closing {branch : Bool} {token : Token} {closing : Closing}
    (ends : Closing.of? branch token = some closing) (rest : List Token) :
    of (block branch) (token :: rest) = .ok (([], closing), rest) := by
  rw [of, block]
  simp only [ends]
  rfl

/-- A blank semicolon is passed over. -/
theorem of_block_of_blank {branch : Bool} {token : Token}
    (goes : Closing.of? branch token = none) (blank : token.literal = ";") (rest : List Token) :
    of (block branch) (token :: rest) = of (block branch) rest := by
  rw [of, block]
  simp only [goes, Token.reads, blank, decide_true, if_true]
  exact plain_pass fun _ _ _ => rfl

/-- A statement is in front, since there is a token that neither ends a body nor is a blank. -/
def Continues (branch : Bool) (tokens : List Token) : Prop :=
  ∃ token ∈ tokens.head?, Closing.of? branch token = none ∧ token.literal ≠ ";"

/-- Where a statement is in front, it is read, and then the rest of the body. -/
theorem of_block_of_continues {branch : Bool} {tokens : List Token}
    (continues : Continues branch tokens) :
    of (block branch) tokens = bind (of statement) (fun first =>
      bind (of (block branch)) fun others => pure (first :: others.1, others.2)) tokens := by
  obtain ⟨token, front, goes, filled⟩ := continues
  obtain ⟨rest, rfl⟩ : ∃ rest, tokens = token :: rest :=
    List.head?_eq_some_iff.mp front
  rw [of, block]
  simp only [goes, Token.reads, filled, decide_false, Bool.false_eq_true, if_false]
  exact plain_bind fun _ _ _ => plain_bind fun _ _ _ => rfl

/-- A body without an end lacks the word that closes it. -/
theorem of_block_nil (branch : Bool) : of (block branch) [] =
    .error ⟨.expected (if branch then .branchEnd else .blockEnd), []⟩ := by
  rw [of, block]
  rfl

/-- The other branch of a choice is read as a body. -/
theorem of_alternative_otherwise : of (alternative .otherwise) =
    bind (of (block false)) fun found => pure found.1 := by
  funext tokens
  rw [of, alternative]
  exact plain_bind fun _ _ _ => rfl

/-- If the choice is done, nothing is read. -/
theorem of_alternative_done : of (alternative .done) = pure [] := by
  funext tokens
  rw [of, alternative]
  rfl

variable {token : Token} {rest : List Token}

/-- Behind `LET` a declaration is read. -/
theorem of_statement_of_let (word : token.literal = "LET") : of statement (token :: rest) =
    bind (of declaration) (fun declared => pure (.declaration declared)) rest := by
  rw [of, statement]
  simp only [Token.reads, word, decide_true, if_true]
  exact plain_bind fun _ _ _ => rfl

/-- Behind `IF` a condition, a body, and the other branch are read. -/
theorem of_statement_of_if (word : token.literal = "IF") : of statement (token :: rest) =
    bind (of expression) (fun condition => bind (of (expect "DO" .branchStart)) fun _ =>
      bind (of (block true)) fun accepted => bind (of (alternative accepted.2)) fun rejected =>
        pure (.conditional condition accepted.1 rejected)) rest := by
  rw [of, statement]
  simp only [Token.reads, word, String.reduceEq, decide_false, decide_true, Bool.false_eq_true,
    if_false, if_true]
  exact plain_bind fun _ _ _ => plain_bind fun _ _ _ => plain_bind fun _ _ _ =>
    plain_bind fun _ _ _ => rfl

/-- Behind `FOR` a name, a value and a body are read. -/
theorem of_statement_of_for (word : token.literal = "FOR") : of statement (token :: rest) =
    bind (of (name .loopVariable)) (fun text => bind (of (expect "IN" .loopValue)) fun _ =>
      bind (of expression) fun value => bind (of (expect "DO" .iterationStart)) fun _ =>
        bind (of (block false)) fun body => pure (.iteration text value body.1)) rest := by
  rw [of, statement]
  simp only [Token.reads, word, String.reduceEq, decide_false, decide_true, Bool.false_eq_true,
    if_false, if_true]
  exact plain_bind fun _ _ _ => plain_bind fun _ _ _ => plain_bind fun _ _ _ =>
    plain_bind fun _ _ _ => plain_bind fun _ _ _ => rfl

/-- Behind `WHILE` a condition and a body are read. -/
theorem of_statement_of_while (word : token.literal = "WHILE") : of statement (token :: rest) =
    bind (of expression) (fun condition => bind (of (expect "DO" .repetitionStart)) fun _ =>
      bind (of (block false)) fun body => pure (.repetition condition body.1)) rest := by
  rw [of, statement]
  simp only [Token.reads, word, String.reduceEq, decide_false, decide_true, Bool.false_eq_true,
    if_false, if_true]
  exact plain_bind fun _ _ _ => plain_bind fun _ _ _ => plain_bind fun _ _ _ => rfl

/-- Behind `RETURN` a value is read. -/
theorem of_statement_of_return (word : token.literal = "RETURN") :
    of statement (token :: rest) = of result rest := by
  rw [of, statement]
  simp only [Token.reads, word, String.reduceEq, decide_false, decide_true, Bool.false_eq_true,
    if_false, if_true]
  exact plain_pass fun _ _ _ => rfl

/-- No word is in front that a statement begins with, expressions apart. -/
def BeginsExpression (tokens : List Token) : Prop :=
  ∀ token ∈ tokens.head?, token.literal ∉ statementWords

/-- Where none of these words is in front, an expression or an assignment is read. -/
theorem of_statement_of_expression {tokens : List Token} (other : BeginsExpression tokens) :
    of statement tokens = of expressionStatement tokens := by
  cases tokens with
  | nil =>
    rw [of, statement]
    rfl
  | cons token rest =>
    have apart := other token rfl
    simp only [statementWords, List.mem_cons, List.not_mem_nil, or_false, not_or] at apart
    rw [of, statement]
    simp only [Token.reads, apart, decide_false, Bool.false_eq_true, if_false]
    rfl

end Statements

section Programs

/-- A field is read in five steps. -/
theorem of_field : of field = bind (of (name .fieldName)) fun text =>
    bind (of (expect ":" .fieldColon)) fun _ => bind (of (name .fieldType)) fun typeName =>
      bind (of (expressionAfter "=")) fun value =>
        bind (of (expect ";" .fieldEnd)) fun _ => pure ⟨text, typeName, value, none⟩ := by
  funext tokens
  exact plain_bind fun _ _ _ => plain_bind fun _ _ _ => plain_bind fun _ _ _ =>
    plain_bind fun _ _ _ => plain_bind fun _ _ _ => rfl

/-- One parameter is read, and then others behind a comma or else the parenthesis. -/
theorem of_parametersFrom : of parametersFrom = bind (of (name .parameterName)) fun text =>
    bind (of (expect ":" .parameterColon)) fun _ =>
      bind (of (name .parameterType)) fun typeName =>
        behind "," (bind (of parametersFrom) fun later => pure (⟨text, typeName⟩ :: later))
          (bind (of (expect ")" .parametersEnd)) fun _ => pure [⟨text, typeName⟩]) := by
  funext tokens
  rw [of, parametersFrom]
  refine plain_bind fun _ _ _ => plain_bind fun _ _ _ => plain_bind fun _ rest _ => ?_
  dsimp only [behind]
  cases after? "," rest with
  | none => exact plain_bind fun _ _ _ => rfl
  | some comma => exact plain_bind fun _ _ _ => rfl

/-- Parameters are read unless a parenthesis closes them at once. -/
theorem of_parameters : of parameters = behind ")" (pure []) (of parametersFrom) := by
  funext tokens
  unfold of parameters behind
  cases after? ")" tokens <;> rfl

/-- A method is read in six steps. -/
theorem of_method : of method = bind (of (name .methodName)) fun text =>
    bind (of (expect "(" .parametersStart)) fun _ => bind (of parameters) fun parameters =>
      bind (of (nameAfterColon .returnType)) fun returnTypeName =>
        bind (of (expect "DO" .methodStart)) fun _ => bind (of (block false)) fun body =>
          pure ⟨text, parameters, returnTypeName, body.1, none⟩ := by
  funext tokens
  exact plain_bind fun _ _ _ => plain_bind fun _ _ _ => plain_bind fun _ _ _ =>
    plain_bind fun _ _ _ => plain_bind fun _ _ _ => plain_bind fun _ _ _ => rfl

/-- A field is read behind each `LET` that is in front. -/
theorem of_fields : of fields = behind "LET" (bind (of field) fun first =>
    bind (of fields) fun later => pure (first :: later)) (pure []) := by
  funext tokens
  rw [of, fields, behind]
  cases after? "LET" tokens with
  | none => rfl
  | some word => exact plain_bind fun _ _ _ => plain_bind fun _ _ _ => rfl

/-- A method is read behind each `DEF` that is in front. -/
theorem of_methods : of methods = behind "DEF" (bind (of method) fun first =>
    bind (of methods) fun later => pure (first :: later)) (pure []) := by
  funext tokens
  rw [of, methods, behind]
  cases after? "DEF" tokens with
  | none => rfl
  | some word => exact plain_bind fun _ _ _ => plain_bind fun _ _ _ => rfl

/-- A program is read in two steps, and nothing may be left. -/
theorem program_eq (tokens : List Token) : program tokens =
    match bind (of fields) (fun fields => bind (of methods) fun methods => pure ⟨fields, methods⟩)
      tokens with
    | .ok (found, []) => .ok found
    | .ok (_, token :: rest) => .error ⟨.expected .fieldOrMethod, token :: rest⟩
    | .error failure => .error failure := by
  unfold program bind of
  cases Parser.fields tokens with
  | error failure => rfl
  | ok first =>
    obtain ⟨fields, rest, _⟩ := first
    simp only [Bind.bind, Except.bind, plain]
    cases Parser.methods rest with
    | error failure => rfl
    | ok second =>
      obtain ⟨methods, rest, _⟩ := second
      cases rest <;> rfl

end Programs

end Reader

end LetDef.Parser
