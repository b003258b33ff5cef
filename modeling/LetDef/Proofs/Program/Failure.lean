import LetDef.Program.Parser

/-!
# Failures of readers

What every reader leaves, whether it succeeds or fails, is an end of the tokens that it was given
(`Parser.Leaves`). Where it fails, something is missing, or else the first token that is left is at
fault by itself: it is a literal without a value or a name that starts with a digit
(`Token.Refused`).
-/
namespace LetDef

/-- No value or name can be read from the token, for this reason. -/
def Token.Refused (token : Token) (fault : ParseFault) : Prop :=
  Literal.ofToken token = .error fault ∨
    (token.kind = .identifier ∧ Parser.startsWithDigit token.literal = true ∧ fault = .digitInName)

/-- Something is missing, or the first token that is left is refused. -/
def ParseFailure.Explained (failure : ParseFailure) : Prop :=
  (∃ what, failure.fault = .expected what) ∨
    ∃ token rest, failure.remaining = token :: rest ∧ token.Refused failure.fault

namespace Parser

variable {α β : Type} {bound fewer : Nat}

/-- A reader leaves an end of the tokens, and a failure of it is explained. -/
inductive Leaves (tokens : List Token) : Parse α bound → Prop where
  | ok {value rest within} (left : rest <:+ tokens) : Leaves tokens (.ok ⟨value, rest, within⟩)
  | error {failure} (left : failure.remaining <:+ tokens) (explained : failure.Explained) :
    Leaves tokens (.error failure)

namespace Leaves

variable {tokens rest : List Token} {token : Token}

/-- A reader that is done leaves what it leaves. -/
theorem done {value : α} {within : rest.length < bound} :
    Leaves rest (.ok ⟨value, rest, within⟩ : Parse α bound) :=
  .ok List.suffix_rfl

/-- A reader that leaves the tokens behind one is done. -/
theorem next {value : α} {within : rest.length < bound} :
    Leaves (token :: rest) (.ok ⟨value, rest, within⟩ : Parse α bound) :=
  .ok (List.suffix_cons token rest)

/-- Something is missing here. -/
theorem missing {what : Expectation} :
    Leaves tokens (.error ⟨.expected what, tokens⟩ : Parse α bound) :=
  .error List.suffix_rfl (.inl ⟨what, rfl⟩)

/-- The first token is refused. -/
theorem refused {fault : ParseFault} (refused : token.Refused fault) :
    Leaves (token :: rest) (.error ⟨fault, token :: rest⟩ : Parse α bound) :=
  .error List.suffix_rfl (.inr ⟨token, rest, rfl, refused⟩)

/-- An end of an end of tokens is one of these. -/
theorem mono {result : Parse α bound} (leaves : Leaves rest result) (left : rest <:+ tokens) :
    Leaves tokens result := by
  cases leaves with
  | ok further => exact .ok (further.trans left)
  | error further explained => exact .error (further.trans left) explained

/-- What is read behind a token leaves an end of all tokens. -/
theorem behind {result : Parse α bound} (leaves : Leaves rest result) :
    Leaves (token :: rest) result :=
  leaves.mono (List.suffix_cons token rest)

/-- A step and what follows it leave an end of the tokens. -/
theorem bind {first : Parse β fewer} {next : Parsed β fewer → Parse α bound}
    (leaves : Leaves tokens first)
    (after : ∀ value rest within, Leaves rest (next ⟨value, rest, within⟩)) :
    Leaves tokens (first >>= next) := by
  cases leaves with
  | ok left => exact (after _ _ _).mono left
  | error left explained => exact .error left explained

end Leaves

variable {tokens : List Token}

/-- A text is not in front, or it is the first token. -/
theorem after?_eq (literal : String) (tokens : List Token) :
    after? literal tokens = none ∨ ∃ token rest within, tokens = token :: rest ∧
      after? literal tokens = some ⟨(), rest, within⟩ := by
  cases tokens with
  | nil => exact .inl rfl
  | cons token rest =>
    rw [after?]
    cases token.reads literal with
    | false => exact .inl rfl
    | true => exact .inr ⟨token, rest, Nat.lt_succ_self _, rfl, rfl⟩

/-- Looking for a text leaves an end of the tokens. -/
theorem expect_leaves (literal : String) (what : Expectation) (tokens : List Token) :
    Leaves tokens (expect literal what tokens) := by
  unfold expect
  rcases after?_eq literal tokens with found | ⟨token, rest, within, rfl, found⟩
  · rw [found]
    exact .missing
  · rw [found]
    exact .next

/-- Reading a name leaves an end of the tokens; one that begins with a digit is refused. -/
theorem name_leaves (what : Expectation) (tokens : List Token) :
    Leaves tokens (name what tokens) := by
  cases tokens with
  | nil => exact .missing
  | cons token rest =>
    rw [name]
    split
    next => exact .missing
    next named =>
      split
      next digit => exact .refused (.inr ⟨Decidable.not_not.mp named, digit, rfl⟩)
      next => exact .next

mutual

/-- Reading a chain leaves an end of the tokens. -/
theorem chain_leaves (level : Level) (tokens : List Token) :
    Leaves tokens (chain level tokens) := by
  rw [chain]
  refine (operand_leaves level tokens).bind fun first rest within => ?_
  exact (chainAfter_leaves level first rest).bind fun value rest _ => .done
  termination_by 16 * tokens.length + 2 * level.rank + 3

/-- So does reading the rest of a chain. -/
theorem chainAfter_leaves (level : Level) (left : Expr) (tokens : List Token) :
    Leaves tokens (chainAfter level left tokens) := by
  match tokens with
  | [] =>
    rw [chainAfter]
    exact .done
  | token :: rest =>
    rw [chainAfter]
    split
    · exact .done
    · next operator found =>
      refine ((operand_leaves level rest).bind fun right rest within => ?_).behind
      exact (chainAfter_leaves level _ rest).bind fun value rest _ => .done
  termination_by 16 * tokens.length
  decreasing_by
    · have := level.rank_le
      simp only [List.length_cons]
      omega
    · simp only [List.length_cons]
      omega

/-- Reading an operand leaves what the chain or the selection leaves that it is. -/
theorem operand_leaves (level : Level) (tokens : List Token) :
    Leaves tokens (operand level tokens) := by
  rw [operand]
  split
  · next tighter next => exact chain_leaves tighter tokens
  · exact selection_leaves tokens
  termination_by 16 * tokens.length + 2 * level.rank + 2
  decreasing_by
    · have := Level.rank_lt_of_tighter? ‹level.tighter? = some _›
      omega
    · omega

/-- Reading a selection leaves an end of the tokens. -/
theorem selection_leaves (tokens : List Token) : Leaves tokens (selection tokens) := by
  rw [selection]
  refine (primary_leaves tokens).bind fun first rest within => ?_
  exact (selectionAfter_leaves first rest).bind fun value rest _ => .done
  termination_by 16 * tokens.length + 1

/-- So does reading the members that are selected from an object. -/
theorem selectionAfter_leaves (receiver : Expr) (tokens : List Token) :
    Leaves tokens (selectionAfter receiver tokens) := by
  rw [selectionAfter]
  rcases after?_eq "." tokens with found | ⟨point, rest, within, rfl, found⟩
  · simp only [found]
    exact .done
  · simp only [found]
    refine ((name_leaves .memberName rest).bind fun member rest within => ?_).behind
    rcases after?_eq "(" rest with found | ⟨opening, later, within, rfl, found⟩
    · simp only [found]
      exact (selectionAfter_leaves _ rest).bind fun value rest _ => .done
    · simp only [found]
      refine ((arguments_leaves later).bind fun values rest within => ?_).behind
      exact (selectionAfter_leaves _ rest).bind fun value rest _ => .done
  termination_by 16 * tokens.length

/-- Reading a primary expression leaves an end of the tokens; a token without a value is refused. -/
theorem primary_leaves (tokens : List Token) : Leaves tokens (primary tokens) := by
  match tokens with
  | [] =>
    rw [primary]
    exact .missing
  | token :: rest =>
    rw [primary]
    split
    · exact .next
    · split
      next fault unreadable => exact .refused (.inl unreadable)
      · exact .next
      · split
        next named =>
          split
          next digit => exact .refused (.inr ⟨named, digit, rfl⟩)
          · rcases after?_eq "(" rest with found | ⟨opening, later, within, rfl, found⟩
            · simp only [found]
              exact .next
            · simp only [found]
              apply Leaves.behind
              apply Leaves.behind
              exact (arguments_leaves later).bind fun values rest _ => .done
        · split
          · refine ((chain_leaves .logical rest).bind fun inner rest within => ?_).behind
            exact (expect_leaves ")" .groupEnd rest).bind fun _ rest _ => .done
          · exact .missing
  termination_by 16 * tokens.length
  decreasing_by all_goals (simp only [List.length_cons, Level.rank]; omega)

/-- Reading the arguments of a call leaves an end of the tokens. -/
theorem arguments_leaves (tokens : List Token) : Leaves tokens (arguments tokens) := by
  rw [arguments]
  rcases after?_eq ")" tokens with found | ⟨closing, rest, within, rfl, found⟩
  · simp only [found]
    exact argumentsFrom_leaves tokens
  · simp only [found]
    exact .next
  termination_by 16 * tokens.length + 11

/-- Reading one argument or more leaves an end of the tokens. -/
theorem argumentsFrom_leaves (tokens : List Token) : Leaves tokens (argumentsFrom tokens) := by
  rw [argumentsFrom]
  refine (chain_leaves .logical tokens).bind fun first rest within => ?_
  rcases after?_eq "," rest with found | ⟨comma, later, within, rfl, found⟩
  · simp only [found]
    exact (expect_leaves ")" .argumentsEnd rest).bind fun _ rest _ => .done
  · simp only [found]
    apply Leaves.behind
    exact (argumentsFrom_leaves later).bind fun values rest _ => .done
  termination_by 16 * tokens.length + 10
  decreasing_by
    · simp only [Level.rank]; omega
    · omega

end

/-- Reading an expression leaves an end of the tokens. -/
theorem expression_leaves (tokens : List Token) : Leaves tokens (expression tokens) :=
  chain_leaves .logical tokens

/-- So does reading an expression behind a sign, or nothing. -/
theorem expressionAfter_leaves (literal : String) (tokens : List Token) :
    Leaves tokens (expressionAfter literal tokens) := by
  unfold expressionAfter
  rcases after?_eq literal tokens with found | ⟨sign, rest, within, rfl, found⟩
  · simp only [found]
    exact .done
  · simp only [found]
    apply Leaves.behind
    exact (expression_leaves rest).bind fun value rest _ => .done

/-- So does reading a name behind a colon, or nothing. -/
theorem nameAfterColon_leaves (what : Expectation) (tokens : List Token) :
    Leaves tokens (nameAfterColon what tokens) := by
  unfold nameAfterColon
  rcases after?_eq ":" tokens with found | ⟨colon, rest, within, rfl, found⟩
  · simp only [found]
    exact .done
  · simp only [found]
    apply Leaves.behind
    exact (name_leaves what rest).bind fun text rest _ => .done

/-- Reading a declaration leaves an end of the tokens. -/
theorem declaration_leaves (tokens : List Token) : Leaves tokens (declaration tokens) := by
  unfold declaration
  refine (name_leaves .variableName tokens).bind fun text rest _ => ?_
  refine (nameAfterColon_leaves .variableType rest).bind fun typeName rest _ => ?_
  refine (expressionAfter_leaves "=" rest).bind fun value rest _ => ?_
  exact (expect_leaves ";" .declarationEnd rest).bind fun _ rest _ => .done

/-- Reading the value of a `RETURN` leaves an end of the tokens. -/
theorem result_leaves (tokens : List Token) : Leaves tokens (result tokens) := by
  unfold result
  refine (expression_leaves tokens).bind fun value rest _ => ?_
  exact (expect_leaves ";" .resultEnd rest).bind fun _ rest _ => .done

/-- Reading an assignment or an expression leaves an end of the tokens. -/
theorem expressionStatement_leaves (tokens : List Token) :
    Leaves tokens (expressionStatement tokens) := by
  unfold expressionStatement
  refine (expression_leaves tokens).bind fun target rest _ => ?_
  refine (expressionAfter_leaves "=" rest).bind fun value rest _ => ?_
  cases value with
  | some value => exact (expect_leaves ";" .assignmentEnd rest).bind fun _ rest _ => .done
  | none => exact (expect_leaves ";" .expressionEnd rest).bind fun _ rest _ => .done

mutual

/-- Reading a body leaves an end of the tokens. -/
theorem block_leaves (branch : Bool) (tokens : List Token) :
    Leaves tokens (block branch tokens) := by
  match tokens with
  | [] =>
    rw [block]
    exact .missing
  | token :: rest =>
    rw [block]
    split
    · exact .next
    · split
      · apply Leaves.behind
        exact (block_leaves branch rest).bind fun found rest _ => .done
      · refine (statement_leaves (token :: rest)).bind fun first rest within => ?_
        exact (block_leaves branch rest).bind fun found rest _ => .done
  termination_by 4 * tokens.length + 1
  decreasing_by all_goals (simp only [List.length_cons] at *; omega)

/-- Reading a statement of any kind leaves an end of the tokens. -/
theorem statement_leaves (tokens : List Token) : Leaves tokens (statement tokens) := by
  match tokens with
  | [] =>
    rw [statement]
    exact expressionStatement_leaves []
  | token :: rest =>
    rw [statement]
    split
    · apply Leaves.behind
      exact (declaration_leaves rest).bind fun declared rest _ => .done
    split
    · apply Leaves.behind
      refine (expression_leaves rest).bind fun condition rest _ => ?_
      refine (expect_leaves "DO" .branchStart rest).bind fun _ rest _ => ?_
      refine (block_leaves true rest).bind fun ⟨accepted, closing⟩ rest _ => ?_
      exact (alternative_leaves closing rest).bind fun rejected rest _ => .done
    split
    · apply Leaves.behind
      refine (name_leaves .loopVariable rest).bind fun text rest _ => ?_
      refine (expect_leaves "IN" .loopValue rest).bind fun _ rest _ => ?_
      refine (expression_leaves rest).bind fun value rest _ => ?_
      refine (expect_leaves "DO" .iterationStart rest).bind fun _ rest _ => ?_
      exact (block_leaves false rest).bind fun body rest _ => .done
    split
    · apply Leaves.behind
      refine (expression_leaves rest).bind fun condition rest _ => ?_
      refine (expect_leaves "DO" .repetitionStart rest).bind fun _ rest _ => ?_
      exact (block_leaves false rest).bind fun body rest _ => .done
    split
    · apply Leaves.behind
      exact (result_leaves rest).bind fun value rest _ => .done
    · exact expressionStatement_leaves (token :: rest)
  termination_by 4 * tokens.length

/-- Reading the other branch of a choice, or nothing, leaves an end of the tokens. -/
theorem alternative_leaves (closing : Closing) (tokens : List Token) :
    Leaves tokens (alternative closing tokens) := by
  cases closing with
  | done =>
    rw [alternative]
    exact .done
  | otherwise =>
    rw [alternative]
    exact (block_leaves false tokens).bind fun rejected rest _ => .done
  termination_by 4 * tokens.length + 2

end

/-- Reading a field leaves an end of the tokens. -/
theorem field_leaves (tokens : List Token) : Leaves tokens (field tokens) := by
  unfold field
  refine (name_leaves .fieldName tokens).bind fun text rest _ => ?_
  refine (expect_leaves ":" .fieldColon rest).bind fun _ rest _ => ?_
  refine (name_leaves .fieldType rest).bind fun typeName rest _ => ?_
  refine (expressionAfter_leaves "=" rest).bind fun value rest _ => ?_
  exact (expect_leaves ";" .fieldEnd rest).bind fun _ rest _ => .done

/-- Reading one parameter or more leaves an end of the tokens. -/
theorem parametersFrom_leaves (tokens : List Token) : Leaves tokens (parametersFrom tokens) := by
  rw [parametersFrom]
  refine (name_leaves .parameterName tokens).bind fun text rest within => ?_
  refine (expect_leaves ":" .parameterColon rest).bind fun _ rest _ => ?_
  refine (name_leaves .parameterType rest).bind fun typeName rest _ => ?_
  rcases after?_eq "," rest with found | ⟨comma, later, _, rfl, found⟩
  · simp only [found]
    exact (expect_leaves ")" .parametersEnd rest).bind fun _ rest _ => .done
  · simp only [found]
    apply Leaves.behind
    exact (parametersFrom_leaves later).bind fun parameters rest _ => .done
  termination_by tokens.length

/-- Reading the parameters of a method leaves an end of the tokens. -/
theorem parameters_leaves (tokens : List Token) : Leaves tokens (parameters tokens) := by
  unfold parameters
  rcases after?_eq ")" tokens with found | ⟨closing, rest, within, rfl, found⟩
  · simp only [found]
    exact parametersFrom_leaves tokens
  · simp only [found]
    exact .next

/-- Reading a method leaves an end of the tokens. -/
theorem method_leaves (tokens : List Token) : Leaves tokens (method tokens) := by
  unfold method
  refine (name_leaves .methodName tokens).bind fun text rest _ => ?_
  refine (expect_leaves "(" .parametersStart rest).bind fun _ rest _ => ?_
  refine (parameters_leaves rest).bind fun parameters rest _ => ?_
  refine (nameAfterColon_leaves .returnType rest).bind fun returnTypeName rest _ => ?_
  refine (expect_leaves "DO" .methodStart rest).bind fun _ rest _ => ?_
  exact (block_leaves false rest).bind fun body rest _ => .done

/-- Reading the fields of a program leaves an end of the tokens. -/
theorem fields_leaves (tokens : List Token) : Leaves tokens (fields tokens) := by
  rw [fields]
  rcases after?_eq "LET" tokens with found | ⟨word, rest, _, rfl, found⟩
  · simp only [found]
    exact .done
  · simp only [found]
    apply Leaves.behind
    refine (field_leaves rest).bind fun first rest within => ?_
    exact (fields_leaves rest).bind fun later rest _ => .done
  termination_by tokens.length

/-- Reading the methods of a program leaves an end of the tokens. -/
theorem methods_leaves (tokens : List Token) : Leaves tokens (methods tokens) := by
  rw [methods]
  rcases after?_eq "DEF" tokens with found | ⟨word, rest, _, rfl, found⟩
  · simp only [found]
    exact .done
  · simp only [found]
    apply Leaves.behind
    refine (method_leaves rest).bind fun first rest within => ?_
    exact (methods_leaves rest).bind fun later rest _ => .done
  termination_by tokens.length

/-- Where a program cannot be read, the tokens that are left are an end of all, and something is
missing there or the first of them is refused. -/
theorem program_fails {tokens : List Token} {failure : ParseFailure}
    (failed : program tokens = .error failure) :
    failure.remaining <:+ tokens ∧ failure.Explained := by
  have front := fields_leaves tokens
  unfold program at failed
  generalize fields tokens = first at front failed
  cases front with
  | error left explained =>
    injection failed with same
    exact same ▸ ⟨left, explained⟩
  | @ok found rest _ left =>
    have back := methods_leaves rest
    simp only [bind, Except.bind] at failed
    generalize methods rest = second at back failed
    cases back with
    | error further explained =>
      injection failed with same
      exact same ▸ ⟨further.trans left, explained⟩
    | @ok others behind _ further =>
      cases behind with
      | nil => contradiction
      | cons token behind =>
        injection failed with same
        exact same ▸ ⟨further.trans left, .inl ⟨_, rfl⟩⟩

end Parser

end LetDef
