import LetDef.Program.Parser
import LetDef.Proofs.Token.Spacing

/-!
# Where the tokens of a program stand

A reader looks at the classes and the texts of tokens and never at their places. So from two lists
of tokens that differ in places alone, every reader gives the same construct, having used as many
tokens, or fails for the same reason with as many tokens left (`Parser.program_agrees`). Only the
position of a parse error is a place, and it is that of the same token in both lists.
-/
namespace LetDef

namespace Token

variable {token : Token} {one other : Token}

/-- What is read depends on the text of a token. -/
theorem Alike.reads_eq (alike : one.Alike other) (literal : String) :
    one.reads literal = other.reads literal := by
  rw [reads, reads, alike.literal]

/-- A token of a literal class denotes what its class and its text say. -/
theorem Alike.ofToken_eq (alike : one.Alike other) :
    Literal.ofToken one = Literal.ofToken other := by
  unfold Literal.ofToken numeral content
  rw [alike.kind, alike.literal]

/-- A keyword denotes what its text says. -/
theorem Alike.ofKeyword?_eq (alike : one.Alike other) :
    Literal.ofKeyword? one = Literal.ofKeyword? other := by
  unfold Literal.ofKeyword?
  rw [alike.reads_eq, alike.reads_eq, alike.reads_eq]

end Token

namespace Parser

variable {α β : Type}

/-- As many tokens have been used of two lists that differ in places alone. -/
inductive Beside (one other : List Token) : List Token → List Token → Prop where
  | used (alike : List.Forall₂ Token.Alike one other) (count : Nat) :
    Beside one other (one.drop count) (other.drop count)

/-- From two lists of tokens the same construct has been read, or reading has failed for the same
reason, and as many tokens have been used. -/
inductive Agrees (one other : List Token) {bound limit : Nat} :
    Parse α bound → Parse α limit → Prop where
  | ok {value rest left within inside} (beside : Beside one other rest left) :
    Agrees one other (.ok ⟨value, rest, within⟩) (.ok ⟨value, left, inside⟩)
  | error {fault rest left} (beside : Beside one other rest left) :
    Agrees one other (.error ⟨fault, rest⟩) (.error ⟨fault, left⟩)

variable {one other tokens others : List Token}

/-- Where a list begins with a token, the other begins with one that is like it. -/
theorem Beside.cons (beside : Beside one other tokens others) {token : Token} {rest : List Token}
    (same : tokens = token :: rest) :
    ∃ next left, others = next :: left ∧ token.Alike next ∧ Beside one other rest left := by
  obtain ⟨alike, count⟩ := beside
  have dropped := List.forall₂_drop count alike
  rw [same] at dropped
  cases found : other.drop count with
  | nil =>
    rw [found] at dropped
    cases dropped
  | cons next left =>
    rw [found] at dropped
    obtain ⟨first, _⟩ := List.forall₂_cons.mp dropped
    refine ⟨next, left, rfl, first, ?_⟩
    have behind : rest = one.drop (count + 1) := by
      rw [← List.tail_drop, same, List.tail_cons]
    have also : left = other.drop (count + 1) := by
      rw [← List.tail_drop, found, List.tail_cons]
    rw [behind, also]
    exact .used alike (count + 1)

/-- Where a list is at its end, so is the other. -/
theorem Beside.nil (beside : Beside one other [] others) : others = [] := by
  generalize same : [] = tokens at beside
  obtain ⟨alike, count⟩ := beside
  have dropped := List.forall₂_drop count alike
  rw [← same] at dropped ⊢
  exact List.forall₂_nil_left_iff.mp dropped

/-- Steps agree if the first ones do, and what follows with their construct. -/
theorem Agrees.bind {fewer less bound limit : Nat} {first : Parse β fewer} {second : Parse β less}
    {next : Parsed β fewer → Parse α bound} {following : Parsed β less → Parse α limit}
    (agrees : Agrees one other first second)
    (after : ∀ value rest left within inside, Beside one other rest left →
      Agrees one other (next ⟨value, rest, within⟩) (following ⟨value, left, inside⟩)) :
    Agrees one other (first >>= next) (second >>= following) := by
  cases agrees with
  | ok beside => exact after _ _ _ _ _ beside
  | error beside => exact .error beside

/-- The same text is found or not. -/
theorem after?_agrees (literal : String) (beside : Beside one other tokens others) :
    (after? literal tokens = none ∧ after? literal others = none) ∨
      ∃ rest left within inside, after? literal tokens = some ⟨(), rest, within⟩ ∧
        after? literal others = some ⟨(), left, inside⟩ ∧ Beside one other rest left := by
  cases tokens with
  | nil => exact .inl ⟨rfl, by rw [beside.nil]; rfl⟩
  | cons token rest =>
    obtain ⟨next, left, rfl, same, behind⟩ := beside.cons rfl
    simp only [after?, ← same.reads_eq literal]
    cases token.reads literal with
    | false => exact .inl ⟨rfl, rfl⟩
    | true => exact .inr ⟨rest, left, Nat.lt_succ_self _, Nat.lt_succ_self _, rfl, rfl, behind⟩

/-- The same text is asked for. -/
theorem expect_agrees (literal : String) (what : Expectation)
    (beside : Beside one other tokens others) :
    Agrees one other (expect literal what tokens) (expect literal what others) := by
  unfold expect
  rcases after?_agrees literal beside with ⟨found, also⟩ | ⟨_, _, _, _, found, also, behind⟩
  · simp only [found, also]
    exact .error beside
  · simp only [found, also]
    exact .ok behind

/-- The same name is read. -/
theorem name_agrees (what : Expectation) (beside : Beside one other tokens others) :
    Agrees one other (name what tokens) (name what others) := by
  cases tokens with
  | nil =>
    obtain rfl := beside.nil
    exact .error beside
  | cons token rest =>
    obtain ⟨next, left, rfl, same, behind⟩ := beside.cons rfl
    simp only [name, ← same.kind, ← same.literal]
    split
    · exact .error beside
    · split
      · exact .error beside
      · exact .ok behind

mutual

/-- The same chain is read. -/
theorem chain_agrees (level : Level) {tokens others : List Token}
    (beside : Beside one other tokens others) :
    Agrees one other (chain level tokens) (chain level others) := by
  rw [chain, chain]
  refine (operand_agrees level beside).bind fun first rest left within inside behind => ?_
  exact (chainAfter_agrees level first behind).bind fun value rest left _ _ behind => .ok behind
  termination_by 16 * tokens.length + 2 * level.rank + 3

/-- The same rest of a chain is read. -/
theorem chainAfter_agrees (level : Level) (left : Expr) {tokens others : List Token}
    (beside : Beside one other tokens others) :
    Agrees one other (chainAfter level left tokens) (chainAfter level left others) := by
  match tokens, beside with
  | [], beside =>
    obtain rfl := beside.nil
    rw [chainAfter]
    exact .ok beside
  | token :: rest, beside =>
    obtain ⟨next, later, rfl, same, behind⟩ := beside.cons rfl
    rw [chainAfter, chainAfter, ← same.literal]
    split
    · exact .ok beside
    · next operator found =>
      refine (operand_agrees level behind).bind fun right rest later within _ behind => ?_
      refine (chainAfter_agrees level _ behind).bind fun value rest later _ _ behind => ?_
      exact .ok behind
  termination_by 16 * tokens.length
  decreasing_by
    · have := level.rank_le
      simp only [List.length_cons]
      omega
    · simp only [List.length_cons]
      omega

/-- The same operand is read. -/
theorem operand_agrees (level : Level) {tokens others : List Token}
    (beside : Beside one other tokens others) :
    Agrees one other (operand level tokens) (operand level others) := by
  rw [operand, operand]
  split
  · next tighter next => exact chain_agrees tighter beside
  · exact selection_agrees beside
  termination_by 16 * tokens.length + 2 * level.rank + 2
  decreasing_by
    · have := Level.rank_lt_of_tighter? ‹level.tighter? = some _›
      omega
    · omega

/-- The same selection is read. -/
theorem selection_agrees {tokens others : List Token}
    (beside : Beside one other tokens others) :
    Agrees one other (selection tokens) (selection others) := by
  rw [selection, selection]
  refine (primary_agrees beside).bind fun first rest left within _ behind => ?_
  exact (selectionAfter_agrees first behind).bind fun value rest left _ _ behind => .ok behind
  termination_by 16 * tokens.length + 1

/-- The same members are read. -/
theorem selectionAfter_agrees (receiver : Expr) {tokens others : List Token}
    (beside : Beside one other tokens others) :
    Agrees one other (selectionAfter receiver tokens) (selectionAfter receiver others) := by
  rw [selectionAfter, selectionAfter]
  rcases after?_agrees "." beside with ⟨found, also⟩ | ⟨_, _, _, _, found, also, behind⟩
  · simp only [found, also]
    exact .ok beside
  · simp only [found, also]
    refine (name_agrees .memberName behind).bind fun member rest left within _ behind => ?_
    rcases after?_agrees "(" behind with ⟨found, also⟩ | ⟨_, _, _, _, found, also, behind⟩
    · simp only [found, also]
      refine (selectionAfter_agrees _ behind).bind fun value rest left _ _ behind => ?_
      exact .ok behind
    · simp only [found, also]
      refine (arguments_agrees behind).bind fun values rest left within _ behind => ?_
      refine (selectionAfter_agrees _ behind).bind fun value rest left _ _ behind => ?_
      exact .ok behind
  termination_by 16 * tokens.length

/-- The same literal, name, call or group is read. -/
theorem primary_agrees {tokens others : List Token}
    (beside : Beside one other tokens others) :
    Agrees one other (primary tokens) (primary others) := by
  match tokens, beside with
  | [], beside =>
    obtain rfl := beside.nil
    rw [primary]
    exact .error beside
  | token :: rest, beside =>
    obtain ⟨next, left, rfl, same, behind⟩ := beside.cons rfl
    rw [primary, primary, ← same.ofKeyword?_eq, ← same.ofToken_eq, ← same.kind, ← same.literal,
      ← same.reads_eq]
    split
    · exact .ok behind
    · split
      · exact .error beside
      · exact .ok behind
      · split
        · split
          · exact .error beside
          · rcases after?_agrees "(" behind with
              ⟨found, also⟩ | ⟨_, _, _, _, found, also, behind⟩
            · simp only [found, also]
              exact .ok behind
            · simp only [found, also]
              exact (arguments_agrees behind).bind fun values rest left _ _ behind => .ok behind
        · split
          · refine (chain_agrees .logical behind).bind fun inner rest left within _ behind => ?_
            refine (expect_agrees ")" .groupEnd behind).bind fun _ rest left _ _ behind => ?_
            exact .ok behind
          · exact .error beside
  termination_by 16 * tokens.length
  decreasing_by all_goals (simp only [List.length_cons, Level.rank]; omega)

/-- The same arguments are read. -/
theorem arguments_agrees {tokens others : List Token}
    (beside : Beside one other tokens others) :
    Agrees one other (arguments tokens) (arguments others) := by
  rw [arguments, arguments]
  rcases after?_agrees ")" beside with ⟨found, also⟩ | ⟨_, _, _, _, found, also, behind⟩
  · simp only [found, also]
    exact argumentsFrom_agrees beside
  · simp only [found, also]
    exact .ok behind
  termination_by 16 * tokens.length + 11

/-- The same arguments from one on are read. -/
theorem argumentsFrom_agrees {tokens others : List Token}
    (beside : Beside one other tokens others) :
    Agrees one other (argumentsFrom tokens) (argumentsFrom others) := by
  rw [argumentsFrom, argumentsFrom]
  refine (chain_agrees .logical beside).bind fun first rest left within _ behind => ?_
  rcases after?_agrees "," behind with ⟨found, also⟩ | ⟨_, _, _, _, found, also, behind⟩
  · simp only [found, also]
    refine (expect_agrees ")" .argumentsEnd behind).bind fun _ rest left _ _ behind => ?_
    exact .ok behind
  · simp only [found, also]
    refine (argumentsFrom_agrees behind).bind fun later rest left _ _ behind => ?_
    exact .ok behind
  termination_by 16 * tokens.length + 10
  decreasing_by
    · simp only [Level.rank]; omega
    · omega

end

/-- The same expression is read. -/
theorem expression_agrees (beside : Beside one other tokens others) :
    Agrees one other (expression tokens) (expression others) :=
  chain_agrees .logical beside

/-- The same expression after a text is read, or none. -/
theorem expressionAfter_agrees (literal : String) (beside : Beside one other tokens others) :
    Agrees one other (expressionAfter literal tokens) (expressionAfter literal others) := by
  unfold expressionAfter
  rcases after?_agrees literal beside with ⟨found, also⟩ | ⟨_, _, _, _, found, also, behind⟩
  · simp only [found, also]
    exact .ok beside
  · simp only [found, also]
    exact (expression_agrees behind).bind fun value rest left _ _ behind => .ok behind

/-- The same name after a colon is read, or none. -/
theorem nameAfterColon_agrees (what : Expectation) (beside : Beside one other tokens others) :
    Agrees one other (nameAfterColon what tokens) (nameAfterColon what others) := by
  unfold nameAfterColon
  rcases after?_agrees ":" beside with ⟨found, also⟩ | ⟨_, _, _, _, found, also, behind⟩
  · simp only [found, also]
    exact .ok beside
  · simp only [found, also]
    exact (name_agrees what behind).bind fun text rest left _ _ behind => .ok behind

/-- The same declaration is read. -/
theorem declaration_agrees (beside : Beside one other tokens others) :
    Agrees one other (declaration tokens) (declaration others) := by
  unfold declaration
  refine (name_agrees .variableName beside).bind fun text _ _ _ _ behind => ?_
  refine (nameAfterColon_agrees .variableType behind).bind fun typeName _ _ _ _ behind => ?_
  refine (expressionAfter_agrees "=" behind).bind fun value _ _ _ _ behind => ?_
  exact (expect_agrees ";" .declarationEnd behind).bind fun _ _ _ _ _ behind => .ok behind

/-- The same `RETURN` statement is read. -/
theorem result_agrees (beside : Beside one other tokens others) :
    Agrees one other (result tokens) (result others) := by
  unfold result
  refine (expression_agrees beside).bind fun value _ _ _ _ behind => ?_
  exact (expect_agrees ";" .resultEnd behind).bind fun _ _ _ _ _ behind => .ok behind

/-- The same assignment is read, or the same expression. -/
theorem expressionStatement_agrees (beside : Beside one other tokens others) :
    Agrees one other (expressionStatement tokens) (expressionStatement others) := by
  unfold expressionStatement
  refine (expression_agrees beside).bind fun target _ _ _ _ behind => ?_
  refine (expressionAfter_agrees "=" behind).bind fun value _ _ _ _ behind => ?_
  cases value with
  | some value =>
    exact (expect_agrees ";" .assignmentEnd behind).bind fun _ _ _ _ _ behind => .ok behind
  | none =>
    exact (expect_agrees ";" .expressionEnd behind).bind fun _ _ _ _ _ behind => .ok behind

/-- The same token ends a body. -/
theorem closing_eq {token next : Token} (same : token.Alike next) (branch : Bool) :
    Closing.of? branch token = Closing.of? branch next := by
  unfold Closing.of?
  rw [same.reads_eq, same.reads_eq]

mutual

/-- The same body is read. -/
theorem block_agrees (branch : Bool) {tokens others : List Token}
    (beside : Beside one other tokens others) :
    Agrees one other (block branch tokens) (block branch others) := by
  match tokens, beside with
  | [], beside =>
    obtain rfl := beside.nil
    rw [block]
    exact .error beside
  | token :: rest, beside =>
    obtain ⟨next, left, rfl, same, behind⟩ := beside.cons rfl
    rw [block, block, ← closing_eq same, ← same.reads_eq]
    split
    · exact .ok behind
    · split
      · exact (block_agrees branch behind).bind fun found _ _ _ _ behind => .ok behind
      · refine (statement_agrees beside).bind fun first _ _ within _ behind => ?_
        exact (block_agrees branch behind).bind fun found _ _ _ _ behind => .ok behind
  termination_by 4 * tokens.length + 1
  decreasing_by all_goals (simp only [List.length_cons] at *; omega)

/-- The same statement is read. -/
theorem statement_agrees {tokens others : List Token} (beside : Beside one other tokens others) :
    Agrees one other (statement tokens) (statement others) := by
  match tokens, beside with
  | [], beside =>
    obtain rfl := beside.nil
    rw [statement]
    exact expressionStatement_agrees beside
  | token :: rest, beside =>
    obtain ⟨next, left, rfl, same, behind⟩ := beside.cons rfl
    rw [statement, statement, ← same.reads_eq, ← same.reads_eq, ← same.reads_eq, ← same.reads_eq,
      ← same.reads_eq]
    split
    · exact (declaration_agrees behind).bind fun declared _ _ _ _ behind => .ok behind
    split
    · refine (expression_agrees behind).bind fun condition _ _ within _ behind => ?_
      refine (expect_agrees "DO" .branchStart behind).bind fun _ _ _ _ _ behind => ?_
      refine (block_agrees true behind).bind fun ⟨accepted, closing⟩ _ _ _ _ behind => ?_
      exact (alternative_agrees closing behind).bind fun rejected _ _ _ _ behind => .ok behind
    split
    · refine (name_agrees .loopVariable behind).bind fun text _ _ _ _ behind => ?_
      refine (expect_agrees "IN" .loopValue behind).bind fun _ _ _ _ _ behind => ?_
      refine (expression_agrees behind).bind fun value _ _ _ _ behind => ?_
      refine (expect_agrees "DO" .iterationStart behind).bind fun _ _ _ _ _ behind => ?_
      exact (block_agrees false behind).bind fun body _ _ _ _ behind => .ok behind
    split
    · refine (expression_agrees behind).bind fun condition _ _ _ _ behind => ?_
      refine (expect_agrees "DO" .repetitionStart behind).bind fun _ _ _ _ _ behind => ?_
      exact (block_agrees false behind).bind fun body _ _ _ _ behind => .ok behind
    split
    · exact (result_agrees behind).bind fun value _ _ _ _ behind => .ok behind
    · exact expressionStatement_agrees beside
  termination_by 4 * tokens.length

/-- The same statements are read after an `ELSE`, or none. -/
theorem alternative_agrees (closing : Closing) {tokens others : List Token}
    (beside : Beside one other tokens others) :
    Agrees one other (alternative closing tokens) (alternative closing others) := by
  cases closing with
  | done =>
    rw [alternative, alternative]
    exact .ok beside
  | otherwise =>
    rw [alternative, alternative]
    exact (block_agrees false beside).bind fun rejected _ _ _ _ behind => .ok behind
  termination_by 4 * tokens.length + 2

end

/-- The same field is read. -/
theorem field_agrees (beside : Beside one other tokens others) :
    Agrees one other (field tokens) (field others) := by
  unfold field
  refine (name_agrees .fieldName beside).bind fun text _ _ _ _ behind => ?_
  refine (expect_agrees ":" .fieldColon behind).bind fun _ _ _ _ _ behind => ?_
  refine (name_agrees .fieldType behind).bind fun typeName _ _ _ _ behind => ?_
  refine (expressionAfter_agrees "=" behind).bind fun value _ _ _ _ behind => ?_
  exact (expect_agrees ";" .fieldEnd behind).bind fun _ _ _ _ _ behind => .ok behind

/-- The same parameters from one on are read. -/
theorem parametersFrom_agrees {tokens others : List Token}
    (beside : Beside one other tokens others) :
    Agrees one other (parametersFrom tokens) (parametersFrom others) := by
  rw [parametersFrom, parametersFrom]
  refine (name_agrees .parameterName beside).bind fun text _ _ within _ behind => ?_
  refine (expect_agrees ":" .parameterColon behind).bind fun _ _ _ _ _ behind => ?_
  refine (name_agrees .parameterType behind).bind fun typeName _ _ _ _ behind => ?_
  rcases after?_agrees "," behind with ⟨found, also⟩ | ⟨_, _, _, _, found, also, behind⟩
  · simp only [found, also]
    exact (expect_agrees ")" .parametersEnd behind).bind fun _ _ _ _ _ behind => .ok behind
  · simp only [found, also]
    exact (parametersFrom_agrees behind).bind fun later _ _ _ _ behind => .ok behind
  termination_by tokens.length

/-- The same parameters are read. -/
theorem parameters_agrees (beside : Beside one other tokens others) :
    Agrees one other (parameters tokens) (parameters others) := by
  unfold parameters
  rcases after?_agrees ")" beside with ⟨found, also⟩ | ⟨_, _, _, _, found, also, behind⟩
  · simp only [found, also]
    exact parametersFrom_agrees beside
  · simp only [found, also]
    exact .ok behind

/-- The same method is read. -/
theorem method_agrees (beside : Beside one other tokens others) :
    Agrees one other (method tokens) (method others) := by
  unfold method
  refine (name_agrees .methodName beside).bind fun text _ _ _ _ behind => ?_
  refine (expect_agrees "(" .parametersStart behind).bind fun _ _ _ _ _ behind => ?_
  refine (parameters_agrees behind).bind fun parameters _ _ _ _ behind => ?_
  refine (nameAfterColon_agrees .returnType behind).bind fun returnTypeName _ _ _ _ behind => ?_
  refine (expect_agrees "DO" .methodStart behind).bind fun _ _ _ _ _ behind => ?_
  exact (block_agrees false behind).bind fun body _ _ _ _ behind => .ok behind

/-- The same fields are read. -/
theorem fields_agrees {tokens others : List Token} (beside : Beside one other tokens others) :
    Agrees one other (fields tokens) (fields others) := by
  rw [fields, fields]
  rcases after?_agrees "LET" beside with ⟨found, also⟩ | ⟨_, _, _, _, found, also, behind⟩
  · simp only [found, also]
    exact .ok beside
  · simp only [found, also]
    refine (field_agrees behind).bind fun first _ _ within _ behind => ?_
    exact (fields_agrees behind).bind fun later _ _ _ _ behind => .ok behind
  termination_by tokens.length

/-- The same methods are read. -/
theorem methods_agrees {tokens others : List Token} (beside : Beside one other tokens others) :
    Agrees one other (methods tokens) (methods others) := by
  rw [methods, methods]
  rcases after?_agrees "DEF" beside with ⟨found, also⟩ | ⟨_, _, _, _, found, also, behind⟩
  · simp only [found, also]
    exact .ok beside
  · simp only [found, also]
    refine (method_agrees behind).bind fun first _ _ within _ behind => ?_
    exact (methods_agrees behind).bind fun later _ _ _ _ behind => .ok behind
  termination_by tokens.length

/-- The same program is read, or reading fails for the same reason at the same token. -/
theorem program_agrees (alike : List.Forall₂ Token.Alike one other) :
    (∃ whole, program one = .ok whole ∧ program other = .ok whole) ∨
      ∃ fault rest left, program one = .error ⟨fault, rest⟩ ∧
        program other = .error ⟨fault, left⟩ ∧ Beside one other rest left := by
  have fields := fields_agrees (.used alike 0)
  rw [List.drop_zero, List.drop_zero] at fields
  unfold program
  generalize Parser.fields one = first, Parser.fields other = second at fields
  cases fields with
  | error beside => exact .inr ⟨_, _, _, rfl, rfl, beside⟩
  | @ok found rest left _ _ beside =>
    have methods := methods_agrees beside
    simp only [bind, Except.bind]
    generalize Parser.methods rest = first, Parser.methods left = second at methods
    cases methods with
    | error beside => exact .inr ⟨_, _, _, rfl, rfl, beside⟩
    | @ok later rest left _ _ beside =>
      cases rest with
      | nil =>
        obtain rfl := beside.nil
        exact .inl ⟨_, rfl, rfl⟩
      | cons token rest =>
        obtain ⟨next, left, rfl, _⟩ := beside.cons rfl
        exact .inr ⟨_, _, _, rfl, rfl, beside⟩

end Parser

/-- The byte index at which a token stands, by the number of tokens before it; behind all tokens it
is the end of the last one. -/
def Token.place (tokens : List Token) (position : Nat) : Nat :=
  match tokens[position]? with
  | some token => token.index
  | none => (tokens.getLast?.map stop).getD 0

/-- Two lists of tokens are read as the same program, or are refused for the same reason at the
token before which there are as many in both. -/
inductive Program.ReadsAlike (one other : List Token) :
    Except ParseError Program → Except ParseError Program → Prop where
  | program {program} : ReadsAlike one other (.ok program) (.ok program)
  | refused {fault position} (within : position ≤ one.length) :
    ReadsAlike one other (.error ⟨Token.place one position, fault⟩)
      (.error ⟨Token.place other position, fault⟩)

/-- A failure lies where the first token that is left stands. -/
theorem ParseFailure.index_eq (fault : ParseFault) (tokens : List Token) (count : Nat) :
    ParseFailure.index ⟨fault, tokens.drop count⟩ tokens = Token.place tokens count := by
  have first := List.head?_drop (l := tokens) (i := count)
  unfold index Token.place
  rw [← first]
  cases tokens.drop count <;> rfl

/-- Tokens that differ in their places alone are read alike. -/
theorem Program.readsAlike {one other : List Token} (alike : List.Forall₂ Token.Alike one other) :
    ReadsAlike one other (ofTokens one) (ofTokens other) := by
  unfold ofTokens
  rcases Parser.program_agrees alike with ⟨whole, read, also⟩ | ⟨fault, _, _, failed, also, beside⟩
  · rw [read, also]
    exact .program
  · rw [failed, also]
    obtain ⟨_, count⟩ := beside
    simp only [ParseFailure.index_eq]
    rcases Nat.le_total count one.length with within | beyond
    · exact .refused within
    · -- Behind the last token all positions are the same.
      have end_place : ∀ tokens : List Token, tokens.length ≤ count →
          Token.place tokens count = Token.place tokens tokens.length := by
        intro tokens behind
        simp only [Token.place, List.getElem?_eq_none behind,
          List.getElem?_eq_none (Nat.le_refl tokens.length)]
      have sizes := alike.length_eq
      rw [end_place one beyond, end_place other (sizes ▸ beyond), ← sizes]
      exact .refused (Nat.le_refl _)

end LetDef
