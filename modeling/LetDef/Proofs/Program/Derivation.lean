import LetDef.Proofs.Program.Denotation
import LetDef.Proofs.Program.Reading

/-!
# What is read is derived

Whatever the parser reads from the front of some tokens, the grammar derives from exactly the
tokens that are no longer there afterwards, in their order (`Parser.IsDerived`). Names may have any
text here. The readers that carry on behind a construct extend a derivation that they are given.
-/
namespace LetDef

open Grammar

/-- The tokens are words of their classes. -/
def Token.AllShaped (tokens : List Token) : Prop :=
  ∀ token ∈ tokens, token.Shaped

namespace Token.AllShaped

variable {token : Token} {tokens used rest : List Token}

/-- Words of their classes are behind the first. -/
theorem tail (shaped : AllShaped (token :: rest)) : AllShaped rest :=
  fun later member => shaped later (List.mem_cons_of_mem token member)

/-- Words of their classes are before and behind any place. -/
theorem of_append (shaped : AllShaped (used ++ rest)) : AllShaped used ∧ AllShaped rest :=
  List.forall_mem_append.mp shaped

/-- What is left of words of their classes is so. -/
theorem behind (shaped : AllShaped tokens) (whole : tokens = used ++ rest) : AllShaped rest :=
  (of_append (whole ▸ shaped)).2

end Token.AllShaped

/-- What a level finds is an operator of that level, with the text that is written. -/
theorem Level.operator?_eq_some {level : Level} {literal : String} {operator : BinaryOp}
    (found : level.operator? literal = some operator) :
    operator ∈ level.operators ∧ literal = operator.symbol := by
  have written := List.find?_some found
  simp only [decide_eq_true_eq] at written
  exact ⟨List.mem_of_find?_eq_some found, written.symm⟩

namespace Parser

open Token (AllShaped)

/-- Any text may be a name. -/
abbrev anyName : String → Prop := fun _ => True

/-- The construct is derived from the tokens in front of those that are left. -/
def IsDerived {α : Type} (derives : List Token → α → Prop) (tokens : List Token) (value : α)
    (rest : List Token) : Prop :=
  ∃ used, tokens = used ++ rest ∧ derives used value

/-- What can be read as a name is one. -/
theorem IsNamed.isName {token : Token} (named : IsNamed token) : IsName anyName token :=
  ⟨named.kind, trivial⟩

/-- A keyword that stands for a value is derived. -/
theorem primary_of_keyword {token : Token} {value : Literal}
    (found : Literal.ofKeyword? token = some value) :
    Primary anyName [token] (.literal value none) := by
  simp only [Literal.ofKeyword?, Token.reads, decide_eq_true_eq] at found
  split at found
  next written =>
    injection found with same
    exact same ▸ .nil written
  split at found
  next written =>
    injection found with same
    exact same ▸ .true written
  split at found
  next written =>
    injection found with same
    exact same ▸ .false written
  · contradiction

mutual

/-- A chain that is read is derived. -/
theorem chain_isDerived (level : Level) (tokens : List Token) {value : Expr} {rest : List Token}
    (shaped : AllShaped tokens) (given : Gives (chain level tokens) value rest) :
    IsDerived (Chain anyName level) tokens value rest := by
  obtain ⟨first, between, readFirst, readRest⟩ := gives_chain.mp given
  have fewer := readFirst.length_lt
  obtain ⟨used, whole, derives⟩ := operand_isDerived level tokens shaped readFirst
  obtain ⟨more, split, derives⟩ :=
    chainAfter_isDerived level first between (.operand derives) (shaped.behind whole) readRest
  refine ⟨used ++ more, ?_, derives⟩
  rw [whole, split, List.append_assoc]
  -- On the same tokens a level calls the tighter ones, so its rank counts below one token.
  termination_by 16 * tokens.length + 2 * level.rank + 3

/-- The rest of a chain extends what is derived. -/
theorem chainAfter_isDerived (level : Level) (left : Expr) (tokens : List Token) {value : Expr}
    {rest before : List Token} (derives : Chain anyName level before left)
    (shaped : AllShaped tokens) (given : Gives (chainAfter level left tokens) value rest) :
    IsDerived (fun used => Chain anyName level (before ++ used)) tokens value rest := by
  by_cases stops : StopsAt level tokens
  · obtain ⟨rfl, rfl⟩ := (gives_chainAfter_of_stopsAt stops).mp given
    refine ⟨[], rfl, ?_⟩
    simpa only [List.append_nil] using derives
  · obtain ⟨sign, later, operator, front, found⟩ := exists_of_not_stopsAt stops
    have size : tokens.length = later.length + 1 := congrArg List.length front
    have low := level.rank_le
    subst front
    obtain ⟨member, written⟩ := Level.operator?_eq_some found
    obtain ⟨right, between, readRight, readRest⟩ := (gives_chainAfter_cons found).mp given
    have fewer := readRight.length_lt
    obtain ⟨used, whole, second⟩ := operand_isDerived level later shaped.tail readRight
    have joined := Chain.operator derives member written second
    obtain ⟨more, split, longer⟩ :=
      chainAfter_isDerived level _ between joined (shaped.tail.behind whole) readRest
    refine ⟨sign :: (used ++ more), ?_, ?_⟩
    · rw [whole, split, List.cons_append, List.append_assoc]
    · rwa [List.append_assoc, List.cons_append] at longer
  termination_by 16 * tokens.length

/-- An operand that is read is derived. -/
theorem operand_isDerived (level : Level) (tokens : List Token) {value : Expr}
    {rest : List Token} (shaped : AllShaped tokens)
    (given : Gives (operand level tokens) value rest) :
    IsDerived (Operand anyName level) tokens value rest := by
  cases next : level.tighter? with
  | some tighter =>
    have lower := Level.rank_lt_of_tighter? next
    rw [gives_operand_of_tighter next] at given
    obtain ⟨used, whole, derives⟩ := chain_isDerived tighter tokens shaped given
    exact ⟨used, whole, .chain next derives⟩
  | none =>
    rw [gives_operand_of_last next] at given
    obtain ⟨used, whole, derives⟩ := selection_isDerived tokens shaped given
    exact ⟨used, whole, .selection next derives⟩
  termination_by 16 * tokens.length + 2 * level.rank + 2

/-- A selection that is read is derived. -/
theorem selection_isDerived (tokens : List Token) {value : Expr} {rest : List Token}
    (shaped : AllShaped tokens) (given : Gives (selection tokens) value rest) :
    IsDerived (Selection anyName) tokens value rest := by
  obtain ⟨first, between, readFirst, readRest⟩ := gives_selection.mp given
  have fewer := readFirst.length_lt
  obtain ⟨used, whole, derives⟩ := primary_isDerived tokens shaped readFirst
  obtain ⟨more, split, derives⟩ :=
    selectionAfter_isDerived first between (.primary derives) (shaped.behind whole) readRest
  refine ⟨used ++ more, ?_, derives⟩
  rw [whole, split, List.append_assoc]
  termination_by 16 * tokens.length + 1

/-- The members that are read behind an object extend what is derived. -/
theorem selectionAfter_isDerived (receiver : Expr) (tokens : List Token) {value : Expr}
    {rest before : List Token} (derives : Selection anyName before receiver)
    (shaped : AllShaped tokens) (given : Gives (selectionAfter receiver tokens) value rest) :
    IsDerived (fun used => Selection anyName (before ++ used)) tokens value rest := by
  by_cases selects : Starts "." tokens
  · obtain ⟨point, behind, rfl, pointed⟩ := selects
    obtain ⟨name, later, rfl, named, uncalled | called⟩ :=
      (gives_selectionAfter_cons pointed).mp given
    · have joined := derives.member pointed named.isName
      obtain ⟨more, split, longer⟩ :=
        selectionAfter_isDerived _ later joined shaped.tail.tail uncalled.2
      refine ⟨point :: name :: more, ?_, ?_⟩
      · rw [split, List.cons_append, List.cons_append]
      · rwa [List.append_assoc] at longer
    · obtain ⟨opening, inside, rfl, opened, values, outside, readArguments, readRest⟩ := called
      have fewer := readArguments.length_lt
      obtain ⟨used, whole, arguments⟩ :=
        arguments_isDerived inside shaped.tail.tail.tail readArguments
      have joined := derives.memberCall pointed named.isName opened arguments
      obtain ⟨more, split, longer⟩ :=
        selectionAfter_isDerived _ outside joined (shaped.tail.tail.tail.behind whole) readRest
      refine ⟨point :: name :: opening :: (used ++ more), ?_, ?_⟩
      · simp only [whole, split, List.cons_append, List.append_assoc]
      · simpa only [List.cons_append, List.append_assoc] using longer
  · obtain ⟨rfl, rfl⟩ := (gives_selectionAfter_of_not_starts selects).mp given
    refine ⟨[], rfl, ?_⟩
    simpa only [List.append_nil] using derives
  termination_by 16 * tokens.length

/-- A literal, a name, a call or a group that is read is derived. -/
theorem primary_isDerived (tokens : List Token) {value : Expr} {rest : List Token}
    (shaped : AllShaped tokens) (given : Gives (primary tokens) value rest) :
    IsDerived (Primary anyName) tokens value rest := by
  match tokens, shaped, given with
  | [], _, given =>
    rw [primary] at given
    exact absurd given gives_error
  | token :: later, shaped, given =>
    cases keyword : Literal.ofKeyword? token with
    | some found =>
      obtain ⟨rfl, rfl⟩ := (gives_primary_of_keyword keyword).mp given
      exact ⟨[token], rfl, primary_of_keyword keyword⟩
    | none =>
      by_cases name : token.kind = .identifier
      · obtain ⟨_, ⟨_, rfl, rfl⟩ | called⟩ := (gives_primary_of_name keyword name).mp given
        · exact ⟨[token], rfl, .name ⟨name, trivial⟩⟩
        · obtain ⟨opening, inside, front, opened, values, readArguments, rfl⟩ := called
          have size : later.length = inside.length + 1 := congrArg List.length front
          subst front
          obtain ⟨used, whole, arguments⟩ :=
            arguments_isDerived inside shaped.tail.tail readArguments
          refine ⟨token :: opening :: used, ?_, .call ⟨name, trivial⟩ opened arguments⟩
          rw [whole, List.cons_append, List.cons_append]
      by_cases sign : token.kind = .operator
      · obtain ⟨opened, inner, between, readInner, closing, behind, rfl, closed, rfl, rfl⟩ :=
          (gives_primary_of_operator keyword sign).mp given
        obtain ⟨used, whole, derives⟩ := chain_isDerived .logical later shaped.tail readInner
        refine ⟨token :: (used ++ [closing]), ?_, .group opened derives closed⟩
        rw [whole, List.cons_append, List.append_assoc, List.singleton_append]
      · obtain ⟨found, read, rfl, rfl⟩ := (gives_primary_of_literal keyword name sign).mp given
        have denotes := Token.Shaped.denotes_of_ofToken (shaped token List.mem_cons_self) read
        exact ⟨[token], rfl, .literal denotes⟩
  termination_by 16 * tokens.length
  decreasing_by all_goals (simp only [List.length_cons, Level.rank]; omega)

/-- Arguments that are read are derived. -/
theorem arguments_isDerived (tokens : List Token) {values : List Expr} {rest : List Token}
    (shaped : AllShaped tokens) (given : Gives (arguments tokens) values rest) :
    IsDerived (Arguments anyName) tokens values rest := by
  by_cases ends : Starts ")" tokens
  · obtain ⟨closing, later, rfl, closed⟩ := ends
    obtain ⟨rfl, rfl⟩ := (gives_arguments_cons closed).mp given
    exact ⟨[closing], rfl, .none closed⟩
  · rw [gives_arguments_of_not_starts ends] at given
    obtain ⟨used, closing, whole, closed, derives⟩ := argumentsFrom_isDerived tokens shaped given
    refine ⟨used ++ [closing], ?_, .some derives closed⟩
    rw [whole, List.append_assoc, List.singleton_append]
  termination_by 16 * tokens.length + 11

/-- One argument or more that are read are derived, but for the parenthesis behind them. -/
theorem argumentsFrom_isDerived (tokens : List Token) {values : List Expr} {rest : List Token}
    (shaped : AllShaped tokens) (given : Gives (argumentsFrom tokens) values rest) :
    ∃ used closing, tokens = used ++ closing :: rest ∧ closing.literal = ")" ∧
      ArgumentList anyName used values := by
  obtain ⟨first, behind, readFirst, sign, later, rfl, ends | more⟩ := gives_argumentsFrom.mp given
  · obtain ⟨closed, rfl, rfl⟩ := ends
    obtain ⟨used, whole, derives⟩ := chain_isDerived .logical tokens shaped readFirst
    exact ⟨used, sign, whole, closed, .one derives⟩
  · obtain ⟨comma, others, readRest, rfl⟩ := more
    have fewer := readFirst.length_lt
    obtain ⟨used, whole, derives⟩ := chain_isDerived .logical tokens shaped readFirst
    obtain ⟨between, closing, split, closed, listed⟩ :=
      argumentsFrom_isDerived later (shaped.behind whole).tail readRest
    refine ⟨used ++ sign :: between, closing, ?_, closed, .more derives comma listed⟩
    rw [whole, split, List.append_assoc, List.cons_append]
  termination_by 16 * tokens.length + 10
  decreasing_by all_goals (simp only [List.length_cons, Level.rank] at *; omega)

end

section Statements

variable {tokens rest : List Token}

/-- An expression that is read is derived. -/
theorem expression_isDerived {value : Expr} (shaped : AllShaped tokens)
    (given : Gives (expression tokens) value rest) :
    IsDerived (Expression anyName) tokens value rest :=
  chain_isDerived .logical tokens shaped given

/-- An optional expression that is read is derived. -/
theorem initial_isDerived {value : Option Expr} (shaped : AllShaped tokens)
    (given : Gives (expressionAfter "=" tokens) value rest) :
    IsDerived (Initial anyName) tokens value rest := by
  obtain ⟨_, rfl, rfl⟩ | ⟨equals, later, rfl, marked, found, read, rfl⟩ :=
    gives_expressionAfter.mp given
  · exact ⟨[], rfl, .none⟩
  · obtain ⟨used, whole, derives⟩ := expression_isDerived shaped.tail read
    refine ⟨equals :: used, ?_, .some marked derives⟩
    rw [whole, List.cons_append]

/-- An optional type that is read is derived. -/
theorem optionalType_isDerived {what : Expectation} {value : Option String}
    (given : Gives (nameAfterColon what tokens) value rest) :
    IsDerived (OptionalType anyName) tokens value rest := by
  obtain ⟨_, rfl, rfl⟩ | ⟨colon, name, rfl, marked, named, rfl⟩ := gives_nameAfterColon.mp given
  · exact ⟨[], rfl, .none⟩
  · exact ⟨[colon, name], rfl, .some marked named.isName⟩

/-- A declaration that is read is derived. -/
theorem declaration_isDerived {word : Token} {declared : Declaration}
    (shaped : AllShaped (word :: tokens)) (first : word.literal = "LET")
    (given : Gives (declaration tokens) declared rest) :
    IsDerived (Statement anyName) (word :: tokens) (.declaration declared) rest := by
  obtain ⟨name, behind, rfl, named, typeName, typed, readType, value, left, readValue, stop, _,
    rfl, stopped, rfl, rfl⟩ := gives_declaration.mp given
  obtain ⟨marked, wholeType, noted⟩ := optionalType_isDerived readType
  obtain ⟨initial, wholeValue, derives⟩ :=
    initial_isDerived (shaped.tail.tail.behind wholeType) readValue
  refine ⟨word :: name :: (marked ++ initial ++ [stop]), ?_,
    .declaration first named.isName noted derives stopped⟩
  simp only [wholeType, wholeValue, List.cons_append, List.append_assoc, List.nil_append]

/-- A `RETURN` statement that is read is derived. -/
theorem result_isDerived {word : Token} {statement : Stmt} (shaped : AllShaped (word :: tokens))
    (first : word.literal = "RETURN") (given : Gives (result tokens) statement rest) :
    IsDerived (Statement anyName) (word :: tokens) statement rest := by
  obtain ⟨value, behind, readValue, stop, _, rfl, stopped, rfl, rfl⟩ := gives_result.mp given
  obtain ⟨used, whole, derives⟩ := expression_isDerived shaped.tail readValue
  refine ⟨word :: (used ++ [stop]), ?_, .result first derives stopped⟩
  simp only [whole, List.cons_append, List.append_assoc, List.nil_append]

/-- An expression or assignment that is read is derived. -/
theorem expressionStatement_isDerived {statement : Stmt} (shaped : AllShaped tokens)
    (given : Gives (expressionStatement tokens) statement rest) :
    IsDerived (Statement anyName) tokens statement rest := by
  obtain ⟨target, behind, readTarget, value, left, readValue, stop, _, rfl, stopped, rfl, rfl⟩ :=
    gives_expressionStatement.mp given
  obtain ⟨used, whole, derives⟩ := expression_isDerived shaped readTarget
  obtain ⟨more, split, initial⟩ := initial_isDerived (shaped.behind whole) readValue
  cases initial with
  | none =>
    refine ⟨used ++ [stop], ?_, .expression derives stopped⟩
    simp only [whole, split, List.append_assoc, List.nil_append, List.cons_append]
  | @some equals inner _ marked derivesValue =>
    refine ⟨used ++ equals :: (inner ++ [stop]), ?_,
      .assignment derives marked derivesValue stopped⟩
    simp only [whole, split, List.append_assoc, List.nil_append, List.cons_append]

/-- What ends a list of statements. -/
theorem Closing.of?_eq_some {branch : Bool} {token : Token} {closing : Closing}
    (ends : Closing.of? branch token = some closing) :
    (token.literal = "END" ∧ closing = .done) ∨
      (branch = true ∧ token.literal = "ELSE" ∧ closing = .otherwise) := by
  simp only [Closing.of?, Token.reads, decide_eq_true_eq, Bool.and_eq_true] at ends
  split at ends
  next written =>
    injection ends with same
    exact .inl ⟨written, same.symm⟩
  split at ends
  next written =>
    injection ends with same
    exact .inr ⟨written.1, written.2, same.symm⟩
  · contradiction

/-- A list that is no branch ends at `END`. -/
theorem Closing.literal_of_body {token : Token} {closing : Closing}
    (ends : Closing.of? false token = some closing) : token.literal = "END" := by
  obtain ⟨written, _⟩ | ⟨branch, _⟩ := Closing.of?_eq_some ends
  · exact written
  · contradiction

mutual

/-- Statements that are read are derived, but for the word behind them. -/
theorem block_isDerived (branch : Bool) (tokens : List Token) {found : List Stmt × Closing}
    {rest : List Token} (shaped : AllShaped tokens)
    (given : Gives (block branch tokens) found rest) :
    ∃ used closing, tokens = used ++ closing :: rest ∧ Block anyName used found.1 ∧
      Closing.of? branch closing = some found.2 := by
  match tokens, shaped, given with
  | [], _, given =>
    rw [block] at given
    exact absurd given gives_error
  | token :: later, shaped, given =>
    cases ends : Closing.of? branch token with
    | some closing =>
      obtain ⟨rfl, rfl⟩ := (gives_block_of_closing ends).mp given
      exact ⟨[], token, rfl, .nil, ends⟩
    | none =>
      by_cases blank : token.literal = ";"
      · rw [gives_block_of_blank ends blank] at given
        obtain ⟨used, closing, whole, derives, closes⟩ :=
          block_isDerived branch later shaped.tail given
        refine ⟨token :: used, closing, ?_, .blank blank derives, closes⟩
        rw [whole, List.cons_append]
      · obtain ⟨first, between, readFirst, others, readRest, rfl⟩ :=
          (gives_block_of_statement ends blank).mp given
        have fewer : between.length < later.length + 1 := readFirst.length_lt
        obtain ⟨used, whole, derives⟩ := statement_isDerived (token :: later) shaped readFirst
        obtain ⟨more, closing, split, derivesRest, closes⟩ :=
          block_isDerived branch between (shaped.behind whole) readRest
        refine ⟨used ++ more, closing, ?_, .cons derives derivesRest, closes⟩
        rw [whole, split, List.append_assoc]
  termination_by 4 * tokens.length + 1

/-- A statement that is read is derived. -/
theorem statement_isDerived (tokens : List Token) {value : Stmt} {rest : List Token}
    (shaped : AllShaped tokens) (given : Gives (statement tokens) value rest) :
    IsDerived (Statement anyName) tokens value rest := by
  match tokens, shaped, given with
  | [], shaped, given =>
    rw [statement] at given
    exact expressionStatement_isDerived shaped given
  | word :: later, shaped, given =>
    by_cases first : word.literal = "LET"
    · obtain ⟨declared, read, rfl⟩ := (gives_statement_of_let first).mp given
      exact declaration_isDerived shaped first read
    by_cases first : word.literal = "IF"
    · obtain ⟨condition, tested, readTest, opening, inside, rfl, opened, accepted, behind,
        readBody, rejected, readRest, rfl⟩ := (gives_statement_of_if first).mp given
      have fewer := readTest.length_lt
      have fewerStill := readBody.length_lt
      obtain ⟨used, whole, test⟩ := expression_isDerived shaped.tail readTest
      have shapedInside := (shaped.tail.behind whole).tail
      obtain ⟨body, closing, split, derives, closes⟩ :=
        block_isDerived true inside shapedInside readBody
      obtain ⟨written, done⟩ | ⟨_, written, otherwise⟩ := Closing.of?_eq_some closes
      · obtain ⟨_, rfl, rfl⟩ | ⟨other, _⟩ := gives_alternative.mp readRest
        · refine ⟨word :: (used ++ opening :: (body ++ [closing])), ?_,
            .conditional first test opened derives written⟩
          simp only [whole, split, List.cons_append, List.append_assoc, List.nil_append]
        · rw [done] at other
          contradiction
      · obtain ⟨other, _⟩ | ⟨_, found, readOther, rfl⟩ := gives_alternative.mp readRest
        · rw [otherwise] at other
          contradiction
        · obtain ⟨other, last, divided, derivesOther, ends⟩ :=
            block_isDerived false behind (shapedInside.behind split).tail readOther
          refine ⟨word :: (used ++ opening :: (body ++ closing :: (other ++ [last]))), ?_,
            .alternative first test opened derives written derivesOther
              (Closing.literal_of_body ends)⟩
          simp only [whole, split, divided, List.cons_append, List.append_assoc, List.nil_append]
    by_cases first : word.literal = "FOR"
    · obtain ⟨name, _, rfl, named, preposition, looped, rfl, written, value, tested, readValue,
        opening, inside, rfl, opened, body, readBody, rfl⟩ :=
        (gives_statement_of_for first).mp given
      have fewer := readValue.length_lt
      obtain ⟨used, whole, loop⟩ := expression_isDerived shaped.tail.tail.tail readValue
      obtain ⟨inner, closing, split, derives, closes⟩ :=
        block_isDerived false inside (shaped.tail.tail.tail.behind whole).tail readBody
      refine ⟨word :: name :: preposition :: (used ++ opening :: (inner ++ [closing])), ?_,
        .iteration first named.isName written loop opened derives (Closing.literal_of_body closes)⟩
      simp only [whole, split, List.cons_append, List.append_assoc, List.nil_append]
    by_cases first : word.literal = "WHILE"
    · obtain ⟨condition, tested, readTest, opening, inside, rfl, opened, body, readBody, rfl⟩ :=
        (gives_statement_of_while first).mp given
      have fewer := readTest.length_lt
      obtain ⟨used, whole, test⟩ := expression_isDerived shaped.tail readTest
      obtain ⟨inner, closing, split, derives, closes⟩ :=
        block_isDerived false inside (shaped.tail.behind whole).tail readBody
      refine ⟨word :: (used ++ opening :: (inner ++ [closing])), ?_,
        .repetition first test opened derives (Closing.literal_of_body closes)⟩
      simp only [whole, split, List.cons_append, List.append_assoc, List.nil_append]
    by_cases first : word.literal = "RETURN"
    · exact result_isDerived shaped first ((gives_statement_of_return first).mp given)
    · have other : word.literal ∉ statementWords := by simp [statementWords, *]
      rw [gives_statement_of_expression other] at given
      exact expressionStatement_isDerived shaped given
  termination_by 4 * tokens.length

end

end Statements

section Programs

variable {tokens rest : List Token}

/-- A field that is read is derived. -/
theorem field_isDerived {word : Token} {found : Field} (shaped : AllShaped (word :: tokens))
    (first : word.literal = "LET") (given : Gives (field tokens) found rest) :
    IsDerived (IsField anyName) (word :: tokens) found rest := by
  obtain ⟨name, _, rfl, named, colon, _, rfl, marked, type, typed, rfl, isType, value, left,
    readValue, stop, _, rfl, stopped, rfl, rfl⟩ := gives_field.mp given
  obtain ⟨used, whole, initial⟩ := initial_isDerived shaped.tail.tail.tail.tail readValue
  refine ⟨word :: name :: colon :: type :: (used ++ [stop]), ?_,
    .mk first named.isName marked isType.isName initial stopped⟩
  simp only [whole, List.cons_append, List.append_assoc, List.nil_append]

/-- One parameter or more that are read are derived, but for the parenthesis behind them. -/
theorem parametersFrom_isDerived (tokens : List Token) {found : List Parameter}
    {rest : List Token} (given : Gives (parametersFrom tokens) found rest) :
    ∃ used closing, tokens = used ++ closing :: rest ∧ closing.literal = ")" ∧
      ParameterList anyName used found := by
  obtain ⟨name, _, rfl, named, colon, _, rfl, marked, type, _, rfl, isType, sign, later, rfl,
    ends | more⟩ := gives_parametersFrom.mp given
  · obtain ⟨closed, rfl, rfl⟩ := ends
    exact ⟨[name, colon, type], sign, rfl, closed, .one named.isName marked isType.isName⟩
  · obtain ⟨comma, others, readRest, rfl⟩ := more
    obtain ⟨used, closing, whole, closed, listed⟩ := parametersFrom_isDerived later readRest
    refine ⟨name :: colon :: type :: sign :: used, closing, ?_, closed,
      .more named.isName marked isType.isName comma listed⟩
    simp only [whole, List.cons_append]
  termination_by tokens.length

/-- Parameters that are read are derived. -/
theorem parameters_isDerived {found : List Parameter}
    (given : Gives (parameters tokens) found rest) :
    IsDerived (Parameters anyName) tokens found rest := by
  by_cases ends : Starts ")" tokens
  · obtain ⟨closing, later, rfl, closed⟩ := ends
    obtain ⟨rfl, rfl⟩ := (gives_parameters_cons closed).mp given
    exact ⟨[closing], rfl, .none closed⟩
  · rw [gives_parameters_of_not_starts ends] at given
    obtain ⟨used, closing, whole, closed, derives⟩ := parametersFrom_isDerived tokens given
    refine ⟨used ++ [closing], ?_, .some derives closed⟩
    rw [whole, List.append_assoc, List.singleton_append]

/-- A method that is read is derived. -/
theorem method_isDerived {word : Token} {found : Method} (shaped : AllShaped (word :: tokens))
    (first : word.literal = "DEF") (given : Gives (method tokens) found rest) :
    IsDerived (IsMethod anyName) (word :: tokens) found rest := by
  obtain ⟨name, _, rfl, named, opening, listed, rfl, opened, accepts, marked, readParameters,
    typeName, typed, readType, beginning, inside, rfl, begun, body, readBody, rfl⟩ :=
    gives_method.mp given
  obtain ⟨used, whole, derives⟩ := parameters_isDerived readParameters
  obtain ⟨marks, split, noted⟩ := optionalType_isDerived readType
  have shapedInside := ((shaped.tail.tail.tail.behind whole).behind split).tail
  obtain ⟨inner, closing, divided, statements, closes⟩ :=
    block_isDerived false inside shapedInside readBody
  refine ⟨word :: name :: opening :: (used ++ (marks ++ beginning :: (inner ++ [closing]))), ?_,
    .mk first named.isName opened derives noted begun statements
      (Closing.literal_of_body closes)⟩
  simp only [whole, split, divided, List.cons_append, List.append_assoc, List.nil_append]

/-- Fields that are read are derived. -/
theorem fields_isDerived (tokens : List Token) {found : List Field} {rest : List Token}
    (shaped : AllShaped tokens) (given : Gives (fields tokens) found rest) :
    IsDerived (Many (IsField anyName)) tokens found rest := by
  by_cases goes : Starts "LET" tokens
  · obtain ⟨word, later, front, first⟩ := goes
    have size : tokens.length = later.length + 1 := congrArg List.length front
    subst front
    obtain ⟨field, between, readFirst, others, readRest, rfl⟩ := (gives_fields_cons first).mp given
    have fewer := readFirst.length_lt
    obtain ⟨used, whole, derives⟩ := field_isDerived shaped first readFirst
    obtain ⟨more, split, rest⟩ := fields_isDerived between (shaped.behind whole) readRest
    refine ⟨used ++ more, ?_, .cons derives rest⟩
    rw [whole, split, List.append_assoc]
  · obtain ⟨rfl, rfl⟩ := (gives_fields_of_not_starts goes).mp given
    exact ⟨[], rfl, .nil⟩
  termination_by tokens.length

/-- Methods that are read are derived. -/
theorem methods_isDerived (tokens : List Token) {found : List Method} {rest : List Token}
    (shaped : AllShaped tokens) (given : Gives (methods tokens) found rest) :
    IsDerived (Many (IsMethod anyName)) tokens found rest := by
  by_cases goes : Starts "DEF" tokens
  · obtain ⟨word, later, front, first⟩ := goes
    have size : tokens.length = later.length + 1 := congrArg List.length front
    subst front
    obtain ⟨method, between, readFirst, others, readRest, rfl⟩ :=
      (gives_methods_cons first).mp given
    have fewer := readFirst.length_lt
    obtain ⟨used, whole, derives⟩ := method_isDerived shaped first readFirst
    obtain ⟨more, split, rest⟩ := methods_isDerived between (shaped.behind whole) readRest
    refine ⟨used ++ more, ?_, .cons derives rest⟩
    rw [whole, split, List.append_assoc]
  · obtain ⟨rfl, rfl⟩ := (gives_methods_of_not_starts goes).mp given
    exact ⟨[], rfl, .nil⟩
  termination_by tokens.length

/-- A program that is read is derived from all the tokens. -/
theorem program_isProgram {found : Program} (shaped : AllShaped tokens)
    (read : program tokens = .ok found) : IsProgram anyName tokens found := by
  obtain ⟨between, readFields, readMethods⟩ := program_eq_ok.mp read
  obtain ⟨front, whole, fields⟩ := fields_isDerived tokens shaped readFields
  obtain ⟨back, split, methods⟩ := methods_isDerived between (shaped.behind whole) readMethods
  rw [List.append_nil] at split
  subst split
  exact whole ▸ .mk fields methods

end Programs

end Parser

end LetDef
