import LetDef.Proofs.Program.Derivation

/-!
# Expressions that are derived are read

The parser reads every expression that the grammar derives from words of the lexical classes whose
names are no keywords. It looks at one token to decide how to go on, so an expression is read in
front of any tokens that do not carry it on (`Parser.Ends`), and what its first token begins is
nothing else (`Grammar.Opens`).
-/
namespace LetDef

open Grammar Lexeme Text

/-- The first character of a number or of a literal in quotes. -/
def Lexeme.opensLiteral (char : Char) : Bool :=
  isDigit char || isSign char || char = '\'' || char = '"'

/-- A name begins with no digit. -/
theorem Lexeme.isDigit_of_isNameStart {char : Char} (start : isNameStart char = true) :
    isDigit char = false := by
  cases digit : isDigit char with
  | false => rfl
  | true =>
    simp only [isDigit, Bool.and_eq_true, decide_eq_true_eq, Char.le_def,
      UInt32.le_iff_toNat_le] at digit
    simp only [isNameStart, isLetter, Bool.or_eq_true, Bool.and_eq_true, decide_eq_true_eq,
      Char.le_def, UInt32.le_iff_toNat_le] at start
    obtain ⟨_, high⟩ := digit
    obtain (⟨low, _⟩ | ⟨low, _⟩) | rfl := start
    · exact absurd (Nat.le_trans low high) (by decide)
    · exact absurd (Nat.le_trans low high) (by decide)
    · exact absurd high (by decide)

namespace Token.Shaped

variable {token : Token}

/-- An identifier begins like one. -/
theorem begins_identifier (shaped : token.Shaped) (kind : token.kind = .identifier) :
    token.literal.toList.head?.any isNameStart = true := by
  unfold Shaped at shaped
  rw [kind] at shaped
  generalize token.literal.toList = word at shaped
  cases shaped with
  | identifier start => exact start

/-- A number or a literal in quotes begins like one. -/
theorem begins_literal (shaped : token.Shaped) (noName : token.kind ≠ .identifier)
    (noOperator : token.kind ≠ .operator) :
    token.literal.toList.head?.any opensLiteral = true := by
  have number : ∀ {signs digits rest : List Char}, IsSigns signs → IsDigits digits →
      (signs ++ (digits ++ rest)).head?.any opensLiteral = true := by
    intro signs digits rest signed whole
    obtain ⟨digit, later, rfl, isDigit⟩ := whole.exists_cons
    rcases signed.eq_nil_or with rfl | ⟨sign, rfl, isSign⟩
    · simp [opensLiteral, isDigit]
    · simp [opensLiteral, isSign]
  unfold Shaped at shaped
  generalize token.literal.toList = word at shaped
  generalize token.kind = kind at shaped noName noOperator
  cases shaped with
  | identifier => contradiction
  | integer signed whole =>
    have begins := @number _ _ [] signed whole
    rwa [List.append_nil] at begins
  | decimal signed whole =>
    rw [List.append_assoc]
    exact number signed whole
  | character | string => rfl
  | comparison | single => contradiction

/-- What begins like no name and no literal is an operator. -/
theorem kind_eq_operator (shaped : token.Shaped)
    (noName : token.literal.toList.head?.any isNameStart = false)
    (noLiteral : token.literal.toList.head?.any opensLiteral = false) :
    token.kind = .operator := by
  by_cases name : token.kind = .identifier
  · rw [shaped.begins_identifier name] at noName
    contradiction
  · refine Decidable.byContradiction fun noOperator => ?_
    rw [shaped.begins_literal name noOperator] at noLiteral
    contradiction

end Token.Shaped

namespace Grammar

/-- No keyword may be a name. -/
abbrev unreserved : String → Prop := (· ∉ keywords)

/-- The token begins an expression. -/
inductive Opens (token : Token) : Prop where
  | keyword (written : token.literal ∈ ["NIL", "TRUE", "FALSE"])
  | literal {value} (denotes : token.Denotes value)
  | name (named : IsName unreserved token)
  | group (opened : token.literal = "(")

/-- The texts that begin no expression, though they stand where one may stand. -/
def closers : List String :=
  [")", ";", "END", "ELSE", "LET", "IF", "FOR", "WHILE", "RETURN"]

variable {token : Token} {tokens : List Token} {value : Expr}

/-- A literal is no name and no operator. -/
theorem kind_of_denotes {value : Literal} (denotes : token.Denotes value) :
    token.kind ≠ .identifier ∧ token.kind ≠ .operator := by
  cases denotes <;> simp_all

/-- A literal has no text that begins otherwise. -/
theorem not_mem_of_denotes {value : Literal} (denotes : token.Denotes value)
    (shaped : token.Shaped) {texts : List String}
    (others : ∀ text ∈ texts, text.toList.head?.any opensLiteral = false) :
    token.literal ∉ texts := by
  intro member
  obtain ⟨noName, noOperator⟩ := kind_of_denotes denotes
  have begins := shaped.begins_literal noName noOperator
  rw [others _ member] at begins
  contradiction

/-- A name has no text that begins otherwise or is a keyword. -/
theorem not_mem_of_isName (named : IsName unreserved token) (shaped : token.Shaped)
    {texts : List String}
    (others : ∀ text ∈ texts, text.toList.head?.any isNameStart = false ∨ text ∈ keywords) :
    token.literal ∉ texts := by
  intro member
  have begins := shaped.begins_identifier named.kind
  rcases others _ member with other | keyword
  · rw [other] at begins
    contradiction
  · exact named.permitted keyword

/-- What begins an expression begins nothing else. -/
theorem Opens.not_mem_closers (opens : Opens token) (shaped : token.Shaped) :
    token.literal ∉ closers := by
  cases opens with
  | keyword written =>
    have apart : ∀ text ∈ ["NIL", "TRUE", "FALSE"], text ∉ closers := by decide
    exact apart _ written
  | literal denotes => exact not_mem_of_denotes denotes shaped (by decide)
  | name named => exact not_mem_of_isName named shaped (by decide)
  | group opened => simp [opened, closers]

/-- A primary expression begins as expressions do. -/
theorem Primary.exists_opens (derives : Primary unreserved tokens value) :
    ∃ token later, tokens = token :: later ∧ Opens token := by
  cases derives with
  | nil written | true written | false written => exact ⟨_, _, rfl, .keyword (by simp [written])⟩
  | literal denotes => exact ⟨_, _, rfl, .literal denotes⟩
  | name named => exact ⟨_, _, rfl, .name named⟩
  | call named => exact ⟨_, _, rfl, .name named⟩
  | group opened => exact ⟨_, _, rfl, .group opened⟩

mutual

/-- A chain begins as expressions do. -/
theorem Chain.exists_opens (level : Level) (tokens : List Token) {value : Expr}
    (derives : Chain unreserved level tokens value) :
    ∃ token later, tokens = token :: later ∧ Opens token := by
  cases derives with
  | operand only => exact Operand.exists_opens level tokens only
  | @operator _ before _ _ _ _ _ first =>
    obtain ⟨token, later, rfl, opens⟩ := Chain.exists_opens level before first
    exact ⟨token, _, rfl, opens⟩
  termination_by 16 * tokens.length + 2 * level.rank + 3

/-- An operand begins as expressions do. -/
theorem Operand.exists_opens (level : Level) (tokens : List Token) {value : Expr}
    (derives : Operand unreserved level tokens value) :
    ∃ token later, tokens = token :: later ∧ Opens token := by
  cases derives with
  | chain next inner =>
    have lower := Level.rank_lt_of_tighter? next
    exact Chain.exists_opens _ tokens inner
  | selection last inner => exact Selection.exists_opens tokens inner
  termination_by 16 * tokens.length + 2 * level.rank + 2

/-- A selection begins as expressions do. -/
theorem Selection.exists_opens (tokens : List Token) {value : Expr}
    (derives : Selection unreserved tokens value) :
    ∃ token later, tokens = token :: later ∧ Opens token := by
  cases derives with
  | primary only => exact only.exists_opens
  | @member object _ _ _ inner =>
    obtain ⟨token, later, rfl, opens⟩ := Selection.exists_opens object inner
    exact ⟨token, _, rfl, opens⟩
  | @memberCall object _ _ _ _ _ _ inner =>
    obtain ⟨token, later, rfl, opens⟩ := Selection.exists_opens object inner
    exact ⟨token, _, rfl, opens⟩
  termination_by 16 * tokens.length + 1

end

/-- Arguments begin as expressions do. -/
theorem ArgumentList.exists_opens {values : List Expr}
    (derives : ArgumentList unreserved tokens values) :
    ∃ token later, tokens = token :: later ∧ Opens token := by
  cases derives with
  | one first => exact Chain.exists_opens .logical tokens first
  | @more before _ _ _ _ first =>
    obtain ⟨token, later, rfl, opens⟩ := Chain.exists_opens .logical before first
    exact ⟨token, _, rfl, opens⟩

end Grammar

namespace Level

/-- An operator is found by its level. -/
theorem operator?_of_mem {level : Level} {operator : BinaryOp}
    (member : operator ∈ level.operators) : level.operator? operator.symbol = some operator := by
  cases level <;> cases operator <;> first | rfl | simp [operators] at member

/-- An operator is found by no other level. -/
theorem operator?_of_ne {level other : Level} {operator : BinaryOp}
    (member : operator ∈ level.operators) (different : other ≠ level) :
    other.operator? operator.symbol = none := by
  cases level <;> cases operator <;> simp [operators] at member <;>
    cases other <;> first | rfl | simp at different

end Level

namespace Parser

open Token (AllShaped)

/-- The tokens carry on no member selection, no call, and no chain of so many tight levels. -/
structure Ends (levels : Nat) (tokens : List Token) : Prop where
  /-- No member is selected. -/
  unselected : ¬ Starts "." tokens
  /-- Nothing is called. -/
  uncalled : ¬ Starts "(" tokens
  /-- No operator is in front. -/
  stops : ∀ level : Level, level.rank < levels → StopsAt level tokens

/-- The texts that follow expressions, operators and points apart. -/
def terminals : List String :=
  [")", ",", ";", "=", "DO"]

variable {token : Token} {rest after : List Token} {levels : Nat}

/-- What carries on no chains carries on no tighter ones. -/
theorem Ends.mono {fewer : Nat} (ends : Ends levels rest) (least : fewer ≤ levels) :
    Ends fewer rest :=
  ⟨ends.unselected, ends.uncalled, fun level low => ends.stops level (Nat.lt_of_lt_of_le low least)⟩

/-- What carries on no chain of a level ends it. -/
theorem Ends.chainAfter {level : Level} {tree : Expr} (ends : Ends levels rest)
    (low : level.rank < levels) : Gives (chainAfter level tree rest) tree rest :=
  (gives_chainAfter_of_stopsAt (ends.stops level low)).mpr ⟨rfl, rfl⟩

/-- What follows expressions carries on none. -/
theorem ends_of_mem_terminals (terminal : token.literal ∈ terminals) :
    Ends levels (token :: rest) := by
  have apart : ∀ text ∈ terminals, text ≠ "." ∧ text ≠ "(" ∧
      ∀ level ∈ [Level.logical, .comparison, .additive, .multiplicative],
        level.operator? text = none := by decide
  obtain ⟨noPoint, noParenthesis, noOperator⟩ := apart _ terminal
  refine ⟨fun point => noPoint (starts_cons.mp point),
    fun parenthesis => noParenthesis (starts_cons.mp parenthesis), fun level _ => ?_⟩
  intro first front
  obtain rfl := Option.some.inj front
  exact noOperator level (by cases level <;> simp)

/-- An operator carries on no tighter chains. -/
theorem ends_of_operator {level : Level} {operator : BinaryOp} (member : operator ∈ level.operators)
    (written : token.literal = operator.symbol) : Ends level.rank (token :: rest) := by
  refine ⟨?_, ?_, fun other low => ?_⟩
  · rw [starts_cons, written]
    cases operator <;> decide
  · rw [starts_cons, written]
    cases operator <;> decide
  · intro first front
    obtain rfl := Option.some.inj front
    rw [written]
    refine Level.operator?_of_ne member ?_
    rintro rfl
    exact absurd low (Nat.lt_irrefl _)

/-- No value is denoted by a keyword for a text that is none. -/
theorem ofKeyword?_eq_none (other : token.literal ∉ ["NIL", "TRUE", "FALSE"]) :
    Literal.ofKeyword? token = none := by
  simp only [List.mem_cons, List.not_mem_nil, or_false, not_or] at other
  simp [Literal.ofKeyword?, Token.reads, other]

/-- An unreserved name can be read as one. -/
theorem isNamed_of_isName (named : IsName unreserved token) (shaped : token.Shaped) :
    IsNamed token := by
  refine ⟨named.kind, ?_⟩
  have begins := shaped.begins_identifier named.kind
  rw [startsWithDigit]
  cases first : token.literal.toList.head? with
  | none => rfl
  | some char =>
    rw [first] at begins
    have letter : isNameStart char = true := begins
    cases digit : isDigit char with
    | false => exact digit
    | true =>
      rw [isDigit_of_isNameStart letter] at digit
      contradiction

mutual

/-- A derived chain is read, and what is read behind its tree. -/
theorem chain_gives (level : Level) (tokens : List Token) {tree value : Expr}
    {rest after : List Token} (derives : Chain unreserved level tokens tree)
    (shaped : AllShaped tokens) (ends : Ends level.rank rest)
    (given : Gives (chainAfter level tree rest) value after) :
    Gives (chain level (tokens ++ rest)) value after := by
  cases derives with
  | operand only =>
    exact gives_chain.mpr ⟨tree, rest, operand_gives level tokens only shaped ends, given⟩
  | @operator _ before sign behind _ _ right first member written second =>
    obtain ⟨shapedBefore, shapedBehind⟩ := shaped.of_append
    have found := Level.operator?_of_mem member
    rw [← written] at found
    have small := level.rank_le
    have readRight := operand_gives level behind second shapedBehind.tail ends
    -- The derivation ends with its last operator and the reader begins with the first one: what is
    -- read behind the left operand is put in front of what is read behind the right one.
    have longer := (gives_chainAfter_cons found).mpr ⟨right, rest, readRight, given⟩
    have whole := chain_gives level before first shapedBefore (ends_of_operator member written)
      longer
    rwa [List.append_assoc, List.cons_append]
  termination_by 16 * tokens.length + 2 * level.rank + 3

/-- A derived operand is read. -/
theorem operand_gives (level : Level) (tokens : List Token) {tree : Expr} {rest : List Token}
    (derives : Operand unreserved level tokens tree) (shaped : AllShaped tokens)
    (ends : Ends level.rank rest) : Gives (operand level (tokens ++ rest)) tree rest := by
  cases derives with
  | @chain _ tighter _ _ next inner =>
    have lower := Level.rank_lt_of_tighter? next
    refine (gives_operand_of_tighter next).mpr ?_
    exact chain_gives tighter tokens inner shaped (ends.mono (Nat.le_of_lt lower))
      (ends.chainAfter lower)
  | selection last inner =>
    refine (gives_operand_of_last last).mpr ?_
    exact selection_gives tokens inner shaped ends.uncalled
      ((gives_selectionAfter_of_not_starts ends.unselected).mpr ⟨rfl, rfl⟩)
  termination_by 16 * tokens.length + 2 * level.rank + 2

/-- A derived selection is read, and what is read behind its tree. -/
theorem selection_gives (tokens : List Token) {tree value : Expr} {rest after : List Token}
    (derives : Selection unreserved tokens tree) (shaped : AllShaped tokens)
    (uncalled : ¬ Starts "(" rest) (given : Gives (selectionAfter tree rest) value after) :
    Gives (selection (tokens ++ rest)) value after := by
  cases derives with
  | primary only =>
    exact gives_selection.mpr ⟨tree, rest, primary_gives tokens only shaped uncalled, given⟩
  | @member object point name receiver inner pointed named =>
    obtain ⟨shapedObject, shapedBehind⟩ := shaped.of_append
    have isNamed := isNamed_of_isName named (shapedBehind name (by simp))
    have longer : Gives (selectionAfter receiver (point :: name :: rest)) value after :=
      (gives_selectionAfter_cons pointed).mpr ⟨name, rest, rfl, isNamed, .inl ⟨uncalled, given⟩⟩
    rw [List.append_assoc]
    exact selection_gives object inner shapedObject (by simp [starts_cons, pointed]) longer
  | @memberCall object point name opening inside receiver values inner pointed named opened args =>
    obtain ⟨shapedObject, shapedBehind⟩ := shaped.of_append
    have isNamed := isNamed_of_isName named (shapedBehind name (by simp))
    have readArguments := arguments_gives inside rest args shapedBehind.tail.tail.tail
    have longer : Gives (selectionAfter receiver (point :: name :: opening :: (inside ++ rest)))
        value after :=
      (gives_selectionAfter_cons pointed).mpr ⟨name, _, rfl, isNamed,
        .inr ⟨opening, _, rfl, opened, values, rest, readArguments, given⟩⟩
    rw [List.append_assoc]
    exact selection_gives object inner shapedObject (by simp [starts_cons, pointed]) longer
  termination_by 16 * tokens.length + 1

/-- A derived primary expression is read. -/
theorem primary_gives (tokens : List Token) {tree : Expr} {rest : List Token}
    (derives : Primary unreserved tokens tree) (shaped : AllShaped tokens)
    (uncalled : ¬ Starts "(" rest) : Gives (primary (tokens ++ rest)) tree rest := by
  cases derives with
  | nil written | true written | false written =>
    refine (gives_primary_of_keyword ?_).mpr ⟨rfl, rfl⟩
    simp [Literal.ofKeyword?, Token.reads, written]
  | @literal token value denotes =>
    obtain ⟨noName, noOperator⟩ := kind_of_denotes denotes
    have noKeyword := ofKeyword?_eq_none
      (not_mem_of_denotes denotes (shaped token (by simp)) (by decide))
    exact (gives_primary_of_literal noKeyword noName noOperator).mpr
      ⟨value, denotes.ofToken_eq, rfl, rfl⟩
  | @name name named =>
    have shapedName := shaped name (by simp)
    have noKeyword := ofKeyword?_eq_none (not_mem_of_isName named shapedName (by decide))
    exact (gives_primary_of_name noKeyword named.kind).mpr
      ⟨(isNamed_of_isName named shapedName).solid, .inl ⟨uncalled, rfl, rfl⟩⟩
  | @call name opening inside values named opened args =>
    have shapedName := shaped name (by simp)
    have noKeyword := ofKeyword?_eq_none (not_mem_of_isName named shapedName (by decide))
    have readArguments := arguments_gives inside rest args shaped.tail.tail
    exact (gives_primary_of_name noKeyword named.kind).mpr
      ⟨(isNamed_of_isName named shapedName).solid,
        .inr ⟨opening, _, rfl, opened, values, readArguments, rfl⟩⟩
  | @group opening inside closing value opened inner closed =>
    have sign : opening.kind = .operator :=
      (shaped opening (by simp)).kind_eq_operator (by rw [opened]; decide) (by rw [opened]; decide)
    have noKeyword : Literal.ofKeyword? opening = none :=
      ofKeyword?_eq_none (by simp [opened])
    obtain ⟨shapedInside, _⟩ := shaped.tail.of_append
    have ends : Ends (Level.logical.rank + 1) (closing :: rest) :=
      ends_of_mem_terminals (by simp [closed, terminals])
    have readInner := chain_gives .logical inside inner shapedInside (ends.mono (Nat.le_succ _))
      (ends.chainAfter (Nat.lt_succ_self _))
    rw [List.cons_append, List.append_assoc, List.singleton_append]
    exact (gives_primary_of_operator noKeyword sign).mpr
      ⟨opened, value, _, readInner, closing, rest, rfl, closed, rfl, rfl⟩
  termination_by 16 * tokens.length
  decreasing_by
    all_goals
      subst_vars
      simp only [List.length_append, List.length_cons, Level.rank]
      omega

/-- Derived arguments are read. -/
theorem arguments_gives (tokens rest : List Token) {values : List Expr}
    (derives : Arguments unreserved tokens values) (shaped : AllShaped tokens) :
    Gives (arguments (tokens ++ rest)) values rest := by
  cases derives with
  | none closed => exact (gives_arguments_cons closed).mpr ⟨rfl, rfl⟩
  | @some inside closing _ listed closed =>
    obtain ⟨shapedInside, _⟩ := shaped.of_append
    obtain ⟨token, later, front, opens⟩ := listed.exists_opens
    have filled : ¬ Starts ")" (inside ++ closing :: rest) := by
      rw [front, List.cons_append, starts_cons]
      intro same
      have outside := opens.not_mem_closers (shapedInside token (by simp [front]))
      exact outside (by simp [same, closers])
    rw [List.append_assoc, List.singleton_append]
    exact (gives_arguments_of_not_starts filled).mpr
      (argumentsFrom_gives inside rest listed shapedInside closed)
  termination_by 16 * tokens.length + 11

/-- A derived list of arguments is read with the parenthesis behind it. -/
theorem argumentsFrom_gives (tokens rest : List Token) {values : List Expr} {closing : Token}
    (derives : ArgumentList unreserved tokens values)
    (shaped : AllShaped tokens) (closed : closing.literal = ")") :
    Gives (argumentsFrom (tokens ++ closing :: rest)) values rest := by
  cases derives with
  | @one _ value first =>
    have ends : Ends (Level.logical.rank + 1) (closing :: rest) :=
      ends_of_mem_terminals (by simp [closed, terminals])
    have readFirst := chain_gives .logical tokens first shaped (ends.mono (Nat.le_succ _))
      (ends.chainAfter (Nat.lt_succ_self _))
    exact gives_argumentsFrom.mpr
      ⟨value, _, readFirst, closing, rest, rfl, .inl ⟨closed, rfl, rfl⟩⟩
  | @more before comma later value others first separated listed =>
    obtain ⟨shapedBefore, shapedLater⟩ := shaped.of_append
    have ends : Ends (Level.logical.rank + 1) (comma :: (later ++ closing :: rest)) :=
      ends_of_mem_terminals (by simp [separated, terminals])
    have readFirst := chain_gives .logical before first shapedBefore (ends.mono (Nat.le_succ _))
      (ends.chainAfter (Nat.lt_succ_self _))
    have readRest := argumentsFrom_gives later rest listed shapedLater.tail closed
    rw [List.append_assoc, List.cons_append]
    exact gives_argumentsFrom.mpr
      ⟨value, _, readFirst, comma, _, rfl, .inr ⟨separated, others, readRest, rfl⟩⟩
  termination_by 16 * tokens.length + 10
  decreasing_by
    all_goals
      subst_vars
      simp only [List.length_append, List.length_cons, Level.rank]
      omega

end

end Parser

end LetDef
