import LetDef.Proofs.Program.Recognition
import LetDef.Proofs.Token.Tokenization

/-!
# The parser and its grammar

The parser reads the statements, methods and fields that the grammar derives from words of the
lexical classes whose names are no keywords, as it reads expressions. Together with the derivations
of what it reads, this makes the grammar an exact description of the parser
(`ofTokens_sound_and_complete`).
-/
namespace LetDef

open Grammar Lexeme

namespace Parser

open Token (AllShaped)

variable {token : Token} {rest : List Token}

section Statements

variable {tokens : List Token}

/-- A derived expression is read in front of what ends it. -/
theorem expression_gives {value : Expr} (derives : Expression unreserved tokens value)
    (shaped : AllShaped tokens) (terminal : token.literal ∈ terminals) (rest : List Token) :
    Gives (expression (tokens ++ token :: rest)) value (token :: rest) := by
  have ends : Ends (Level.logical.rank + 1) (token :: rest) := ends_of_mem_terminals terminal
  exact chain_gives .logical tokens derives shaped (ends.mono (Nat.le_succ _))
    (ends.chainAfter (Nat.lt_succ_self _))

/-- A semicolon ends expressions. -/
theorem mem_terminals_of_stop (stopped : token.literal = ";") : token.literal ∈ terminals := by
  simp [stopped, terminals]

/-- The sign before a value ends expressions. -/
theorem mem_terminals_of_equals (marked : token.literal = "=") : token.literal ∈ terminals := by
  simp [marked, terminals]

/-- The word before a body ends expressions. -/
theorem mem_terminals_of_do (opened : token.literal = "DO") : token.literal ∈ terminals := by
  simp [opened, terminals]

/-- A derived optional expression is read in front of a semicolon. -/
theorem initial_gives {value : Option Expr} (derives : Initial unreserved tokens value)
    (shaped : AllShaped tokens) (stopped : token.literal = ";") (rest : List Token) :
    Gives (expressionAfter "=" (tokens ++ token :: rest)) value (token :: rest) := by
  refine gives_expressionAfter.mpr ?_
  cases derives with
  | none => exact .inl ⟨by simp [starts_cons, stopped], rfl, rfl⟩
  | @some equals inner value marked derives =>
    have readValue := expression_gives derives shaped.tail (mem_terminals_of_stop stopped) rest
    exact .inr ⟨equals, _, rfl, marked, value, readValue, rfl⟩

/-- A derived optional type is read in front of what does not begin one. -/
theorem optionalType_gives {what : Expectation} {value : Option String}
    (derives : OptionalType unreserved tokens value) (shaped : AllShaped tokens)
    (other : ¬ Starts ":" rest) : Gives (nameAfterColon what (tokens ++ rest)) value rest := by
  refine gives_nameAfterColon.mpr ?_
  cases derives with
  | none => exact .inl ⟨other, rfl, rfl⟩
  | @some colon name marked named =>
    have isNamed := isNamed_of_isName named (shaped name (by simp))
    exact .inr ⟨colon, name, rfl, marked, isNamed, rfl⟩

/-- A derived optional expression begins no type. -/
theorem not_starts_initial {value : Option Expr} (derives : Initial unreserved tokens value)
    (stopped : token.literal = ";") : ¬ Starts ":" (tokens ++ token :: rest) := by
  cases derives with
  | none => simp [starts_cons, stopped]
  | some marked => simp [starts_cons, marked]

/-- A derived statement begins neither as a blank one nor with the word behind a body. -/
theorem exists_begins {value : Stmt} (derives : Statement unreserved tokens value)
    (shaped : AllShaped tokens) :
    ∃ token later, tokens = token :: later ∧ token.literal ∉ [";", "END", "ELSE"] := by
  -- Two kinds of statements begin with an expression, the others with a word of their own.
  have opened : ∀ {front behind : List Token} {value : Expr},
      Expression unreserved front value → tokens = front ++ behind →
      ∃ token later, tokens = token :: later ∧ token.literal ∉ [";", "END", "ELSE"] := by
    rintro front behind value inner rfl
    obtain ⟨token, later, rfl, opens⟩ := Chain.exists_opens .logical front inner
    have outside := opens.not_mem_closers (shaped token (by simp))
    refine ⟨token, _, rfl, fun member => outside ?_⟩
    have within : ∀ text ∈ [";", "END", "ELSE"], text ∈ closers := by decide
    exact within _ member
  cases derives with
  | assignment goal => exact opened goal rfl
  | expression inner => exact opened inner rfl
  | declaration first | conditional first | alternative first | iteration first | repetition first
  | result first => exact ⟨_, _, rfl, by simp [first]⟩

/-- A derived expression statement or assignment begins with no word of another statement. -/
theorem not_mem_statementWords {value : Expr} {behind : List Token}
    (derives : Expression unreserved tokens value) (shaped : AllShaped tokens) :
    ∃ token later, tokens ++ behind = token :: later ∧ token.literal ∉ statementWords := by
  obtain ⟨token, later, rfl, opens⟩ := Chain.exists_opens .logical tokens derives
  have outside := opens.not_mem_closers (shaped token (by simp))
  refine ⟨token, _, rfl, fun member => outside ?_⟩
  have within : ∀ text ∈ statementWords, text ∈ closers := by decide
  exact within _ member

/-- `END` closes a body. -/
theorem closing_of_end (branch : Bool) (closed : token.literal = "END") :
    Closing.of? branch token = some .done := by
  simp [Closing.of?, Token.reads, closed]

/-- `ELSE` closes a branch. -/
theorem closing_of_else (otherwise : token.literal = "ELSE") :
    Closing.of? true token = some .otherwise := by
  simp [Closing.of?, Token.reads, otherwise]

variable {word name equals stop : Token} {marked given place : List Token}

/-- A derived declaration is read. -/
theorem declaration_gives {typeName : Option String} {value : Option Expr}
    (first : word.literal = "LET") (named : IsName unreserved name)
    (noted : OptionalType unreserved marked typeName) (initial : Initial unreserved given value)
    (stopped : stop.literal = ";")
    (shaped : AllShaped (word :: name :: (marked ++ given ++ [stop]))) (rest : List Token) :
    Gives (statement (word :: name :: (marked ++ given ++ [stop]) ++ rest))
      (.declaration ⟨name.literal, typeName, value, none⟩) rest := by
  obtain ⟨shapedFront, _⟩ := shaped.tail.tail.of_append
  obtain ⟨shapedMarked, shapedGiven⟩ := shapedFront.of_append
  have isNamed := isNamed_of_isName named (shaped name (by simp))
  have readValue := initial_gives initial shapedGiven stopped rest
  rw [List.cons_append, List.cons_append, List.append_assoc, List.append_assoc,
    List.singleton_append]
  exact (gives_statement_of_let first).mpr ⟨_, gives_declaration.mpr ⟨name, _, rfl, isNamed, _, _,
    optionalType_gives noted shapedMarked (not_starts_initial initial stopped), value, _,
    readValue, stop, rest, rfl, stopped, rfl, rfl⟩, rfl⟩

/-- A derived `RETURN` is read. -/
theorem result_gives {value : Expr} (first : word.literal = "RETURN")
    (inner : Expression unreserved tokens value) (stopped : stop.literal = ";")
    (shaped : AllShaped (word :: (tokens ++ [stop]))) (rest : List Token) :
    Gives (statement (word :: (tokens ++ [stop]) ++ rest)) (.result value) rest := by
  obtain ⟨shapedFront, _⟩ := shaped.tail.of_append
  have readValue := expression_gives inner shapedFront (mem_terminals_of_stop stopped) rest
  rw [List.cons_append, List.append_assoc, List.singleton_append]
  exact (gives_statement_of_return first).mpr (gives_result.mpr
    ⟨value, _, readValue, stop, rest, rfl, stopped, rfl, rfl⟩)

/-- A derived assignment is read. -/
theorem assignment_gives {target value : Expr} (goal : Expression unreserved place target)
    (marked : equals.literal = "=") (inner : Expression unreserved tokens value)
    (stopped : stop.literal = ";") (shaped : AllShaped (place ++ equals :: (tokens ++ [stop])))
    (rest : List Token) :
    Gives (statement (place ++ equals :: (tokens ++ [stop]) ++ rest)) (.assignment target value)
      rest := by
  obtain ⟨shapedPlace, shapedBehind⟩ := shaped.of_append
  obtain ⟨shapedFront, _⟩ := shapedBehind.tail.of_append
  have readTarget := expression_gives goal shapedPlace (mem_terminals_of_equals marked)
    (tokens ++ stop :: rest)
  have readValue := expression_gives inner shapedFront (mem_terminals_of_stop stopped) rest
  have readInitial := gives_expressionAfter.mpr
    (.inr ⟨equals, _, rfl, marked, value, readValue, rfl⟩)
  have whole := gives_expressionStatement.mpr
    ⟨target, _, readTarget, _, _, readInitial, stop, rest, rfl, stopped, rfl, rfl⟩
  obtain ⟨token, later, same, other⟩ := not_mem_statementWords goal shapedPlace
  rw [List.append_assoc, List.cons_append, List.append_assoc, List.singleton_append]
  rw [same] at whole ⊢
  exact (gives_statement_of_expression other).mpr whole

/-- A derived expression statement is read. -/
theorem expressionStatement_gives {value : Expr} (inner : Expression unreserved tokens value)
    (stopped : stop.literal = ";") (shaped : AllShaped (tokens ++ [stop])) (rest : List Token) :
    Gives (statement (tokens ++ [stop] ++ rest)) (.expression value) rest := by
  obtain ⟨shapedFront, _⟩ := shaped.of_append
  have readValue := expression_gives inner shapedFront (mem_terminals_of_stop stopped) rest
  have readInitial : Gives (expressionAfter "=" (stop :: rest)) none (stop :: rest) :=
    gives_expressionAfter.mpr (.inl ⟨by simp [starts_cons, stopped], rfl, rfl⟩)
  have whole := gives_expressionStatement.mpr
    ⟨value, _, readValue, _, _, readInitial, stop, rest, rfl, stopped, rfl, rfl⟩
  obtain ⟨token, later, same, other⟩ := not_mem_statementWords inner shapedFront
  rw [List.append_assoc, List.singleton_append]
  rw [same] at whole ⊢
  exact (gives_statement_of_expression other).mpr whole

mutual

/-- Derived statements are read with the word behind them. -/
theorem block_gives (branch : Bool) (tokens rest : List Token) {statements : List Stmt}
    {closing : Token} {kind : Closing} (derives : Block unreserved tokens statements)
    (shaped : AllShaped tokens) (closes : Closing.of? branch closing = some kind) :
    Gives (block branch (tokens ++ closing :: rest)) (statements, kind) rest := by
  cases derives with
  | nil => exact (gives_block_of_closing closes).mpr ⟨rfl, rfl⟩
  | @blank stop later _ stopped inner =>
    have goes : Closing.of? branch stop = none := by simp [Closing.of?, Token.reads, stopped]
    exact (gives_block_of_blank goes stopped).mpr
      (block_gives branch later rest inner shaped.tail closes)
  | @cons before later statement statements first inner =>
    obtain ⟨shapedBefore, shapedLater⟩ := shaped.of_append
    obtain ⟨token, behind, front, other⟩ := exists_begins first shapedBefore
    have filled : 0 < before.length := by simp [front]
    have readFirst := statement_gives before (later ++ closing :: rest) first shapedBefore
    have readRest := block_gives branch later rest inner shapedLater closes
    simp only [List.mem_cons, List.not_mem_nil, or_false, not_or] at other
    have goes : Closing.of? branch token = none := by simp [Closing.of?, Token.reads, other]
    rw [List.append_assoc]
    rw [front, List.cons_append] at readFirst ⊢
    exact (gives_block_of_statement goes other.1).mpr
      ⟨statement, _, readFirst, (statements, kind), readRest, rfl⟩
  -- A block may be a single statement, so it counts for more than its first one.
  termination_by 4 * tokens.length + 1
  decreasing_by
    all_goals
      subst_vars
      simp only [List.length_append, List.length_cons]
      omega

/-- A derived statement is read. -/
theorem statement_gives (tokens rest : List Token) {value : Stmt}
    (derives : Statement unreserved tokens value) (shaped : AllShaped tokens) :
    Gives (statement (tokens ++ rest)) value rest := by
  cases derives with
  | declaration first named noted initial stopped =>
    exact declaration_gives first named noted initial stopped shaped rest
  | @conditional word tested opening inside closing condition accepted first test opened body
      closed =>
    obtain ⟨shapedTest, shapedBehind⟩ := shaped.tail.of_append
    obtain ⟨shapedBody, _⟩ := shapedBehind.tail.of_append
    have closes := closing_of_end true closed
    have readTest := expression_gives test shapedTest (mem_terminals_of_do opened)
      (inside ++ closing :: rest)
    have readBody := block_gives true inside rest body shapedBody closes
    rw [List.cons_append, List.append_assoc, List.cons_append, List.append_assoc,
      List.singleton_append]
    exact (gives_statement_of_if first).mpr ⟨condition, _, readTest, opening, _, rfl, opened,
      (accepted, .done), rest, readBody, [], gives_alternative.mpr (.inl ⟨rfl, rfl, rfl⟩), rfl⟩
  | @alternative word tested opening inside between other closing condition accepted rejected first
      test opened body otherwise inner closed =>
    obtain ⟨shapedTest, shapedBehind⟩ := shaped.tail.of_append
    obtain ⟨shapedBody, shapedElse⟩ := shapedBehind.tail.of_append
    obtain ⟨shapedOther, _⟩ := shapedElse.tail.of_append
    have turns := closing_of_else otherwise
    have closes := closing_of_end false closed
    have readTest := expression_gives test shapedTest (mem_terminals_of_do opened)
      (inside ++ between :: (other ++ closing :: rest))
    have readBody := block_gives true inside (other ++ closing :: rest) body shapedBody turns
    have readOther := block_gives false other rest inner shapedOther closes
    rw [List.cons_append, List.append_assoc, List.cons_append, List.append_assoc,
      List.cons_append, List.append_assoc, List.singleton_append]
    exact (gives_statement_of_if first).mpr ⟨condition, _, readTest, opening, _, rfl, opened,
      (accepted, .otherwise), _, readBody, rejected,
      gives_alternative.mpr (.inr ⟨rfl, _, readOther, rfl⟩), rfl⟩
  | @iteration word name preposition tested opening inside closing value body first named within
      loop opened inner closed =>
    obtain ⟨shapedLoop, shapedBehind⟩ := shaped.tail.tail.tail.of_append
    obtain ⟨shapedBody, _⟩ := shapedBehind.tail.of_append
    have isNamed := isNamed_of_isName named (shaped name (by simp))
    have closes := closing_of_end false closed
    have readValue := expression_gives loop shapedLoop (mem_terminals_of_do opened)
      (inside ++ closing :: rest)
    have readBody := block_gives false inside rest inner shapedBody closes
    rw [List.cons_append, List.cons_append, List.cons_append, List.append_assoc, List.cons_append,
      List.append_assoc, List.singleton_append]
    exact (gives_statement_of_for first).mpr ⟨name, _, rfl, isNamed, preposition, _, rfl, within,
      value, _, readValue, opening, _, rfl, opened, _, readBody, rfl⟩
  | @repetition word tested opening inside closing condition body first test opened inner closed =>
    obtain ⟨shapedTest, shapedBehind⟩ := shaped.tail.of_append
    obtain ⟨shapedBody, _⟩ := shapedBehind.tail.of_append
    have closes := closing_of_end false closed
    have readTest := expression_gives test shapedTest (mem_terminals_of_do opened)
      (inside ++ closing :: rest)
    have readBody := block_gives false inside rest inner shapedBody closes
    rw [List.cons_append, List.append_assoc, List.cons_append, List.append_assoc,
      List.singleton_append]
    exact (gives_statement_of_while first).mpr ⟨condition, _, readTest, opening, _, rfl, opened,
      _, readBody, rfl⟩
  | result first inner stopped => exact result_gives first inner stopped shaped rest
  | assignment goal marked inner stopped =>
    exact assignment_gives goal marked inner stopped shaped rest
  | expression inner stopped => exact expressionStatement_gives inner stopped shaped rest
  termination_by 4 * tokens.length
  decreasing_by
    all_goals
      subst_vars
      simp only [List.length_append, List.length_cons]
      omega

end

end Statements

section Programs

/-- A derived field is read behind its first word. -/
theorem field_gives {tokens : List Token} {found : Field}
    (derives : IsField unreserved tokens found) (shaped : AllShaped tokens) (rest : List Token) :
    ∃ word later, tokens = word :: later ∧ word.literal = "LET" ∧
      Gives (field (later ++ rest)) found rest := by
  cases derives with
  | @mk word name colon type given stop value first named marked typed initial stopped =>
    obtain ⟨shapedGiven, _⟩ := shaped.tail.tail.tail.tail.of_append
    have isNamed := isNamed_of_isName named (shaped name (by simp))
    have isType := isNamed_of_isName typed (shaped type (by simp))
    have readValue := initial_gives initial shapedGiven stopped rest
    refine ⟨word, _, rfl, first, ?_⟩
    rw [List.cons_append, List.cons_append, List.cons_append, List.append_assoc,
      List.singleton_append]
    exact gives_field.mpr ⟨name, _, rfl, isNamed, colon, _, rfl, marked, type, _, rfl, isType,
      value, _, readValue, stop, rest, rfl, stopped, rfl, rfl⟩

/-- A derived list of parameters is read with the parenthesis behind it. -/
theorem parametersFrom_gives {tokens : List Token} {found : List Parameter} {closing : Token}
    (derives : ParameterList unreserved tokens found) (shaped : AllShaped tokens)
    (closed : closing.literal = ")") (rest : List Token) :
    Gives (parametersFrom (tokens ++ closing :: rest)) found rest := by
  induction derives with
  | @one name colon type named marked typed =>
    have isNamed := isNamed_of_isName named (shaped name (by simp))
    have isType := isNamed_of_isName typed (shaped type (by simp))
    exact gives_parametersFrom.mpr ⟨name, _, rfl, isNamed, colon, _, rfl, marked, type, _, rfl,
      isType, closing, rest, rfl, .inl ⟨closed, rfl, rfl⟩⟩
  | @more name colon type comma later _ named marked typed separated _ ih =>
    have isNamed := isNamed_of_isName named (shaped name (by simp))
    have isType := isNamed_of_isName typed (shaped type (by simp))
    have readRest := ih shaped.tail.tail.tail.tail
    exact gives_parametersFrom.mpr ⟨name, _, rfl, isNamed, colon, _, rfl, marked, type, _, rfl,
      isType, comma, _, rfl, .inr ⟨separated, _, readRest, rfl⟩⟩

/-- A derived list of parameters begins with a name. -/
theorem not_starts_parameters {tokens behind : List Token} {found : List Parameter}
    (derives : ParameterList unreserved tokens found) (shaped : AllShaped tokens) :
    ¬ Starts ")" (tokens ++ behind) := by
  have other : ∀ {name : Token}, name.Shaped → IsName unreserved name → name.literal ≠ ")" := by
    intro name shapedName named same
    have outside : name.literal ∉ [")"] := not_mem_of_isName named shapedName (by decide)
    exact outside (by simp [same])
  cases derives with
  | @one name _ _ named | @more name _ _ _ _ _ named =>
    rw [List.cons_append, starts_cons]
    exact other (shaped name (by simp)) named

/-- Derived parameters are read. -/
theorem parameters_gives {tokens : List Token} {found : List Parameter}
    (derives : Parameters unreserved tokens found) (shaped : AllShaped tokens)
    (rest : List Token) : Gives (parameters (tokens ++ rest)) found rest := by
  cases derives with
  | none closed => exact (gives_parameters_cons closed).mpr ⟨rfl, rfl⟩
  | @some inside closing _ listed closed =>
    obtain ⟨shapedInside, _⟩ := shaped.of_append
    rw [List.append_assoc, List.singleton_append]
    exact (gives_parameters_of_not_starts (not_starts_parameters listed shapedInside)).mpr
      (parametersFrom_gives listed shapedInside closed rest)

/-- A derived method is read behind its first word. -/
theorem method_gives {tokens : List Token} {found : Method}
    (derives : IsMethod unreserved tokens found) (shaped : AllShaped tokens) (rest : List Token) :
    ∃ word later, tokens = word :: later ∧ word.literal = "DEF" ∧
      Gives (method (later ++ rest)) found rest := by
  cases derives with
  | @mk word name opening listed marked beginning inside closing parameters typeName body first
      named opened accepts noted begun inner closed =>
    obtain ⟨shapedListed, shapedMarked⟩ := shaped.tail.tail.tail.of_append
    obtain ⟨shapedType, shapedBehind⟩ := shapedMarked.of_append
    obtain ⟨shapedBody, _⟩ := shapedBehind.tail.of_append
    have isNamed := isNamed_of_isName named (shaped name (by simp))
    have readParameters := parameters_gives accepts shapedListed
      (marked ++ beginning :: (inside ++ closing :: rest))
    have closes := closing_of_end false closed
    have readBody := block_gives false inside rest inner shapedBody closes
    refine ⟨word, _, rfl, first, ?_⟩
    rw [List.cons_append, List.cons_append, List.append_assoc, List.append_assoc, List.cons_append,
      List.append_assoc, List.singleton_append]
    exact gives_method.mpr ⟨name, _, rfl, isNamed, opening, _, rfl, opened, parameters, _,
      readParameters, typeName, _,
      optionalType_gives noted shapedType (by simp [starts_cons, begun]), beginning, _, rfl,
      begun, _, readBody, rfl⟩

/-- Derived fields are read in front of what is none. -/
theorem fields_gives {tokens : List Token} {found : List Field}
    (derives : Many (IsField unreserved) tokens found) (shaped : AllShaped tokens)
    {rest : List Token} (stops : ¬ Starts "LET" rest) :
    Gives (fields (tokens ++ rest)) found rest := by
  induction derives with
  | nil => exact (gives_fields_of_not_starts stops).mpr ⟨rfl, rfl⟩
  | @cons _ more _ _ first _ ih =>
    obtain ⟨shapedFirst, shapedRest⟩ := shaped.of_append
    obtain ⟨word, later, rfl, written, readFirst⟩ := field_gives first shapedFirst (more ++ rest)
    rw [List.append_assoc, List.cons_append]
    exact (gives_fields_cons written).mpr ⟨_, _, readFirst, _, ih shapedRest, rfl⟩

/-- Derived methods are read to the end of the tokens. -/
theorem methods_gives {tokens : List Token} {found : List Method}
    (derives : Many (IsMethod unreserved) tokens found) (shaped : AllShaped tokens) :
    Gives (methods tokens) found [] := by
  induction derives with
  | nil => exact (gives_methods_of_not_starts not_starts_nil).mpr ⟨rfl, rfl⟩
  | @cons _ more _ _ first _ ih =>
    obtain ⟨shapedFirst, shapedRest⟩ := shaped.of_append
    obtain ⟨word, later, rfl, written, readFirst⟩ := method_gives first shapedFirst more
    rw [List.cons_append]
    exact (gives_methods_cons written).mpr ⟨_, _, readFirst, _, ih shapedRest, rfl⟩

/-- Derived methods do not begin as fields. -/
theorem not_starts_methods {tokens : List Token} {found : List Method}
    (derives : Many (IsMethod unreserved) tokens found) : ¬ Starts "LET" tokens := by
  cases derives with
  | nil => exact not_starts_nil
  | cons first =>
    cases first with
    | mk written => simp [starts_cons, written]

/-- A derived program is read. -/
theorem program_of_isProgram {tokens : List Token} {found : Program}
    (derives : IsProgram unreserved tokens found) (shaped : AllShaped tokens) :
    program tokens = .ok found := by
  cases derives with
  | mk first second =>
    obtain ⟨shapedFront, shapedBack⟩ := shaped.of_append
    exact program_eq_ok.mpr ⟨_, fields_gives first shapedFront (not_starts_methods second),
      methods_gives second shapedBack⟩

end Programs

end Parser

/-- The tokens of a text are words of their classes. -/
theorem Token.allShaped_of_scan {text : String} {tokens : List Token}
    (scanned : Token.scan text = .ok tokens) : Token.AllShaped tokens := by
  obtain ⟨pieces, splits, rfl⟩ := exists_splits_of_scanFrom scanned
  exact fun token member => (splits.exists_place member).1

/-- Tokens are a program exactly if the parser reads it. -/
theorem Program.ofTokens_eq_ok {tokens : List Token} {program : Program} :
    Program.ofTokens tokens = .ok program ↔ Parser.program tokens = .ok program := by
  rw [Program.ofTokens]
  cases Parser.program tokens <;> simp

/-- The parser accepts exactly its grammar. The program that it finds in the tokens of a text is
derived from all of them in their order, where names may have any text; and every program that is
derived from words of the lexical classes with names that are no keywords is found in them. -/
theorem ofTokens_sound_and_complete :
    (∀ text tokens program, Token.scan text = .ok tokens → Program.ofTokens tokens = .ok program →
      IsProgram (fun _ => True) tokens program) ∧
    ∀ tokens program, (∀ token ∈ tokens, token.Shaped) →
      IsProgram (· ∉ keywords) tokens program → Program.ofTokens tokens = .ok program := by
  constructor
  · intro text tokens program scanned read
    exact Parser.program_isProgram (Token.allShaped_of_scan scanned)
      (Program.ofTokens_eq_ok.mp read)
  · intro tokens program shaped derives
    exact Program.ofTokens_eq_ok.mpr (Parser.program_of_isProgram derives shaped)

namespace Grammar

variable {permitted : String → Prop} {tokens : List Token} {value : Expr}

/-- A primary expression and the members selected from it are an operand of every level. -/
theorem Selection.operand (derives : Selection permitted tokens value) (level : Level) :
    Operand permitted level tokens value := by
  have product : Operand permitted .multiplicative tokens value := .selection rfl derives
  have sum : Operand permitted .additive tokens value := .chain rfl (.operand product)
  have comparison : Operand permitted .comparison tokens value := .chain rfl (.operand sum)
  cases level with
  | logical => exact .chain rfl (.operand comparison)
  | comparison => exact comparison
  | additive => exact sum
  | multiplicative => exact product

/-- A name is an operand of every level. -/
theorem IsName.operand {name : Token} (named : IsName permitted name) (level : Level) :
    Operand permitted level [name] (.variable name.literal none none) :=
  (Selection.primary (.name named)).operand level

end Grammar

/-- A program with a field, whose value has a group in it, and a method, which behind a blank
semicolon chooses between a call and a result. -/
def choosingText : String :=
  "LET x: Integer = (1 + y) * 3; " ++
    "DEF f(y: Integer): Integer DO ; IF x < y DO print(x, y); ELSE RETURN p.x; END END"

/-- The tokens of the program up to the end of the field. -/
def choosingFront : List Token :=
  [⟨.identifier, "LET", 0⟩, ⟨.identifier, "x", 4⟩, ⟨.operator, ":", 5⟩, ⟨.identifier, "Integer", 7⟩,
    ⟨.operator, "=", 15⟩, ⟨.operator, "(", 17⟩, ⟨.integer, "1", 18⟩, ⟨.operator, "+", 20⟩,
    ⟨.identifier, "y", 22⟩, ⟨.operator, ")", 23⟩, ⟨.operator, "*", 25⟩, ⟨.integer, "3", 27⟩,
    ⟨.operator, ";", 28⟩]

/-- The tokens of the program from the beginning of the method. -/
def choosingBack : List Token :=
  [⟨.identifier, "DEF", 30⟩, ⟨.identifier, "f", 34⟩, ⟨.operator, "(", 35⟩, ⟨.identifier, "y", 36⟩,
    ⟨.operator, ":", 37⟩, ⟨.identifier, "Integer", 39⟩, ⟨.operator, ")", 46⟩, ⟨.operator, ":", 47⟩,
    ⟨.identifier, "Integer", 49⟩, ⟨.identifier, "DO", 57⟩, ⟨.operator, ";", 60⟩,
    ⟨.identifier, "IF", 62⟩, ⟨.identifier, "x", 65⟩, ⟨.operator, "<", 67⟩, ⟨.identifier, "y", 69⟩,
    ⟨.identifier, "DO", 71⟩, ⟨.identifier, "print", 74⟩, ⟨.operator, "(", 79⟩,
    ⟨.identifier, "x", 80⟩, ⟨.operator, ",", 81⟩, ⟨.identifier, "y", 83⟩, ⟨.operator, ")", 84⟩,
    ⟨.operator, ";", 85⟩, ⟨.identifier, "ELSE", 87⟩, ⟨.identifier, "RETURN", 92⟩,
    ⟨.identifier, "p", 99⟩, ⟨.operator, ".", 100⟩, ⟨.identifier, "x", 101⟩, ⟨.operator, ";", 102⟩,
    ⟨.identifier, "END", 104⟩, ⟨.identifier, "END", 108⟩]

/-- The field of the program. -/
def choosingField : Field :=
  ⟨"x", "Integer", some (.binary .mul (.group (.binary .add (.literal (.integer 1) none)
    (.variable "y" none none) none) none) (.literal (.integer 3) none) none), none⟩

/-- The method of the program. -/
def choosingMethod : Method :=
  ⟨"f", [⟨"y", "Integer"⟩], some "Integer",
    [.conditional (.binary .less (.variable "x" none none) (.variable "y" none none) none)
      [.expression (.call "print" [.variable "x" none none, .variable "y" none none] none none)]
      [.result (.member (.variable "p" none none) "x" none none)]], none⟩

/-- The field is derived from the first tokens. -/
theorem choosingField_derives : IsField unreserved choosingFront choosingField := by
  have one : Token.Denotes ⟨.integer, "1", 18⟩ (.integer 1) :=
    @Token.Denotes.integer _ [] ['1'] rfl (.inl rfl)
      ⟨List.cons_ne_nil _ _, List.forall_mem_singleton.mpr rfl⟩ rfl
  have three : Token.Denotes ⟨.integer, "3", 27⟩ (.integer 3) :=
    @Token.Denotes.integer _ [] ['3'] rfl (.inl rfl)
      ⟨List.cons_ne_nil _ _, List.forall_mem_singleton.mpr rfl⟩ rfl
  have added : IsName unreserved ⟨.identifier, "y", 22⟩ := ⟨rfl, by decide⟩
  have sum : Chain unreserved .additive
      ([⟨.integer, "1", 18⟩] ++ ⟨.operator, "+", 20⟩ :: [⟨.identifier, "y", 22⟩]) _ :=
    .operator (.operand ((Selection.primary (.literal one)).operand _))
      (by decide : BinaryOp.add ∈ Level.operators .additive) rfl (added.operand _)
  have group : Selection unreserved
      (⟨.operator, "(", 17⟩ :: ([⟨.integer, "1", 18⟩, ⟨.operator, "+", 20⟩,
        ⟨.identifier, "y", 22⟩] ++ [⟨.operator, ")", 23⟩])) _ :=
    .primary (.group rfl (.operand (.chain rfl (.operand (.chain rfl sum)))) rfl)
  have product : Chain unreserved .multiplicative
      ([⟨.operator, "(", 17⟩, ⟨.integer, "1", 18⟩, ⟨.operator, "+", 20⟩, ⟨.identifier, "y", 22⟩,
        ⟨.operator, ")", 23⟩] ++ ⟨.operator, "*", 25⟩ :: [⟨.integer, "3", 27⟩]) _ :=
    .operator (.operand (group.operand _))
      (by decide : BinaryOp.mul ∈ Level.operators .multiplicative) rfl
      ((Selection.primary (.literal three)).operand _)
  have value : Expression unreserved ((choosingFront.drop 5).take 7) _ :=
    .operand (.chain rfl (.operand (.chain rfl (.operand (.chain rfl product)))))
  exact .mk rfl ⟨rfl, by decide⟩ rfl ⟨rfl, by decide⟩ (.some rfl value) rfl

/-- The method is derived from the other tokens. -/
theorem choosingMethod_derives : IsMethod unreserved choosingBack choosingMethod := by
  have less : Chain unreserved .comparison
      ([⟨.identifier, "x", 65⟩] ++ ⟨.operator, "<", 67⟩ :: [⟨.identifier, "y", 69⟩]) _ :=
    .operator (.operand (IsName.operand ⟨rfl, by decide⟩ _))
      (by decide : BinaryOp.less ∈ Level.operators .comparison) rfl
      (IsName.operand ⟨rfl, by decide⟩ _)
  have arguments : Arguments unreserved
      (([⟨.identifier, "x", 80⟩] ++ ⟨.operator, ",", 81⟩ :: [⟨.identifier, "y", 83⟩]) ++
        [⟨.operator, ")", 84⟩]) _ :=
    .some (.more (.operand (IsName.operand ⟨rfl, by decide⟩ _)) rfl
      (.one (.operand (IsName.operand ⟨rfl, by decide⟩ _)))) rfl
  have call : Block unreserved ((choosingBack.drop 16).take 7) _ :=
    .cons (.expression (.operand
      ((Selection.primary (.call ⟨rfl, by decide⟩ rfl arguments)).operand _)) rfl) .nil
  have selected : Selection unreserved
      ([⟨.identifier, "p", 99⟩] ++ [⟨.operator, ".", 100⟩, ⟨.identifier, "x", 101⟩]) _ :=
    .member (.primary (.name ⟨rfl, by decide⟩)) rfl ⟨rfl, by decide⟩
  have result : Block unreserved ((choosingBack.drop 24).take 5) _ :=
    .cons (.result rfl (.operand (selected.operand _)) rfl) .nil
  have choice : Statement unreserved ((choosingBack.drop 11).take 19) _ :=
    .alternative rfl (.operand (.chain rfl less)) rfl call rfl result rfl
  have body : Block unreserved ((choosingBack.drop 10).take 20) _ :=
    .blank rfl (.cons choice .nil)
  have accepts : Parameters unreserved ((choosingBack.drop 3).take 4) _ :=
    .some (.one ⟨rfl, by decide⟩ rfl ⟨rfl, by decide⟩) rfl
  exact .mk rfl ⟨rfl, by decide⟩ rfl accepts (.some rfl ⟨rfl, by decide⟩) rfl body rfl

/-- The program with a field and a method is derived from the tokens of its text, and read from
them. -/
theorem ofTokens_sound_and_complete_choice :
    Token.scan choosingText = .ok (choosingFront ++ choosingBack) ∧
      IsProgram (· ∉ keywords) (choosingFront ++ choosingBack) ⟨[choosingField], [choosingMethod]⟩ ∧
      Program.ofTokens (choosingFront ++ choosingBack) =
        .ok ⟨[choosingField], [choosingMethod]⟩ ∧
      IsProgram (fun _ => True) (choosingFront ++ choosingBack)
        ⟨[choosingField], [choosingMethod]⟩ := by
  have scanned : Token.scan choosingText = .ok (choosingFront ++ choosingBack) :=
    Token.scan_of_toOption (by decide +kernel)
  have derives : IsProgram (· ∉ keywords) (choosingFront ++ choosingBack)
      ⟨[choosingField], [choosingMethod]⟩ :=
    .mk (.cons choosingField_derives .nil) (.cons choosingMethod_derives .nil)
  have read := ofTokens_sound_and_complete.2 _ _ (Token.allShaped_of_scan scanned) derives
  exact ⟨scanned, derives, read, ofTokens_sound_and_complete.1 _ _ _ scanned read⟩

end LetDef
