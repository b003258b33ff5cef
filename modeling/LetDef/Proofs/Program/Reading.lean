import LetDef.Program.Parser

/-!
# What the readers give

`Parser.Gives` says that a reader succeeds with a construct and some tokens that are left. For each
reader there is one equivalence that says from what parts it gives a construct; the order of the
parts, the texts between them and the tokens that are only looked at are all in it.
-/
namespace LetDef.Parser

variable {α β : Type} {bound fewer : Nat} {value : α} {rest tokens : List Token}

/-- A construct is read, and these tokens are left. -/
def Gives (result : Parse α bound) (value : α) (rest : List Token) : Prop :=
  ∃ within, result = .ok ⟨value, rest, within⟩

/-- What is left is less than the bound says. -/
theorem Gives.length_lt {result : Parse α bound} (given : Gives result value rest) :
    rest.length < bound :=
  given.choose

/-- The first token has the text `literal`. -/
def Starts (literal : String) (tokens : List Token) : Prop :=
  ∃ token later, tokens = token :: later ∧ token.literal = literal

/-- What is given at once. -/
theorem gives_ok {found : α} {left : List Token} {within : left.length < bound} :
    Gives (.ok ⟨found, left, within⟩) value rest ↔ found = value ∧ left = rest := by
  simp only [Gives, Except.ok.injEq, Parsed.mk.injEq, exists_prop]
  constructor
  · exact fun given => given.2
  · rintro ⟨rfl, rfl⟩
    exact ⟨within, rfl, rfl⟩

/-- A failure gives nothing. -/
theorem gives_error {failure : ParseFailure} :
    ¬ Gives (.error failure : Parse α bound) value rest := by
  rintro ⟨within, same⟩
  contradiction

/-- What is given by a step and the steps after it, which do not depend on how few tokens the first
leaves. -/
theorem gives_bind {first : Parse β fewer} {next : Parsed β fewer → Parse α bound}
    {After : β → List Token → Prop} (after : ∀ found left within,
      Gives (next ⟨found, left, within⟩) value rest ↔ After found left) :
    Gives (first >>= next) value rest ↔
      ∃ found left, Gives first found left ∧ After found left := by
  cases first with
  | error failure => simp [Gives, bind, Except.bind]
  | ok parsed =>
    obtain ⟨found, left, within⟩ := parsed
    constructor
    · exact fun given => ⟨found, left, ⟨within, rfl⟩, (after found left within).mp given⟩
    · rintro ⟨_, _, ⟨_, same⟩, given⟩
      injection same with same
      cases same
      exact (after found left within).mpr given

/-- What is given by a step that only the end follows. -/
theorem gives_bind_ok {first : Parse β fewer} {next : Parsed β fewer → Parse α bound} {make : β → α}
    (after : ∀ found left within, Gives (next ⟨found, left, within⟩) value rest ↔
      make found = value ∧ left = rest) :
    Gives (first >>= next) value rest ↔ ∃ found, Gives first found rest ∧ make found = value := by
  rw [gives_bind after]
  constructor
  · rintro ⟨found, _, given, same, rfl⟩
    exact ⟨found, given, same⟩
  · rintro ⟨found, given, same⟩
    exact ⟨found, rest, given, same, rfl⟩

/-- What is given by a step whose construct is passed on. -/
theorem gives_bind_same {first : Parse α fewer} {next : Parsed α fewer → Parse α bound}
    (after : ∀ found left within, Gives (next ⟨found, left, within⟩) value rest ↔
      found = value ∧ left = rest) :
    Gives (first >>= next) value rest ↔ Gives first value rest := by
  simpa using gives_bind_ok after

section Texts

variable {literal : String} {token : Token} {later : List Token}

/-- A text is in front of a token. -/
theorem starts_cons : Starts literal (token :: later) ↔ token.literal = literal := by
  simp [Starts]

/-- Nothing is in front where no token is. -/
theorem not_starts_nil : ¬ Starts literal [] := by
  rintro ⟨_, _, same, _⟩
  contradiction

/-- A text that is in front is found there. -/
theorem after?_cons (reads : token.literal = literal) :
    after? literal (token :: later) = some ⟨(), later, Nat.lt_succ_self _⟩ := by
  rw [after?, Token.reads, if_pos (decide_eq_true reads)]

/-- A text that is not in front is not found. -/
theorem after?_eq_none (stops : ¬ Starts literal tokens) : after? literal tokens = none := by
  cases tokens with
  | nil => rfl
  | cons token later =>
    rw [starts_cons] at stops
    rw [after?, Token.reads, if_neg (by simpa using stops)]

/-- A text is given if the first token has it. -/
theorem gives_expect {what : Expectation} {value : Unit} :
    Gives (expect literal what tokens) value rest ↔
      ∃ token, tokens = token :: rest ∧ token.literal = literal := by
  by_cases starts : Starts literal tokens
  · obtain ⟨token, later, rfl, reads⟩ := starts
    simp only [expect, after?_cons reads, gives_ok, true_and, List.cons.injEq]
    constructor
    · rintro rfl
      exact ⟨token, ⟨rfl, rfl⟩, reads⟩
    · rintro ⟨_, ⟨_, same⟩, _⟩
      exact same
  · simp only [expect, after?_eq_none starts, missing, gives_error, false_iff]
    rintro ⟨token, same, reads⟩
    exact starts ⟨token, rest, same, reads⟩

/-- The token can be read as a name. -/
structure IsNamed (token : Token) : Prop where
  /-- It is an identifier. -/
  kind : token.kind = .identifier
  /-- It begins with no digit. -/
  solid : startsWithDigit token.literal = false

/-- What is given by a name: its text. -/
theorem gives_name {what : Expectation} {text : String} :
    Gives (name what tokens) text rest ↔
      ∃ token, tokens = token :: rest ∧ IsNamed token ∧ token.literal = text := by
  cases tokens with
  | nil => simp [name, missing, gives_error]
  | cons token later =>
    rw [name]
    constructor
    · intro given
      split at given
      next => exact absurd given gives_error
      next kind =>
        split at given
        next => exact absurd given gives_error
        next solid =>
          obtain ⟨rfl, rfl⟩ := gives_ok.mp given
          exact ⟨token, rfl, ⟨Decidable.not_not.mp kind, Bool.not_eq_true _ ▸ solid⟩, rfl⟩
    · rintro ⟨_, same, named, rfl⟩
      injection same with same behind
      subst same behind
      rw [if_neg (not_not_intro named.kind), if_neg (by simp [named.solid])]
      exact gives_ok.mpr ⟨rfl, rfl⟩

/-- What is given by a text and the steps after it. -/
theorem gives_expect_bind {what : Expectation} {next : Parsed Unit tokens.length → Parse α bound}
    (After : List Token → Prop)
    (after : ∀ left within, Gives (next ⟨(), left, within⟩) value rest ↔ After left) :
    Gives (expect literal what tokens >>= next) value rest ↔
      ∃ token left, tokens = token :: left ∧ token.literal = literal ∧ After left := by
  rw [gives_bind fun _ => after]
  simp only [gives_expect]
  constructor
  · rintro ⟨_, left, ⟨token, whole, reads⟩, given⟩
    exact ⟨token, left, whole, reads, given⟩
  · rintro ⟨token, left, whole, reads, given⟩
    exact ⟨(), left, ⟨token, whole, reads⟩, given⟩

/-- What is given by a list behind its first member: nothing more if a parenthesis closes it, and
others if a comma follows. -/
theorem gives_listed {result : Parse (List α) bound} {first : α} {values : List α}
    {behind : List Token} {next : (tokens : List Token) → Parse (List α) tokens.length}
    (more : ∀ comma later, behind = comma :: later → comma.literal = "," →
      (Gives result values rest ↔ ∃ others, Gives (next later) others rest ∧
        first :: others = values))
    (last : ¬ Starts "," behind → (Gives result values rest ↔
      ∃ closing later, behind = closing :: later ∧ closing.literal = ")" ∧ [first] = values ∧
        later = rest)) :
    Gives result values rest ↔ ∃ sign later, behind = sign :: later ∧
      ((sign.literal = ")" ∧ [first] = values ∧ later = rest) ∨
        (sign.literal = "," ∧ ∃ others, Gives (next later) others rest ∧
          first :: others = values)) := by
  -- The reader looks for the comma alone and takes everything else for the end of the list.
  by_cases separated : Starts "," behind
  · obtain ⟨comma, later, rfl, marked⟩ := separated
    rw [more comma later rfl marked]
    constructor
    · intro given
      exact ⟨comma, later, rfl, .inr ⟨marked, given⟩⟩
    · rintro ⟨_, _, ⟨⟩, ⟨closed, _⟩ | ⟨_, given⟩⟩
      · rw [marked] at closed
        contradiction
      · exact given
  · rw [last separated]
    constructor
    · rintro ⟨closing, later, whole, closed, given⟩
      exact ⟨closing, later, whole, .inl ⟨closed, given⟩⟩
    · rintro ⟨sign, later, whole, ⟨closed, given⟩ | ⟨marked, _⟩⟩
      · exact ⟨sign, later, whole, closed, given⟩
      · exact absurd ⟨sign, later, whole, marked⟩ separated

/-- What is given by a name and the steps after it. -/
theorem gives_name_bind {what : Expectation} {next : Parsed String tokens.length → Parse α bound}
    (After : Token → List Token → Prop) (after : ∀ token left within,
      Gives (next ⟨token.literal, left, within⟩) value rest ↔ After token left) :
    Gives (name what tokens >>= next) value rest ↔
      ∃ token left, tokens = token :: left ∧ IsNamed token ∧ After token left := by
  have passed : ∀ text left within, Gives (next ⟨text, left, within⟩) value rest ↔
      ∃ within, Gives (next ⟨text, left, within⟩) value rest := fun _ _ within =>
    ⟨fun given => ⟨within, given⟩, fun given => given.choose_spec⟩
  rw [gives_bind passed]
  simp only [gives_name]
  constructor
  · rintro ⟨_, left, ⟨token, whole, named, rfl⟩, within, given⟩
    exact ⟨token, left, whole, named, (after token left within).mp given⟩
  · rintro ⟨token, left, rfl, named, given⟩
    exact ⟨token.literal, left, ⟨token, rfl, named, rfl⟩, Nat.lt_succ_self _,
      (after token left _).mpr given⟩

end Texts

section Expressions

variable {level : Level} {value left receiver : Expr} {values : List Expr} {token : Token}
  {later : List Token}

/-- What is given by a chain: an operand, and the operators behind it with theirs. -/
theorem gives_chain : Gives (chain level tokens) value rest ↔
    ∃ first between, Gives (operand level tokens) first between ∧
      Gives (chainAfter level first between) value rest := by
  rw [chain]
  exact gives_bind fun first between _ => gives_bind_same fun _ _ _ => gives_ok

/-- No operator of the level is in front. -/
def StopsAt (level : Level) (tokens : List Token) : Prop :=
  ∀ token ∈ tokens.head?, level.operator? token.literal = none

/-- Where no operator stops, one is in front. -/
theorem exists_of_not_stopsAt (goes : ¬ StopsAt level tokens) :
    ∃ sign later operator, tokens = sign :: later ∧
      level.operator? sign.literal = some operator := by
  cases tokens with
  | nil => simp [StopsAt] at goes
  | cons sign later =>
    obtain ⟨operator, found⟩ := Option.ne_none_iff_exists'.mp (by simpa [StopsAt] using goes)
    exact ⟨sign, later, operator, rfl, found⟩

/-- Where no operator of the level is in front, the chain ends. -/
theorem gives_chainAfter_of_stopsAt (stops : StopsAt level tokens) :
    Gives (chainAfter level left tokens) value rest ↔ left = value ∧ tokens = rest := by
  cases tokens with
  | nil => rw [chainAfter, gives_ok]
  | cons sign later =>
    have none : level.operator? sign.literal = none := stops sign rfl
    rw [chainAfter]
    simp only [none, gives_ok]

/-- Behind an operator comes its right operand, and the chain goes on from both. -/
theorem gives_chainAfter_cons {operator : BinaryOp}
    (found : level.operator? token.literal = some operator) :
    Gives (chainAfter level left (token :: later)) value rest ↔
      ∃ right between, Gives (operand level later) right between ∧
        Gives (chainAfter level (.binary operator left right none) between) value rest := by
  rw [chainAfter]
  simp only [found]
  exact gives_bind fun right between _ => gives_bind_same fun _ _ _ => gives_ok

/-- An operand is a chain of the next tighter level, if there is one. -/
theorem gives_operand_of_tighter {tighter : Level} (next : level.tighter? = some tighter) :
    Gives (operand level tokens) value rest ↔ Gives (chain tighter tokens) value rest := by
  rw [operand]
  split
  next found =>
    obtain rfl := Option.some.inj (next.symm.trans found)
    rfl
  next found =>
    rw [next] at found
    contradiction

/-- An operand of the tightest level is a selection. -/
theorem gives_operand_of_last (last : level.tighter? = none) :
    Gives (operand level tokens) value rest ↔ Gives (selection tokens) value rest := by
  rw [operand]
  split
  next found =>
    rw [last] at found
    contradiction
  next => rfl

/-- What is given by a selection: a primary expression and the members behind it. -/
theorem gives_selection : Gives (selection tokens) value rest ↔
    ∃ first between, Gives (primary tokens) first between ∧
      Gives (selectionAfter first between) value rest := by
  rw [selection]
  exact gives_bind fun first between _ => gives_bind_same fun _ _ _ => gives_ok

/-- Where no point is in front, no member is selected. -/
theorem gives_selectionAfter_of_not_starts (stops : ¬ Starts "." tokens) :
    Gives (selectionAfter receiver tokens) value rest ↔ receiver = value ∧ tokens = rest := by
  rw [selectionAfter]
  simp only [after?_eq_none stops, Parsed.untouched, gives_ok]

/-- What is given behind a point. The member is called if a parenthesis follows its name. -/
theorem gives_selectionAfter_cons (pointed : token.literal = ".") :
    Gives (selectionAfter receiver (token :: later)) value rest ↔
      ∃ name behind, later = name :: behind ∧ IsNamed name ∧
        ((¬ Starts "(" behind ∧
            Gives (selectionAfter (.member receiver name.literal none none) behind) value rest) ∨
          ∃ opening inside, behind = opening :: inside ∧ opening.literal = "(" ∧
            ∃ values outside, Gives (arguments inside) values outside ∧
              Gives (selectionAfter (.memberCall receiver name.literal values none none) outside)
                value rest) := by
  rw [selectionAfter]
  simp only [after?_cons pointed]
  refine gives_name_bind _ fun name behind _ => ?_
  by_cases called : Starts "(" behind
  · obtain ⟨opening, inside, rfl, opened⟩ := called
    simp only [after?_cons opened]
    constructor
    · intro given
      refine .inr ⟨opening, inside, rfl, opened, ?_⟩
      refine (gives_bind fun values outside _ => ?_).mp given
      exact gives_bind_same fun _ _ _ => gives_ok
    · rintro (⟨uncalled, _⟩ | ⟨_, _, same, _, given⟩)
      · exact absurd (starts_cons.mpr opened) uncalled
      · injection same with same behind
        subst same behind
        refine (gives_bind fun values outside _ => ?_).mpr given
        exact gives_bind_same fun _ _ _ => gives_ok
  · simp only [after?_eq_none called]
    constructor
    · intro given
      refine .inl ⟨called, (gives_bind_same ?_).mp given⟩
      exact fun _ _ _ => gives_ok
    · rintro (⟨_, given⟩ | ⟨opening, inside, same, opened, _⟩)
      · refine (gives_bind_same ?_).mpr given
        exact fun _ _ _ => gives_ok
      · exact absurd ⟨opening, inside, same, opened⟩ called

/-- What is given by a keyword that is a literal. -/
theorem gives_primary_of_keyword {found : Literal}
    (keyword : Literal.ofKeyword? token = some found) :
    Gives (primary (token :: later)) value rest ↔ .literal found none = value ∧ later = rest := by
  rw [primary]
  simp only [keyword, gives_ok]

/-- What is given by a token that is neither a name nor a sign: the literal that it is. -/
theorem gives_primary_of_literal (noKeyword : Literal.ofKeyword? token = none)
    (noName : token.kind ≠ .identifier) (noOperator : token.kind ≠ .operator) :
    Gives (primary (token :: later)) value rest ↔
      ∃ found, Literal.ofToken token = .ok (some found) ∧ .literal found none = value ∧
        later = rest := by
  rw [primary]
  simp only [noKeyword]
  cases read : Literal.ofToken token with
  | error fault => simp [gives_error]
  | ok found? =>
    cases found? with
    | some found => simp [gives_ok]
    | none =>
      rw [Literal.ofToken] at read
      split at read <;> (try split at read) <;> simp_all

/-- What is given by a name. It is called if a parenthesis follows. -/
theorem gives_primary_of_name (noKeyword : Literal.ofKeyword? token = none)
    (named : token.kind = .identifier) :
    Gives (primary (token :: later)) value rest ↔ startsWithDigit token.literal = false ∧
      ((¬ Starts "(" later ∧ .variable token.literal none none = value ∧ later = rest) ∨
        ∃ opening inside, later = opening :: inside ∧ opening.literal = "(" ∧
          ∃ values, Gives (arguments inside) values rest ∧
            .call token.literal values none none = value) := by
  have noLiteral : Literal.ofToken token = .ok none := by
    simp only [Literal.ofToken, named]
  rw [primary]
  simp only [noKeyword, noLiteral, named, if_true]
  cases digit : startsWithDigit token.literal with
  | true => simp [gives_error]
  | false =>
    by_cases called : Starts "(" later
    · obtain ⟨opening, inside, rfl, opened⟩ := called
      simp only [after?_cons opened]
      constructor
      · intro given
        refine ⟨trivial, .inr ⟨opening, inside, rfl, opened, (gives_bind_ok ?_).mp given⟩⟩
        exact fun _ _ _ => gives_ok
      · rintro ⟨_, ⟨uncalled, _⟩ | ⟨_, _, same, _, given⟩⟩
        · exact absurd (starts_cons.mpr opened) uncalled
        · injection same with same behind
          subst same behind
          refine (gives_bind_ok ?_).mpr given
          exact fun _ _ _ => gives_ok
    · simp only [after?_eq_none called]
      constructor
      · exact fun given => ⟨trivial, .inl ⟨called, gives_ok.mp given⟩⟩
      · rintro ⟨_, ⟨_, given⟩ | ⟨opening, inside, same, opened, _⟩⟩
        · exact gives_ok.mpr given
        · exact absurd ⟨opening, inside, same, opened⟩ called

/-- What is given by a sign: a group, if the sign opens one. -/
theorem gives_primary_of_operator (noKeyword : Literal.ofKeyword? token = none)
    (sign : token.kind = .operator) :
    Gives (primary (token :: later)) value rest ↔ token.literal = "(" ∧
      ∃ inner between, Gives (chain .logical later) inner between ∧
        ∃ closing behind, between = closing :: behind ∧ closing.literal = ")" ∧
          .group inner none = value ∧ behind = rest := by
  have noLiteral : Literal.ofToken token = .ok none := by
    simp only [Literal.ofToken, sign]
  have noName : token.kind ≠ .identifier := by
    simp [sign]
  rw [primary]
  simp only [noKeyword, noLiteral, noName, if_false, Token.reads]
  by_cases opened : token.literal = "("
  · simp only [opened, decide_true, if_true, true_and]
    exact gives_bind fun inner between _ => gives_expect_bind _ fun _ _ => gives_ok
  · simp [opened, missing, gives_error]

/-- Where no parenthesis closes the arguments at once, there is one or more. -/
theorem gives_arguments_of_not_starts (filled : ¬ Starts ")" tokens) :
    Gives (arguments tokens) values rest ↔ Gives (argumentsFrom tokens) values rest := by
  rw [arguments]
  simp only [after?_eq_none filled]

/-- Where a parenthesis closes the arguments at once, there is none. -/
theorem gives_arguments_cons (closed : token.literal = ")") :
    Gives (arguments (token :: later)) values rest ↔ [] = values ∧ later = rest := by
  rw [arguments]
  simp only [after?_cons closed, gives_ok]

/-- What is given by arguments: one, and others if a comma follows it. -/
theorem gives_argumentsFrom : Gives (argumentsFrom tokens) values rest ↔
    ∃ first behind, Gives (chain .logical tokens) first behind ∧
      ∃ sign later, behind = sign :: later ∧
        ((sign.literal = ")" ∧ [first] = values ∧ later = rest) ∨
          (sign.literal = "," ∧
            ∃ others, Gives (argumentsFrom later) others rest ∧ first :: others = values)) := by
  rw [argumentsFrom]
  refine gives_bind fun first behind _ => gives_listed ?_ fun separated => ?_
  · rintro comma later rfl separated
    simp only [after?_cons separated]
    exact gives_bind_ok fun _ _ _ => gives_ok
  · simp only [after?_eq_none separated]
    exact gives_expect_bind _ fun _ _ => gives_ok

end Expressions

section Statements

variable {token : Token} {later : List Token} {branch : Bool} {statement : Stmt}

/-- What is given by an optional expression. -/
theorem gives_expressionAfter {literal : String} {value : Option Expr} :
    Gives (expressionAfter literal tokens) value rest ↔
      (¬ Starts literal tokens ∧ none = value ∧ tokens = rest) ∨
        ∃ token later, tokens = token :: later ∧ token.literal = literal ∧
          ∃ found, Gives (expression later) found rest ∧ some found = value := by
  rw [expressionAfter]
  by_cases starts : Starts literal tokens
  · obtain ⟨token, later, rfl, reads⟩ := starts
    simp only [after?_cons reads]
    constructor
    · intro given
      refine .inr ⟨token, later, rfl, reads, (gives_bind_ok ?_).mp given⟩
      exact fun _ _ _ => gives_ok
    · rintro (⟨stops, _⟩ | ⟨_, _, same, _, given⟩)
      · exact absurd (starts_cons.mpr reads) stops
      · injection same with _ behind
        subst behind
        refine (gives_bind_ok ?_).mpr given
        exact fun _ _ _ => gives_ok
  · simp only [after?_eq_none starts, Parsed.untouched]
    constructor
    · exact fun given => .inl ⟨starts, gives_ok.mp given⟩
    · rintro (⟨_, given⟩ | ⟨token, later, same, reads, _⟩)
      · exact gives_ok.mpr given
      · exact absurd ⟨token, later, same, reads⟩ starts

/-- What is given by an optional type. -/
theorem gives_nameAfterColon {what : Expectation} {value : Option String} :
    Gives (nameAfterColon what tokens) value rest ↔
      (¬ Starts ":" tokens ∧ none = value ∧ tokens = rest) ∨
        ∃ colon name, tokens = colon :: name :: rest ∧ colon.literal = ":" ∧ IsNamed name ∧
          some name.literal = value := by
  rw [nameAfterColon]
  by_cases starts : Starts ":" tokens
  · obtain ⟨colon, later, rfl, marked⟩ := starts
    simp only [after?_cons marked]
    constructor
    · intro given
      obtain ⟨name, left, rfl, named, same, rfl⟩ :=
        (gives_name_bind (fun name left => some name.literal = value ∧ left = rest)
          fun _ _ _ => gives_ok).mp given
      exact .inr ⟨colon, name, rfl, marked, named, same⟩
    · rintro (⟨stops, _⟩ | ⟨_, name, same, _, named, found⟩)
      · exact absurd (starts_cons.mpr marked) stops
      · injection same with _ behind
        exact (gives_name_bind (fun name left => some name.literal = value ∧ left = rest)
          fun _ _ _ => gives_ok).mpr ⟨name, rest, behind, named, found, rfl⟩
  · simp only [after?_eq_none starts, Parsed.untouched]
    constructor
    · exact fun given => .inl ⟨starts, gives_ok.mp given⟩
    · rintro (⟨_, given⟩ | ⟨colon, name, same, marked, _⟩)
      · exact gives_ok.mpr given
      · exact absurd ⟨colon, name :: rest, same, marked⟩ starts

/-- What is given by a declaration: a name, then a type and a value if they are there. -/
theorem gives_declaration {value : Declaration} : Gives (declaration tokens) value rest ↔
    ∃ name behind, tokens = name :: behind ∧ IsNamed name ∧
      ∃ typeName typed, Gives (nameAfterColon .variableType behind) typeName typed ∧
        ∃ first given, Gives (expressionAfter "=" typed) first given ∧
          ∃ stop left, given = stop :: left ∧ stop.literal = ";" ∧
            ⟨name.literal, typeName, first, none⟩ = value ∧ left = rest := by
  rw [declaration]
  exact gives_name_bind _ fun _ _ _ => gives_bind fun _ _ _ => gives_bind fun _ _ _ =>
    gives_expect_bind _ fun _ _ => gives_ok

/-- What is given by a `RETURN` behind its word. -/
theorem gives_result : Gives (result tokens) statement rest ↔
    ∃ value behind, Gives (expression tokens) value behind ∧
      ∃ stop left, behind = stop :: left ∧ stop.literal = ";" ∧
        .result value = statement ∧ left = rest := by
  rw [result]
  exact gives_bind fun _ _ _ => gives_expect_bind _ fun _ _ => gives_ok

/-- What an expression makes behind which a value is assigned to it or not. -/
def assigned (target : Expr) : Option Expr → Stmt
  | some value => .assignment target value
  | none => .expression target

/-- What is given by an expression, to which a value is assigned or not. -/
theorem gives_expressionStatement : Gives (expressionStatement tokens) statement rest ↔
    ∃ target behind, Gives (expression tokens) target behind ∧
      ∃ value given, Gives (expressionAfter "=" behind) value given ∧
        ∃ stop left, given = stop :: left ∧ stop.literal = ";" ∧
          assigned target value = statement ∧ left = rest := by
  rw [expressionStatement]
  refine gives_bind fun target behind _ => gives_bind fun value given _ => ?_
  cases value with
  | some value => exact gives_expect_bind _ fun _ _ => gives_ok
  | none => exact gives_expect_bind _ fun _ _ => gives_ok

variable {found : List Stmt × Closing}

/-- A body ends with the word that closes it. -/
theorem gives_block_of_closing {closing : Closing}
    (ends : Closing.of? branch token = some closing) :
    Gives (block branch (token :: later)) found rest ↔ ([], closing) = found ∧ later = rest := by
  rw [block]
  simp only [ends, gives_ok]

/-- A blank semicolon is no statement of a body. -/
theorem gives_block_of_blank (goes : Closing.of? branch token = none)
    (blank : token.literal = ";") :
    Gives (block branch (token :: later)) found rest ↔ Gives (block branch later) found rest := by
  rw [block]
  simp only [goes, Token.reads, blank, decide_true, if_true]
  exact gives_bind_same fun _ _ _ => gives_ok

/-- Where a body does not end and no blank is in front, a statement is. -/
theorem gives_block_of_statement (goes : Closing.of? branch token = none)
    (filled : token.literal ≠ ";") :
    Gives (block branch (token :: later)) found rest ↔
      ∃ first between, Gives (Parser.statement (token :: later)) first between ∧
        ∃ others, Gives (block branch between) others rest ∧
          (first :: others.1, others.2) = found := by
  rw [block]
  simp only [goes, Token.reads, filled, decide_false, Bool.false_eq_true, if_false]
  refine gives_bind fun first between _ => gives_bind_ok ?_
  exact fun _ _ _ => gives_ok

/-- What is given by the other branch of a choice: nothing, if the choice is done. -/
theorem gives_alternative {closing : Closing} {statements : List Stmt} :
    Gives (alternative closing tokens) statements rest ↔
      (closing = .done ∧ [] = statements ∧ tokens = rest) ∨
        (closing = .otherwise ∧ ∃ found, Gives (block false tokens) found rest ∧
          found.1 = statements) := by
  cases closing with
  | done =>
    rw [alternative]
    simp [Parsed.untouched, gives_ok]
  | otherwise =>
    rw [alternative]
    simp only [reduceCtorEq, false_and, false_or, true_and]
    exact gives_bind_ok fun _ _ _ => gives_ok

/-- What is given by a statement that begins with `LET`. -/
theorem gives_statement_of_let (word : token.literal = "LET") :
    Gives (Parser.statement (token :: later)) statement rest ↔
      ∃ declared, Gives (declaration later) declared rest ∧ .declaration declared = statement := by
  rw [Parser.statement]
  simp only [Token.reads, word, decide_true, if_true]
  exact gives_bind_ok fun _ _ _ => gives_ok

/-- What is given by a statement that begins with `IF`. Its second branch depends on what
ends the first. -/
theorem gives_statement_of_if (word : token.literal = "IF") :
    Gives (Parser.statement (token :: later)) statement rest ↔
      ∃ condition tested, Gives (expression later) condition tested ∧
        ∃ opening inside, tested = opening :: inside ∧ opening.literal = "DO" ∧
          ∃ accepted behind, Gives (block true inside) accepted behind ∧
            ∃ rejected, Gives (alternative accepted.2 behind) rejected rest ∧
              .conditional condition accepted.1 rejected = statement := by
  rw [Parser.statement]
  simp only [Token.reads, word, String.reduceEq, decide_false, decide_true, Bool.false_eq_true,
    if_false, if_true]
  exact gives_bind fun _ _ _ => gives_expect_bind _ fun _ _ => gives_bind fun _ _ _ =>
    gives_bind_ok fun _ _ _ => gives_ok

/-- What is given by a statement that begins with `FOR`. -/
theorem gives_statement_of_for (word : token.literal = "FOR") :
    Gives (Parser.statement (token :: later)) statement rest ↔
      ∃ name behind, later = name :: behind ∧ IsNamed name ∧
        ∃ preposition looped, behind = preposition :: looped ∧ preposition.literal = "IN" ∧
          ∃ value tested, Gives (expression looped) value tested ∧
            ∃ opening inside, tested = opening :: inside ∧ opening.literal = "DO" ∧
              ∃ body, Gives (block false inside) body rest ∧
                .iteration name.literal value body.1 = statement := by
  rw [Parser.statement]
  simp only [Token.reads, word, String.reduceEq, decide_false, decide_true, Bool.false_eq_true,
    if_false, if_true]
  exact gives_name_bind _ fun _ _ _ => gives_expect_bind _ fun _ _ => gives_bind fun _ _ _ =>
    gives_expect_bind _ fun _ _ => gives_bind_ok fun _ _ _ => gives_ok

/-- What is given by a statement that begins with `WHILE`. -/
theorem gives_statement_of_while (word : token.literal = "WHILE") :
    Gives (Parser.statement (token :: later)) statement rest ↔
      ∃ condition tested, Gives (expression later) condition tested ∧
        ∃ opening inside, tested = opening :: inside ∧ opening.literal = "DO" ∧
          ∃ body, Gives (block false inside) body rest ∧
            .repetition condition body.1 = statement := by
  rw [Parser.statement]
  simp only [Token.reads, word, String.reduceEq, decide_false, decide_true, Bool.false_eq_true,
    if_false, if_true]
  exact gives_bind fun _ _ _ => gives_expect_bind _ fun _ _ => gives_bind_ok fun _ _ _ => gives_ok

/-- What is given by a statement that begins with `RETURN`. -/
theorem gives_statement_of_return (word : token.literal = "RETURN") :
    Gives (Parser.statement (token :: later)) statement rest ↔
      Gives (result later) statement rest := by
  rw [Parser.statement]
  simp only [Token.reads, word, String.reduceEq, decide_false, decide_true, Bool.false_eq_true,
    if_false, if_true]
  exact gives_bind_same fun _ _ _ => gives_ok

/-- The words that statements begin with, expressions apart. -/
def statementWords : List String :=
  ["LET", "IF", "FOR", "WHILE", "RETURN"]

/-- A statement that begins with none of these words is an expression or an assignment. -/
theorem gives_statement_of_expression (other : token.literal ∉ statementWords) :
    Gives (Parser.statement (token :: later)) statement rest ↔
      Gives (expressionStatement (token :: later)) statement rest := by
  simp only [statementWords, List.mem_cons, List.not_mem_nil, or_false, not_or] at other
  rw [Parser.statement]
  simp only [Token.reads, other, decide_false, Bool.false_eq_true, if_false]

end Statements

section Programs

variable {token : Token} {later : List Token}

/-- What is given by a field behind its word: a name, a type, and a value if it is there. -/
theorem gives_field {found : Field} : Gives (field tokens) found rest ↔
    ∃ name behind, tokens = name :: behind ∧ IsNamed name ∧
      ∃ colon named, behind = colon :: named ∧ colon.literal = ":" ∧
        ∃ type typed, named = type :: typed ∧ IsNamed type ∧
          ∃ first given, Gives (expressionAfter "=" typed) first given ∧
            ∃ stop left, given = stop :: left ∧ stop.literal = ";" ∧
              ⟨name.literal, type.literal, first, none⟩ = found ∧ left = rest := by
  rw [field]
  exact gives_name_bind _ fun _ _ _ => gives_expect_bind _ fun _ _ => gives_name_bind _ fun _ _ _ =>
    gives_bind fun _ _ _ => gives_expect_bind _ fun _ _ => gives_ok

/-- What is given by parameters: one, and others if a comma follows it. -/
theorem gives_parametersFrom {found : List Parameter} : Gives (parametersFrom tokens) found rest ↔
    ∃ name behind, tokens = name :: behind ∧ IsNamed name ∧
      ∃ colon named, behind = colon :: named ∧ colon.literal = ":" ∧
        ∃ type typed, named = type :: typed ∧ IsNamed type ∧
          ∃ sign later, typed = sign :: later ∧
            ((sign.literal = ")" ∧ [⟨name.literal, type.literal⟩] = found ∧ later = rest) ∨
              (sign.literal = "," ∧ ∃ others, Gives (parametersFrom later) others rest ∧
                ⟨name.literal, type.literal⟩ :: others = found)) := by
  rw [parametersFrom]
  refine gives_name_bind _ fun name _ _ => gives_expect_bind _ fun _ _ =>
    gives_name_bind _ fun type typed _ => gives_listed ?_ fun separated => ?_
  · rintro comma later rfl separated
    simp only [after?_cons separated]
    exact gives_bind_ok fun _ _ _ => gives_ok
  · simp only [after?_eq_none separated]
    exact gives_expect_bind _ fun _ _ => gives_ok

/-- Where no parenthesis closes the parameters at once, there is one or more. -/
theorem gives_parameters_of_not_starts {found : List Parameter} (filled : ¬ Starts ")" tokens) :
    Gives (parameters tokens) found rest ↔ Gives (parametersFrom tokens) found rest := by
  rw [parameters]
  simp only [after?_eq_none filled]

/-- Where a parenthesis closes the parameters at once, there is none. -/
theorem gives_parameters_cons {found : List Parameter} (closed : token.literal = ")") :
    Gives (parameters (token :: later)) found rest ↔ [] = found ∧ later = rest := by
  rw [parameters]
  simp only [after?_cons closed, gives_ok]

/-- What is given by a method behind its word: a name, parameters, a type if it is there, and a
body. -/
theorem gives_method {found : Method} : Gives (method tokens) found rest ↔
    ∃ name behind, tokens = name :: behind ∧ IsNamed name ∧
      ∃ opening listed, behind = opening :: listed ∧ opening.literal = "(" ∧
        ∃ accepts marked, Gives (parameters listed) accepts marked ∧
          ∃ typeName typed, Gives (nameAfterColon .returnType marked) typeName typed ∧
            ∃ beginning inside, typed = beginning :: inside ∧ beginning.literal = "DO" ∧
              ∃ body, Gives (block false inside) body rest ∧
                ⟨name.literal, accepts, typeName, body.1, none⟩ = found := by
  rw [method]
  exact gives_name_bind _ fun _ _ _ => gives_expect_bind _ fun _ _ => gives_bind fun _ _ _ =>
    gives_bind fun _ _ _ => gives_expect_bind _ fun _ _ => gives_bind_ok fun _ _ _ => gives_ok

/-- Where no `LET` is in front, there is no field. -/
theorem gives_fields_of_not_starts {found : List Field} (stops : ¬ Starts "LET" tokens) :
    Gives (fields tokens) found rest ↔ [] = found ∧ tokens = rest := by
  rw [fields]
  simp only [after?_eq_none stops, Parsed.untouched, gives_ok]

/-- Behind a `LET` come a field and those after it. -/
theorem gives_fields_cons {found : List Field} (word : token.literal = "LET") :
    Gives (fields (token :: later)) found rest ↔
      ∃ first between, Gives (field later) first between ∧
        ∃ others, Gives (fields between) others rest ∧ first :: others = found := by
  rw [fields]
  simp only [after?_cons word]
  refine gives_bind fun first between _ => gives_bind_ok ?_
  exact fun _ _ _ => gives_ok

/-- Where no `DEF` is in front, there is no method. -/
theorem gives_methods_of_not_starts {found : List Method} (stops : ¬ Starts "DEF" tokens) :
    Gives (methods tokens) found rest ↔ [] = found ∧ tokens = rest := by
  rw [methods]
  simp only [after?_eq_none stops, Parsed.untouched, gives_ok]

/-- Behind a `DEF` come a method and those after it. -/
theorem gives_methods_cons {found : List Method} (word : token.literal = "DEF") :
    Gives (methods (token :: later)) found rest ↔
      ∃ first between, Gives (method later) first between ∧
        ∃ others, Gives (methods between) others rest ∧ first :: others = found := by
  rw [methods]
  simp only [after?_cons word]
  refine gives_bind fun first between _ => gives_bind_ok ?_
  exact fun _ _ _ => gives_ok

/-- A program is its fields and its methods, with no token behind them. -/
theorem program_eq_ok {found : Program} : program tokens = .ok found ↔
    ∃ between, Gives (fields tokens) found.fields between ∧
      Gives (methods between) found.methods [] := by
  rw [program]
  constructor
  · intro read
    cases readFields : fields tokens with
    | error failure =>
      rw [readFields] at read
      contradiction
    | ok first =>
      obtain ⟨fields, between, within⟩ := first
      cases readMethods : methods between with
      | error failure =>
        simp [readFields, readMethods, bind, Except.bind] at read
      | ok second =>
        obtain ⟨methods, left, fewer⟩ := second
        cases left with
        | nil =>
          simp only [readFields, readMethods, bind, Except.bind, Except.ok.injEq] at read
          subst read
          exact ⟨between, ⟨within, rfl⟩, ⟨fewer, readMethods⟩⟩
        | cons => simp [readFields, readMethods, bind, Except.bind, missing] at read
  · rintro ⟨between, ⟨_, readFields⟩, ⟨_, readMethods⟩⟩
    simp [readFields, readMethods, bind, Except.bind]

end Programs

end LetDef.Parser
