import LetDef.Compilation
import LetDef.Proofs.Program.Expressions

/-!
# The levels of operators in programs

The operators of a program bind as their levels say. What is read as an operand of a level has no
operator outside of groups but of tighter levels; only the left operand may have one of the level
itself, since a chain is grouped from the left. `Expr.Ranked` says so of an expression and of all
those in it, and every expression that the parser reads is ranked (`Program.ranked_of_ofText`).
-/
namespace LetDef

/-- The level of an operator. -/
def BinaryOp.level : BinaryOp → Level
  | .and | .or => .logical
  | .less | .lessEqual | .greater | .greaterEqual | .equal | .notEqual => .comparison
  | .add | .sub => .additive
  | .mul | .div => .multiplicative

/-- What a level finds is of that level. -/
theorem Level.level_of_operator? {level : Level} {literal : String} {operator : BinaryOp}
    (found : level.operator? literal = some operator) : operator.level = level := by
  have member := List.mem_of_find?_eq_some found
  cases level <;> simp only [operators, List.mem_cons, List.not_mem_nil, or_false] at member <;>
    rcases member with rfl | rfl | rfl | rfl | rfl | rfl <;> rfl

namespace Expr

/-- How many levels have to be passed, from the tightest on, until the expression can be read
without a group around it. -/
def looseness : Expr → Nat
  | .binary operator _ _ _ => operator.level.rank + 1
  | _ => 0

/-- The operands of the expression bind as tightly as its operator demands, and what it is selected
from binds most tightly. -/
def Levelled : Expr → Prop
  | .binary operator left right _ =>
    left.looseness ≤ operator.level.rank + 1 ∧ right.looseness ≤ operator.level.rank
  | .member receiver _ _ _ | .memberCall receiver _ _ _ _ => receiver.looseness = 0
  | _ => True

/-- Emptying slots moves no operators. -/
theorem looseness_erase (value : Expr) : value.erase.looseness = value.looseness := by
  cases value <;> rfl

/-- Emptying slots moves no operands. -/
theorem levelled_erase (value : Expr) : value.erase.Levelled ↔ value.Levelled := by
  cases value <;> simp only [erase, Levelled, looseness_erase]

/-- The expression passes no more than some levels, and all operators in it have operands that bind
tightly enough. -/
structure Ranked (value : Expr) (bound : Nat) : Prop where
  /-- It passes no more levels. -/
  loose : value.looseness ≤ bound
  /-- The operands bind tightly enough. -/
  levelled : ∀ part ∈ value.within, part.Levelled

namespace Ranked

variable {left right inner receiver : Expr} {bound fewer : Nat}

/-- More levels may be passed. -/
theorem mono (ranked : inner.Ranked fewer) (most : fewer ≤ bound) : inner.Ranked bound :=
  ⟨Nat.le_trans ranked.loose most, ranked.levelled⟩

/-- A group passes no level. -/
theorem group {type : Option Ty} (ranked : inner.Ranked bound) :
    (Expr.group inner type).Ranked 0 := by
  constructor
  · exact Nat.le_refl 0
  · intro part member
    rw [within, List.mem_cons] at member
    rcases member with rfl | member
    · trivial
    · exact ranked.levelled part member

/-- An operator passes its level, if its operands do not pass more. -/
theorem binary {operator : BinaryOp} {type : Option Ty}
    (first : left.Ranked (operator.level.rank + 1)) (second : right.Ranked operator.level.rank) :
    (Expr.binary operator left right type).Ranked (operator.level.rank + 1) := by
  constructor
  · exact Nat.le_refl _
  · intro part member
    rw [within, List.mem_cons, List.mem_append] at member
    rcases member with rfl | member | member
    · exact ⟨first.loose, second.loose⟩
    · exact first.levelled part member
    · exact second.levelled part member

/-- A field passes no level, if the object does not. -/
theorem member {name : String} {slot : Option Variable} {type : Option Ty}
    (object : receiver.Ranked 0) : (Expr.member receiver name slot type).Ranked 0 := by
  constructor
  · exact Nat.le_refl 0
  · intro part member
    rw [within, List.mem_cons] at member
    rcases member with rfl | member
    · exact Nat.le_zero.mp object.loose
    · exact object.levelled part member

/-- A call passes no level. -/
theorem call {name : String} {arguments : List Expr} {slot : Option Signature} {type : Option Ty}
    (ranked : ∀ argument ∈ arguments, argument.Ranked bound) :
    (Expr.call name arguments slot type).Ranked 0 := by
  constructor
  · exact Nat.le_refl 0
  · intro part member
    rw [within, List.mem_cons, mem_withinAll] at member
    rcases member with rfl | ⟨argument, listed, member⟩
    · trivial
    · exact (ranked argument listed).levelled part member

/-- A call of a method passes no level, if the object does not. -/
theorem memberCall {name : String} {arguments : List Expr} {slot : Option Signature}
    {type : Option Ty} (object : receiver.Ranked 0)
    (ranked : ∀ argument ∈ arguments, argument.Ranked bound) :
    (Expr.memberCall receiver name arguments slot type).Ranked 0 := by
  constructor
  · exact Nat.le_refl 0
  · intro part member
    rw [within, List.mem_cons, List.mem_append, mem_withinAll] at member
    rcases member with rfl | member | ⟨argument, listed, member⟩
    · exact Nat.le_zero.mp object.loose
    · exact object.levelled part member
    · exact (ranked argument listed).levelled part member

/-- A literal passes no level. -/
theorem literal (value : Literal) (type : Option Ty) : (Expr.literal value type).Ranked 0 := by
  constructor
  · exact Nat.le_refl 0
  · intro part member
    rw [within, List.mem_singleton] at member
    subst member
    trivial

/-- A name passes no level. -/
theorem name (name : String) (slot : Option Variable) (type : Option Ty) :
    (Expr.variable name slot type).Ranked 0 := by
  constructor
  · exact Nat.le_refl 0
  · intro part member
    rw [within, List.mem_singleton] at member
    subst member
    trivial

end Ranked

/-- Each of some expressions passes any levels, and has operands that bind tightly enough. -/
def RankedAll (values : List Expr) : Prop :=
  ∀ value ∈ values, value.Ranked (Level.logical.rank + 1)

namespace RankedAll

variable {values others : List Expr} {value : Expr}

/-- No expressions are ranked. -/
theorem nil : RankedAll [] :=
  fun _ member => absurd member List.not_mem_nil

/-- One expression more is ranked if it is. -/
theorem cons (first : value.Ranked (Level.logical.rank + 1)) (rest : RankedAll values) :
    RankedAll (value :: values) :=
  List.forall_mem_cons.mpr ⟨first, rest⟩

/-- Ranked expressions may follow others. -/
theorem append (first : RankedAll values) (second : RankedAll others) :
    RankedAll (values ++ others) :=
  List.forall_mem_append.mpr ⟨first, second⟩

/-- All expressions in ranked ones have operands that bind tightly enough. -/
theorem levelled (ranked : RankedAll values) : ∀ part ∈ values.flatMap within, part.Levelled := by
  intro part member
  obtain ⟨value, listed, member⟩ := List.mem_flatMap.mp member
  exact (ranked value listed).levelled part member

end RankedAll

end Expr

namespace Parser

/-- Steps succeed together exactly if the first does, and what follows with its result. -/
theorem bind_eq_ok {ε α β : Type} {first : Except ε α} {rest : α → Except ε β} {value : β} :
    first >>= rest = .ok value ↔ ∃ found, first = .ok found ∧ rest found = .ok value := by
  cases first with
  | error error => simp [bind, Except.bind]
  | ok found => simp [bind, Except.bind]

mutual

/-- A chain passes its own level at most. -/
theorem chain_ranked (level : Level) (tokens : List Token) {parsed : Parsed Expr tokens.length}
    (read : chain level tokens = .ok parsed) : parsed.value.Ranked (level.rank + 1) := by
  rw [chain] at read
  simp only [bind_eq_ok] at read
  obtain ⟨⟨first, rest, within⟩, readFirst, ⟨value, after, fewer⟩, readRest, same⟩ := read
  injection same with same
  subst same
  have ranked := operand_ranked level tokens readFirst
  exact chainAfter_ranked level first rest (ranked.mono (Nat.le_succ _)) readRest
  termination_by 16 * tokens.length + 2 * level.rank + 3

/-- The rest of a chain passes no level that the chain does not. -/
theorem chainAfter_ranked (level : Level) (left : Expr) (tokens : List Token)
    {parsed : Parsed Expr (tokens.length + 1)} (ranked : left.Ranked (level.rank + 1))
    (read : chainAfter level left tokens = .ok parsed) :
    parsed.value.Ranked (level.rank + 1) := by
  match tokens, parsed, read with
  | [], parsed, read =>
    rw [chainAfter] at read
    injection read with same
    subst same
    exact ranked
  | token :: rest, parsed, read =>
    rw [chainAfter] at read
    split at read
    · injection read with same
      subst same
      exact ranked
    · next operator found =>
      simp only [bind_eq_ok] at read
      obtain ⟨⟨right, later, within⟩, readRight, ⟨value, after, fewer⟩, readRest, same⟩ := read
      injection same with same
      subst same
      have second := operand_ranked level rest readRight
      rw [← Level.level_of_operator? found] at ranked second
      have whole : (Expr.binary operator left right none).Ranked (operator.level.rank + 1) :=
        ranked.binary second
      rw [Level.level_of_operator? found] at whole
      exact chainAfter_ranked level (.binary operator left right none) later whole readRest
  termination_by 16 * tokens.length
  decreasing_by
    · have := level.rank_le
      simp only [List.length_cons]
      omega
    · simp only [List.length_cons]
      omega

/-- An operand of a level passes tighter levels alone. -/
theorem operand_ranked (level : Level) (tokens : List Token) {parsed : Parsed Expr tokens.length}
    (read : operand level tokens = .ok parsed) : parsed.value.Ranked level.rank := by
  rw [operand] at read
  split at read
  · next tighter next =>
    have ranked := chain_ranked tighter tokens read
    exact ranked.mono (Level.rank_lt_of_tighter? next)
  · have ranked := selection_ranked tokens read
    exact ranked.mono (Nat.zero_le _)
  termination_by 16 * tokens.length + 2 * level.rank + 2
  decreasing_by
    · have := Level.rank_lt_of_tighter? ‹level.tighter? = some _›
      omega
    · omega

/-- A selection passes no level. -/
theorem selection_ranked (tokens : List Token) {parsed : Parsed Expr tokens.length}
    (read : selection tokens = .ok parsed) : parsed.value.Ranked 0 := by
  rw [selection] at read
  simp only [bind_eq_ok] at read
  obtain ⟨⟨first, rest, within⟩, readFirst, ⟨value, after, fewer⟩, readRest, same⟩ := read
  injection same with same
  subst same
  exact selectionAfter_ranked first rest (primary_ranked tokens readFirst) readRest
  termination_by 16 * tokens.length + 1

/-- What is selected from an expression that passes no level passes none either. -/
theorem selectionAfter_ranked (receiver : Expr) (tokens : List Token)
    {parsed : Parsed Expr (tokens.length + 1)} (ranked : receiver.Ranked 0)
    (read : selectionAfter receiver tokens = .ok parsed) : parsed.value.Ranked 0 := by
  rw [selectionAfter] at read
  split at read
  · injection read with same
    subst same
    exact ranked
  · next rest within _ =>
    simp only [bind_eq_ok] at read
    obtain ⟨⟨member, later, shorter⟩, readName, read⟩ := read
    dsimp only at read
    split at read
    · next inside opened _ =>
      simp only [bind_eq_ok] at read
      obtain ⟨⟨values, outside, closed⟩, readArguments, ⟨value, after, fewer⟩, readRest, same⟩ :=
        read
      injection same with same
      subst same
      have arguments := arguments_ranked inside readArguments
      exact selectionAfter_ranked _ outside (ranked.memberCall arguments) readRest
    · simp only [bind_eq_ok] at read
      obtain ⟨⟨value, after, fewer⟩, readRest, same⟩ := read
      injection same with same
      subst same
      exact selectionAfter_ranked _ later ranked.member readRest
  termination_by 16 * tokens.length

/-- A literal, a name, a call and a group pass no level. -/
theorem primary_ranked (tokens : List Token) {parsed : Parsed Expr tokens.length}
    (read : primary tokens = .ok parsed) : parsed.value.Ranked 0 := by
  match tokens, parsed, read with
  | [], parsed, read =>
    rw [primary] at read
    contradiction
  | token :: rest, parsed, read =>
    rw [primary] at read
    split at read
    · injection read with same
      subst same
      exact .literal _ none
    · split at read
      · contradiction
      · injection read with same
        subst same
        exact .literal _ none
      · split at read
        · split at read
          · contradiction
          · split at read
            · injection read with same
              subst same
              exact .name token.literal none none
            · next inside opened _ =>
              simp only [bind_eq_ok] at read
              obtain ⟨⟨values, outside, closed⟩, readArguments, same⟩ := read
              injection same with same
              subst same
              exact .call (arguments_ranked inside readArguments)
        · split at read
          · simp only [bind_eq_ok] at read
            obtain ⟨⟨inner, later, within⟩, readInner, _, _, same⟩ := read
            injection same with same
            subst same
            exact (chain_ranked .logical rest readInner).group
          · contradiction
  termination_by 16 * tokens.length
  decreasing_by all_goals (simp only [List.length_cons, Level.rank]; omega)

/-- Each argument of a call passes any levels. -/
theorem arguments_ranked (tokens : List Token) {parsed : Parsed (List Expr) tokens.length}
    (read : arguments tokens = .ok parsed) :
    Expr.RankedAll parsed.value := by
  rw [arguments] at read
  split at read
  · injection read with same
    subst same
    exact .nil
  · exact argumentsFrom_ranked tokens read
  termination_by 16 * tokens.length + 11

/-- Each of some arguments passes any levels. -/
theorem argumentsFrom_ranked (tokens : List Token) {parsed : Parsed (List Expr) tokens.length}
    (read : argumentsFrom tokens = .ok parsed) :
    Expr.RankedAll parsed.value := by
  rw [argumentsFrom] at read
  simp only [bind_eq_ok] at read
  obtain ⟨⟨first, rest, within⟩, readFirst, read⟩ := read
  have ranked := chain_ranked .logical tokens readFirst
  dsimp only at read
  split at read
  · next later shorter _ =>
    simp only [bind_eq_ok] at read
    obtain ⟨⟨values, after, fewer⟩, readRest, same⟩ := read
    injection same with same
    subst same
    have rankedRest := argumentsFrom_ranked later readRest
    exact .cons ranked rankedRest
  · simp only [bind_eq_ok] at read
    obtain ⟨_, _, same⟩ := read
    injection same with same
    subst same
    exact .cons ranked .nil
  termination_by 16 * tokens.length + 10
  decreasing_by
    · simp only [Level.rank]; omega
    · omega

end

/-- An expression passes any levels. -/
theorem expression_ranked {tokens : List Token} {parsed : Parsed Expr tokens.length}
    (read : expression tokens = .ok parsed) : parsed.value.Ranked (Level.logical.rank + 1) :=
  chain_ranked .logical tokens read

/-- An expression after a sign, if there is one, passes any levels. -/
theorem expressionAfter_ranked {literal : String} {tokens : List Token}
    {parsed : Parsed (Option Expr) (tokens.length + 1)}
    (read : expressionAfter literal tokens = .ok parsed) :
    Expr.RankedAll parsed.value.toList := by
  rw [expressionAfter] at read
  split at read
  · injection read with same
    subst same
    exact .nil
  · simp only [bind_eq_ok] at read
    obtain ⟨_, readValue, same⟩ := read
    injection same with same
    subst same
    exact .cons (expression_ranked readValue) .nil

/-- The expressions of a declaration are ranked. -/
theorem declaration_ranked {tokens : List Token} {parsed : Parsed Declaration tokens.length}
    (read : declaration tokens = .ok parsed) : Expr.RankedAll parsed.value.value.toList := by
  rw [declaration] at read
  simp only [bind_eq_ok] at read
  obtain ⟨_, _, _, _, _, readValue, _, _, same⟩ := read
  injection same with same
  subst same
  exact expressionAfter_ranked readValue

/-- The expressions of a `RETURN` statement are ranked. -/
theorem result_ranked {tokens : List Token} {parsed : Parsed Stmt tokens.length}
    (read : result tokens = .ok parsed) : Expr.RankedAll parsed.value.outermost := by
  rw [result] at read
  simp only [bind_eq_ok] at read
  obtain ⟨_, readValue, _, _, same⟩ := read
  injection same with same
  subst same
  exact .cons (expression_ranked readValue) .nil

/-- The expressions of a statement that starts with one are ranked. -/
theorem expressionStatement_ranked {tokens : List Token} {parsed : Parsed Stmt tokens.length}
    (read : expressionStatement tokens = .ok parsed) :
    Expr.RankedAll parsed.value.outermost := by
  rw [expressionStatement] at read
  simp only [bind_eq_ok] at read
  obtain ⟨⟨target, rest, within⟩, readTarget, ⟨value, after, shorter⟩, readValue, read⟩ := read
  have first := expression_ranked readTarget
  have second := expressionAfter_ranked readValue
  dsimp only at read
  split at read
  all_goals
    simp only [bind_eq_ok] at read
    obtain ⟨_, _, same⟩ := read
    injection same with same
    subst same
    exact .cons first second

mutual

/-- The expressions of a body are ranked. -/
theorem block_ranked (branch : Bool) (tokens : List Token)
    {parsed : Parsed (List Stmt × Closing) tokens.length}
    (read : block branch tokens = .ok parsed) :
    Expr.RankedAll (Stmt.outermostAll parsed.value.1) := by
  match tokens, parsed, read with
  | [], parsed, read =>
    rw [block] at read
    contradiction
  | token :: rest, parsed, read =>
    rw [block] at read
    split at read
    · injection read with same
      subst same
      exact .nil
    · split at read
      · simp only [bind_eq_ok] at read
        obtain ⟨⟨found, after, within⟩, readRest, same⟩ := read
        injection same with same
        subst same
        exact block_ranked branch rest readRest
      · simp only [bind_eq_ok] at read
        obtain ⟨⟨first, later, within⟩, readFirst, ⟨⟨others, closing⟩, after, shorter⟩, readRest,
          same⟩ := read
        injection same with same
        subst same
        have ranked := statement_ranked (token :: rest) readFirst
        have fewer : later.length < rest.length + 1 := within
        exact ranked.append (block_ranked branch later readRest)
  termination_by 4 * tokens.length + 1
  decreasing_by all_goals (simp only [List.length_cons]; omega)

/-- The expressions of a statement are ranked. -/
theorem statement_ranked (tokens : List Token) {parsed : Parsed Stmt tokens.length}
    (read : statement tokens = .ok parsed) : Expr.RankedAll parsed.value.outermost := by
  match tokens, parsed, read with
  | [], parsed, read =>
    rw [statement] at read
    exact expressionStatement_ranked read
  | token :: rest, parsed, read =>
    rw [statement] at read
    split at read
    · simp only [bind_eq_ok] at read
      obtain ⟨_, readDeclared, same⟩ := read
      injection same with same
      subst same
      exact declaration_ranked readDeclared
    split at read
    · simp only [bind_eq_ok] at read
      obtain ⟨⟨condition, begun, within⟩, readCondition, ⟨_, entered, inside⟩, _,
        ⟨⟨accepted, closing⟩, left, shorter⟩, readAccepted, ⟨rejected, after, fewer⟩, readRejected,
        same⟩ := read
      injection same with same
      subst same
      have fewerEntered : entered.length < rest.length := Nat.lt_trans inside within
      have fewerLeft : left.length < rest.length := Nat.lt_trans shorter fewerEntered
      have yes := block_ranked true entered readAccepted
      have no := alternative_ranked closing left readRejected
      exact .cons (expression_ranked readCondition) (yes.append no)
    split at read
    · simp only [bind_eq_ok] at read
      obtain ⟨⟨name, named, known⟩, _, ⟨_, placed, behind⟩, _, ⟨value, begun, within⟩, readValue,
        ⟨_, entered, inside⟩, _, ⟨⟨body, closing⟩, after, fewer⟩, readBody, same⟩ := read
      injection same with same
      subst same
      have fewerPlaced : placed.length < rest.length := Nat.lt_trans behind known
      have fewerEntered : entered.length < placed.length := Nat.lt_trans inside within
      exact .cons (expression_ranked readValue) (block_ranked false entered readBody)
    split at read
    · simp only [bind_eq_ok] at read
      obtain ⟨⟨condition, begun, within⟩, readCondition, ⟨_, entered, inside⟩, _,
        ⟨⟨body, closing⟩, after, fewer⟩, readBody, same⟩ := read
      injection same with same
      subst same
      have fewerEntered : entered.length < rest.length := Nat.lt_trans inside within
      exact .cons (expression_ranked readCondition) (block_ranked false entered readBody)
    split at read
    · simp only [bind_eq_ok] at read
      obtain ⟨_, readResult, same⟩ := read
      have ranked := result_ranked readResult
      injection same with same
      subst same
      exact ranked
    · exact expressionStatement_ranked read
  termination_by 4 * tokens.length

/-- The expressions of an alternative are ranked. -/
theorem alternative_ranked (closing : Closing) (tokens : List Token)
    {parsed : Parsed (List Stmt) (tokens.length + 1)}
    (read : alternative closing tokens = .ok parsed) :
    Expr.RankedAll (Stmt.outermostAll parsed.value) := by
  cases closing with
  | done =>
    rw [alternative] at read
    injection read with same
    subst same
    exact .nil
  | otherwise =>
    rw [alternative] at read
    simp only [bind_eq_ok] at read
    obtain ⟨⟨⟨rejected, closing⟩, after, within⟩, readRejected, same⟩ := read
    injection same with same
    subst same
    exact block_ranked false tokens readRejected
  termination_by 4 * tokens.length + 2

end

/-- The expressions of a field are ranked. -/
theorem field_ranked {tokens : List Token} {parsed : Parsed Field tokens.length}
    (read : field tokens = .ok parsed) : Expr.RankedAll parsed.value.value.toList := by
  rw [field] at read
  simp only [bind_eq_ok] at read
  obtain ⟨_, _, _, _, _, _, _, readValue, _, _, same⟩ := read
  injection same with same
  subst same
  exact expressionAfter_ranked readValue

/-- The expressions of a method are ranked. -/
theorem method_ranked {tokens : List Token} {parsed : Parsed Method tokens.length}
    (read : method tokens = .ok parsed) :
    Expr.RankedAll (Stmt.outermostAll parsed.value.body) := by
  rw [method] at read
  simp only [bind_eq_ok] at read
  obtain ⟨_, _, _, _, _, _, _, _, ⟨_, entered, _⟩, _, _, readBody, same⟩ := read
  injection same with same
  subst same
  exact block_ranked false entered readBody

/-- The expressions of fields are ranked. -/
theorem fields_ranked (tokens : List Token) {parsed : Parsed (List Field) (tokens.length + 1)}
    (read : fields tokens = .ok parsed) :
    Expr.RankedAll (parsed.value.flatMap (·.value.toList)) := by
  rw [fields] at read
  split at read
  · injection read with same
    subst same
    exact .nil
  · next rest within _ =>
    simp only [bind_eq_ok] at read
    obtain ⟨⟨first, later, shorter⟩, readFirst, ⟨others, after, fewer⟩, readRest, same⟩ := read
    injection same with same
    subst same
    exact (field_ranked readFirst).append (fields_ranked later readRest)
  termination_by tokens.length

/-- The expressions of methods are ranked. -/
theorem methods_ranked (tokens : List Token) {parsed : Parsed (List Method) (tokens.length + 1)}
    (read : methods tokens = .ok parsed) :
    Expr.RankedAll (parsed.value.flatMap fun method => Stmt.outermostAll method.body) := by
  rw [methods] at read
  split at read
  · injection read with same
    subst same
    exact .nil
  · next rest within _ =>
    simp only [bind_eq_ok] at read
    obtain ⟨⟨first, later, shorter⟩, readFirst, ⟨others, after, fewer⟩, readRest, same⟩ := read
    injection same with same
    subst same
    exact (method_ranked readFirst).append (methods_ranked later readRest)
  termination_by tokens.length

/-- The expressions of a program that is read are ranked. -/
theorem program_ranked {tokens : List Token} {found : Program}
    (read : program tokens = .ok found) : Expr.RankedAll found.outermost := by
  rw [program] at read
  simp only [bind_eq_ok] at read
  obtain ⟨⟨fields, between, within⟩, readFields, ⟨methods, after, fewer⟩, readMethods, read⟩ := read
  dsimp only at read
  split at read
  · injection read with same
    subst same
    exact (fields_ranked tokens readFields).append (methods_ranked between readMethods)
  · contradiction

end Parser

namespace Program

/-- Where two programs differ in their slots alone, the operands bind as tightly in both. -/
theorem levelled_of_erase_eq {one two : Program} (same : one.erase = two.erase)
    (levelled : ∀ part ∈ one.expressions, part.Levelled) :
    ∀ part ∈ two.expressions, part.Levelled := by
  intro part member
  have erased : part.erase ∈ two.erase.expressions := by
    rw [expressions_erase]
    exact List.mem_map_of_mem member
  rw [← same, expressions_erase] at erased
  obtain ⟨found, listed, equal⟩ := List.mem_map.mp erased
  have tight := (Expr.levelled_erase found).mpr (levelled found listed)
  rw [equal] at tight
  exact (Expr.levelled_erase part).mp tight

/-- In a text that is a program, the operands of all operators bind tightly enough. -/
theorem levelled_of_ofText {text : String} {program : Program}
    (read : Program.ofText text = .ok program) : ∀ part ∈ program.expressions, part.Levelled := by
  rw [ofText] at read
  split at read
  · contradiction
  next tokens _ =>
    split at read
    · contradiction
    next found parsed =>
      injection read with same
      subst same
      rw [ofTokens] at parsed
      split at parsed
      next whole readWhole =>
        injection parsed with same
        subst same
        exact (Parser.program_ranked readWhole).levelled
      next => contradiction

end Program

end LetDef
