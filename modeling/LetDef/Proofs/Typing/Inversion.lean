import LetDef.Proofs.Typing.Visit

/-!
# What accepted constructs look like

In a program without a host no type has members, so that analysing an expression does not change the
state of the analysis (`Expr.analyzer_analyze`). `Analyzer.Types` says that an expression is
accepted in a state, with the tree that it becomes and its type. For each form that a tree may have,
a lemma says what the analysis has accepted there: the source has the same form, its parts are
accepted, and the slots hold what was found.
-/
namespace LetDef

open Visit (next_eq_ok check_eq_ok step_eq_ok fill_eq_ok done_eq_ok stop_eq_ok typed_eq_ok)

section Stays

variable {τ σ ρ α β : Type} {analyzer : Analyzer}

/-- What leaves the state as it is may be followed by more of that. -/
theorem Visit.stays_next {visit : Visit τ α} {build : τ → σ} {go : τ → α → Analyzer → Visit σ β}
    (first : visit.analyzer = analyzer)
    (second : ∀ value, (go visit.tree value analyzer).analyzer = analyzer) :
    (visit.next build go).analyzer = analyzer := by
  obtain ⟨part, result, between⟩ := visit
  cases result with
  | ok value =>
    have same : between = analyzer := first
    rw [same]
    exact second value
  | error error => exact first

/-- A check leaves the state as it is. -/
theorem Visit.stays_check {tree : τ} {checked : Except TypeError α} {go : α → Visit τ β}
    (went : ∀ value, (go value).analyzer = analyzer) :
    (Visit.check tree checked analyzer go).analyzer = analyzer := by
  cases checked with
  | ok value => exact went value
  | error error => rfl

/-- Filling a slot leaves the state as it is. -/
theorem Visit.stays_fill {build : Option ρ → τ} {slot : Option ρ} {found : ρ}
    {go : Option ρ → Visit τ α} (went : ∀ slot, (go slot).analyzer = analyzer) :
    (Visit.fill build slot found analyzer go).analyzer = analyzer := by
  cases slot with
  | none => exact went (some found)
  | some held => rfl

/-- Filling the slot for a type leaves the state as it is. -/
theorem Visit.stays_typed {build : Option Ty → Expr} {slot : Option Ty} {type : Ty} :
    (Visit.typed build slot type analyzer).analyzer = analyzer :=
  Visit.stays_fill fun _ => rfl

end Stays

open Visit (stays_next stays_check stays_fill stays_typed)

/-- Where no member table is, no type has a field. -/
theorem Ty.fields_of_bare (type : Ty) (name : String) :
    (type.membersIn #[]).fields.get? name = none := by
  cases type <;> rfl

/-- Where no member table is, no type has a method. -/
theorem Ty.methods_of_bare (type : Ty) (key : String × Nat) :
    (type.membersIn #[]).methods.get? key = none := by
  cases type <;> rfl

mutual

/-- Where no type has members, analysing an expression does not change the state. -/
theorem Expr.analyzer_analyze (value : Expr) {analyzer : Analyzer}
    (bare : analyzer.members = #[]) : (value.analyze analyzer).analyzer = analyzer := by
  cases value with
  | literal value type => exact stays_check fun _ => stays_typed
  | group inner type =>
    rw [Expr.analyze]
    split
    · rfl
    · exact stays_next (Expr.analyzer_analyze inner bare) fun _ => stays_typed
  | binary operator left right type =>
    exact stays_next (Expr.analyzer_analyze left bare) fun _ =>
      stays_next (Expr.analyzer_analyze right bare) fun _ => stays_check fun _ => stays_typed
  | «variable» name slot type =>
    rw [Expr.analyze]
    split
    · rfl
    · exact stays_fill fun _ => stays_typed
  | member receiver name slot type =>
    refine stays_next (Expr.analyzer_analyze receiver bare) fun owner => ?_
    simp only [bare, Ty.fields_of_bare]
    rfl
  | call name arguments slot type =>
    refine stays_next (Expr.analyzer_analyzeAll arguments bare) fun types => ?_
    split
    · rfl
    · exact stays_check fun _ => stays_fill fun _ => stays_typed
  | memberCall receiver name arguments slot type =>
    refine stays_next (Expr.analyzer_analyzeAll arguments bare) fun types =>
      stays_next (Expr.analyzer_analyze receiver bare) fun owner => ?_
    simp only [bare, Ty.methods_of_bare]
    rfl

/-- Where no type has members, analysing expressions does not change the state. -/
theorem Expr.analyzer_analyzeAll (values : List Expr) {analyzer : Analyzer}
    (bare : analyzer.members = #[]) : (Expr.analyzeAll values analyzer).analyzer = analyzer := by
  cases values with
  | nil => rfl
  | cons first rest =>
    exact stays_next (Expr.analyzer_analyze first bare) fun _ =>
      stays_next (Expr.analyzer_analyzeAll rest bare) fun _ => rfl

end

/-- Where no type has members, analysing an optional expression does not change the state. -/
theorem Expr.analyzer_analyzeOption (value : Option Expr) {analyzer : Analyzer}
    (bare : analyzer.members = #[]) : (Expr.analyzeOption value analyzer).analyzer = analyzer := by
  cases value with
  | none => rfl
  | some value => exact stays_next (Expr.analyzer_analyze value bare) fun _ => rfl

namespace Analyzer

/-- In this state the source is accepted, becomes this tree and has this type. -/
def Types (analyzer : Analyzer) (source tree : Expr) (type : Ty) : Prop :=
  source.analyze analyzer = ⟨tree, .ok type, analyzer⟩

/-- In this state the sources are accepted, become these trees and have these types. -/
def TypesAll (analyzer : Analyzer) (sources trees : List Expr) (types : List Ty) : Prop :=
  Expr.analyzeAll sources analyzer = ⟨trees, .ok types, analyzer⟩

/-- In this state the optional source is accepted, becomes this tree and has this type. -/
def TypesOption (analyzer : Analyzer) (source tree : Option Expr) (type : Option Ty) : Prop :=
  Expr.analyzeOption source analyzer = ⟨tree, .ok type, analyzer⟩

variable {analyzer after : Analyzer} {type : Ty}

/-- A success is one that leaves the state as it is. -/
theorem types_of_analyze (bare : analyzer.members = #[]) {source tree : Expr}
    (analyzed : source.analyze analyzer = ⟨tree, .ok type, after⟩) :
    after = analyzer ∧ analyzer.Types source tree type := by
  have same := Expr.analyzer_analyze source bare
  rw [analyzed] at same
  have returned : after = analyzer := same
  exact ⟨returned, returned ▸ analyzed⟩

/-- A success is one that leaves the state as it is. -/
theorem typesAll_of_analyze (bare : analyzer.members = #[]) {sources trees : List Expr}
    {types : List Ty} (analyzed : Expr.analyzeAll sources analyzer = ⟨trees, .ok types, after⟩) :
    after = analyzer ∧ analyzer.TypesAll sources trees types := by
  have same := Expr.analyzer_analyzeAll sources bare
  rw [analyzed] at same
  have returned : after = analyzer := same
  exact ⟨returned, returned ▸ analyzed⟩

/-- A success is one that leaves the state as it is. -/
theorem typesOption_of_analyze (bare : analyzer.members = #[]) {source tree : Option Expr}
    {type : Option Ty} (analyzed : Expr.analyzeOption source analyzer = ⟨tree, .ok type, after⟩) :
    after = analyzer ∧ analyzer.TypesOption source tree type := by
  have same := Expr.analyzer_analyzeOption source bare
  rw [analyzed] at same
  have returned : after = analyzer := same
  exact ⟨returned, returned ▸ analyzed⟩

/-- A source and the tree that it becomes are the same but for the slots. -/
theorem Types.erase_eq {source tree : Expr} (types : analyzer.Types source tree type) :
    tree.erase = source.erase := by
  have kept := Expr.erase_analyze source analyzer
  rwa [types] at kept

/-- An accepted literal suits its type. -/
theorem Types.literal {source : Expr} {value : Literal} {slot : Option Ty}
    (types : analyzer.Types source (.literal value slot) type) :
    Typing.literalType value = .ok type ∧ slot = some type := by
  have shape := types.erase_eq
  cases source <;> simp only [Expr.erase, reduceCtorEq] at shape
  simp only [Types, Expr.analyze, check_eq_ok, typed_eq_ok] at types
  obtain ⟨found, suits, _, same, rfl, _⟩ := types
  injection same with same filled
  exact ⟨same ▸ suits, filled.symm⟩

/-- An accepted group encloses an accepted operator of its type. -/
theorem Types.group (bare : analyzer.members = #[]) {source tree : Expr} {slot : Option Ty}
    (types : analyzer.Types source (.group tree slot) type) :
    ∃ inner, source = .group inner none ∧ inner.isBinary ∧ analyzer.Types inner tree type ∧
      slot = some type := by
  have shape := types.erase_eq
  cases source <;> simp only [Expr.erase, reduceCtorEq] at shape
  case group inner written =>
  rw [Types, Expr.analyze] at types
  split at types
  · rw [stop_eq_ok] at types
    contradiction
  · next operated =>
    simp only [next_eq_ok, typed_eq_ok] at types
    obtain ⟨part, found, between, analyzed, rfl, same, rfl, _⟩ := types
    injection same with same filled
    subst same
    obtain ⟨_, accepted⟩ := types_of_analyze bare analyzed
    refine ⟨inner, rfl, ?_, accepted, filled.symm⟩
    simpa using operated

/-- An accepted operator has accepted operands, and suits their types. -/
theorem Types.binary (bare : analyzer.members = #[]) {source left right : Expr}
    {operator : BinaryOp} {slot : Option Ty}
    (types : analyzer.Types source (.binary operator left right slot) type) :
    ∃ first second leftType rightType, source = .binary operator first second none ∧
      analyzer.Types first left leftType ∧ analyzer.Types second right rightType ∧
      Typing.binaryType operator leftType rightType = .ok type ∧ slot = some type := by
  have shape := types.erase_eq
  cases source <;> simp only [Expr.erase, reduceCtorEq] at shape
  case binary written first second written =>
  simp only [Types, Expr.analyze, next_eq_ok, check_eq_ok, typed_eq_ok] at types
  obtain ⟨leftTree, leftType, between, analyzed, rightTree, rightType, later, analyzedRight, found,
    suits, rfl, same, rfl, _⟩ := types
  injection same with sameOperator sameLeft sameRight filled
  subst sameOperator sameLeft sameRight
  obtain ⟨rfl, accepted⟩ := types_of_analyze bare analyzed
  obtain ⟨rfl, acceptedRight⟩ := types_of_analyze bare analyzedRight
  exact ⟨first, second, leftType, rightType, rfl, accepted, acceptedRight, suits, filled.symm⟩

/-- An accepted name stands for the nearest variable, and has its type. -/
theorem Types.variable {source : Expr} {name : String} {slot : Option Variable}
    {typeSlot : Option Ty}
    (types : analyzer.Types source (.variable name slot typeSlot) type) :
    source = .variable name none none ∧ ∃ found, analyzer.findVariable? name = some found ∧
      slot = some found ∧ type = found.type ∧ typeSlot = some type := by
  have shape := types.erase_eq
  cases source <;> simp only [Expr.erase, reduceCtorEq] at shape
  case «variable» written writtenSlot writtenType =>
  rw [Types, Expr.analyze] at types
  split at types
  · rw [stop_eq_ok] at types
    contradiction
  · next found known =>
    simp only [fill_eq_ok, typed_eq_ok] at types
    obtain ⟨rfl, rfl, same, rfl, _⟩ := types
    injection same with same filled filledType
    subst same
    exact ⟨rfl, found, known, filled.symm, rfl, filledType.symm⟩

/-- An accepted call names a function that takes its arguments, and has the type of its results. -/
theorem Types.call (bare : analyzer.members = #[]) {source : Expr} {name : String}
    {arguments : List Expr} {slot : Option Signature} {typeSlot : Option Ty}
    (types : analyzer.Types source (.call name arguments slot typeSlot) type) :
    ∃ sources argumentTypes found, source = .call name sources none none ∧
      analyzer.TypesAll sources arguments argumentTypes ∧
      analyzer.findFunction? name argumentTypes.length = some found ∧
      Typing.requireAll found.parameters argumentTypes = .ok () ∧ slot = some found ∧
      type = found.returns ∧ typeSlot = some type := by
  have shape := types.erase_eq
  cases source <;> simp only [Expr.erase, reduceCtorEq] at shape
  case call written sources writtenSlot writtenType =>
  simp only [Types, Expr.analyze, next_eq_ok] at types
  obtain ⟨trees, argumentTypes, between, analyzed, types⟩ := types
  obtain ⟨rfl, accepted⟩ := typesAll_of_analyze bare analyzed
  split at types
  · rw [stop_eq_ok] at types
    contradiction
  · next found known =>
    simp only [check_eq_ok, fill_eq_ok, typed_eq_ok] at types
    obtain ⟨_, suits, rfl, rfl, same, rfl, _⟩ := types
    injection same with same sameTrees filled filledType
    subst same sameTrees
    exact ⟨sources, argumentTypes, found, rfl, accepted, known, suits, filled.symm, rfl,
      filledType.symm⟩

/-- No field is accepted where no type has members. -/
theorem Types.not_member (bare : analyzer.members = #[]) {source receiver : Expr} {name : String}
    {slot : Option Variable} {typeSlot : Option Ty} :
    ¬ analyzer.Types source (.member receiver name slot typeSlot) type := by
  intro types
  have shape := types.erase_eq
  cases source <;> simp only [Expr.erase, reduceCtorEq] at shape
  simp only [Types, Expr.analyze, next_eq_ok] at types
  obtain ⟨tree, owner, between, analyzed, types⟩ := types
  obtain ⟨rfl, _⟩ := types_of_analyze bare analyzed
  simp only [bare, Ty.fields_of_bare, stop_eq_ok] at types

/-- No method of an object is accepted where no type has members. -/
theorem Types.not_memberCall (bare : analyzer.members = #[]) {source receiver : Expr}
    {name : String} {arguments : List Expr} {slot : Option Signature} {typeSlot : Option Ty} :
    ¬ analyzer.Types source (.memberCall receiver name arguments slot typeSlot) type := by
  intro types
  have shape := types.erase_eq
  cases source <;> simp only [Expr.erase, reduceCtorEq] at shape
  simp only [Types, Expr.analyze, next_eq_ok] at types
  obtain ⟨trees, argumentTypes, between, analyzed, tree, owner, later, analyzedReceiver, types⟩ :=
    types
  obtain ⟨rfl, _⟩ := typesAll_of_analyze bare analyzed
  obtain ⟨rfl, _⟩ := types_of_analyze bare analyzedReceiver
  simp only [bare, Ty.methods_of_bare, stop_eq_ok] at types

/-- The slot of an accepted expression holds its type. -/
theorem Types.type_eq (bare : analyzer.members = #[]) {source tree : Expr}
    (types : analyzer.Types source tree type) : tree.type = some type := by
  cases tree with
  | literal value slot => exact types.literal.2
  | group inner slot =>
    obtain ⟨_, _, _, _, filled⟩ := types.group bare
    exact filled
  | binary operator left right slot =>
    obtain ⟨_, _, _, _, _, _, _, _, filled⟩ := types.binary bare
    exact filled
  | «variable» name slot typeSlot =>
    obtain ⟨_, _, _, _, _, filled⟩ := types.variable
    exact filled
  | member receiver name slot typeSlot => exact absurd types (Types.not_member bare)
  | call name arguments slot typeSlot =>
    obtain ⟨_, _, _, _, _, _, _, _, _, filled⟩ := types.call bare
    exact filled
  | memberCall receiver name arguments slot typeSlot =>
    exact absurd types (Types.not_memberCall bare)

/-- No expressions are accepted as such. -/
theorem TypesAll.nil {sources : List Expr} {types : List Ty}
    (accepted : analyzer.TypesAll sources [] types) : sources = [] ∧ types = [] := by
  cases sources with
  | nil =>
    simp only [TypesAll, Expr.analyzeAll, done_eq_ok] at accepted
    exact ⟨rfl, accepted.2.1.symm⟩
  | cons first rest =>
    simp only [TypesAll, Expr.analyzeAll, next_eq_ok, done_eq_ok, reduceCtorEq, false_and,
      and_false, exists_false] at accepted

/-- Accepted expressions are accepted one by one. -/
theorem TypesAll.cons (bare : analyzer.members = #[]) {sources rest : List Expr} {first : Expr}
    {types : List Ty} (accepted : analyzer.TypesAll sources (first :: rest) types) :
    ∃ source later firstType restTypes, sources = source :: later ∧
      types = firstType :: restTypes ∧ analyzer.Types source first firstType ∧
      analyzer.TypesAll later rest restTypes := by
  cases sources with
  | nil => simp only [TypesAll, Expr.analyzeAll, done_eq_ok, reduceCtorEq, false_and] at accepted
  | cons source later =>
    simp only [TypesAll, Expr.analyzeAll, next_eq_ok, done_eq_ok] at accepted
    obtain ⟨tree, firstType, between, analyzed, trees, restTypes, ending, analyzedRest, same, rfl,
      _⟩ := accepted
    injection same with same sameRest
    subst same sameRest
    obtain ⟨rfl, types⟩ := types_of_analyze bare analyzed
    obtain ⟨_, typesRest⟩ := typesAll_of_analyze bare analyzedRest
    exact ⟨source, later, firstType, restTypes, rfl, rfl, types, typesRest⟩

/-- Where an expression is written, it is accepted. -/
theorem TypesOption.some (bare : analyzer.members = #[]) {source : Option Expr} {tree : Expr}
    {type : Option Ty} (accepted : analyzer.TypesOption source (.some tree) type) :
    ∃ value found, source = .some value ∧ type = .some found ∧ analyzer.Types value tree found := by
  cases source with
  | none =>
    simp only [TypesOption, Expr.analyzeOption, done_eq_ok, reduceCtorEq, false_and] at accepted
  | some value =>
    simp only [TypesOption, Expr.analyzeOption, next_eq_ok, done_eq_ok] at accepted
    obtain ⟨part, found, between, analyzed, same, rfl, _⟩ := accepted
    injection same with same
    subst same
    obtain ⟨_, types⟩ := types_of_analyze bare analyzed
    exact ⟨value, found, rfl, rfl, types⟩

end Analyzer

end LetDef
