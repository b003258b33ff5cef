import LetDef.Proofs.Scope.Evolution
import LetDef.Proofs.Typing.Inversion

/-!
# What accepted statements look like

`Analyzer.Accepts` says that a statement is accepted in a state, with the tree that it becomes and
the state afterwards; as for expressions, there is a lemma for each form that a tree may have. A
statement changes no scope that was there before it (`Analyzer.Extends`), unless it declares a
variable, which is added to the active scope (`Analyzer.Grows`).
-/
namespace LetDef

open Visit (next_eq_ok check_eq_ok step_eq_ok fill_eq_ok done_eq_ok stop_eq_ok typed_eq_ok)
open Store (Evolves)

/-- A type takes values of a type exactly if the rule finds it so. -/
theorem Typing.require_eq_ok {target type : Ty} :
    Typing.require target type = .ok () ↔ target.isAssignable type := by
  rw [Typing.require]
  split <;> simp_all

/-- A place takes values of its own type. -/
theorem Ty.isAssignable_self (type : Ty) : type.isAssignable type := by
  have same : type.same type = true := by cases type <;> simp [Ty.same]
  simp [Ty.isAssignable, Ty.assignability, same]

/-- The type of a declared variable is the one written for it, which takes the first value if there
is one, or else that of the first value. -/
theorem Declaration.typeOf_eq_ok {name : String} {written value : Option Ty} {type : Ty} :
    Declaration.typeOf name written value = .ok type ↔
      (written = none ∧ value = some type) ∨
        (written = some type ∧ ∀ found, value = some found → type.isAssignable found) := by
  cases written with
  | none => cases value <;> simp [typeOf]
  | some target =>
    cases value with
    | none => simp [typeOf]
    | some found =>
      rw [typeOf, Typing.require]
      by_cases suits : target.isAssignable found
      · have taken : target = type → type.isAssignable found := fun same => same ▸ suits
        simpa [suits, Except.map] using taken
      · have refused : target = type → type.isAssignable found = false := fun same => by
          simpa [same] using suits
        simpa [suits, Except.map] using refused

/-- The type of a declared variable takes its first value. -/
theorem Declaration.isAssignable_of_typeOf {name : String} {written value : Option Ty} {type : Ty}
    (typed : Declaration.typeOf name written value = .ok type) :
    ∀ found, value = some found → type.isAssignable found := by
  rcases Declaration.typeOf_eq_ok.mp typed with ⟨_, rfl⟩ | ⟨_, suits⟩
  · rintro _ ⟨⟩
    exact Ty.isAssignable_self type
  · exact suits

namespace Analyzer

/-- In this state the statement is accepted, becomes this tree and leads to a state. -/
def Accepts (analyzer : Analyzer) (source tree : Stmt) (after : Analyzer) : Prop :=
  source.analyze analyzer = ⟨tree, .ok (), after⟩

/-- In this state the statements are accepted, become these trees and lead to a state. -/
def AcceptsAll (analyzer : Analyzer) (sources trees : List Stmt) (after : Analyzer) : Prop :=
  Stmt.analyzeAll sources analyzer = ⟨trees, .ok (), after⟩

/-- In this state the statements are accepted in a scope of their own, become these trees and lead
to a state. -/
def AcceptsBlock (analyzer : Analyzer) (sources trees : List Stmt) (after : Analyzer) : Prop :=
  ∃ inner, analyzer.enter.AcceptsAll sources trees inner ∧ after = inner.leave analyzer.active

variable {analyzer before middle after : Analyzer}

/-- What is accepted in a scope of its own is accepted in that scope. -/
theorem within_eq_ok {τ α : Type} {body : Analyzer → Visit τ α} {tree : τ} {value : α} :
    analyzer.within body = ⟨tree, .ok value, after⟩ ↔
      ∃ inner, body analyzer.enter = ⟨tree, .ok value, inner⟩ ∧
        after = inner.leave analyzer.active := by
  rw [within]
  obtain ⟨part, result, inner⟩ := body analyzer.enter
  simp only [Visit.mk.injEq]
  constructor
  · rintro ⟨rfl, rfl, rfl⟩
    exact ⟨inner, ⟨rfl, rfl, rfl⟩, rfl⟩
  · rintro ⟨_, ⟨rfl, rfl, rfl⟩, rfl⟩
    exact ⟨rfl, rfl, rfl⟩

/-- A variable can be added exactly if the active scope does not bind its name. -/
theorem define_eq_ok {entry : Variable} :
    analyzer.define entry = (.ok (), after) ↔
      analyzer.store.localVariable? analyzer.active entry.name = none ∧
        after = { analyzer with
          store := analyzer.store.bindVariable analyzer.active entry.name entry } := by
  rw [define, Store.defineVariable]
  cases bound : analyzer.store.localVariable? analyzer.active entry.name with
  | none => simp [eq_comm]
  | some held => simp

/-- A statement and the tree that it becomes are the same but for the slots. -/
theorem Accepts.erase_eq {source tree : Stmt} (accepts : analyzer.Accepts source tree after) :
    tree.erase = source.erase := by
  have kept := Stmt.erase_analyze source analyzer
  rwa [accepts] at kept

/-- An accepted expression statement is an accepted call. -/
theorem Accepts.expression (bare : analyzer.members = #[]) {source : Stmt} {tree : Expr}
    (accepts : analyzer.Accepts source (.expression tree) after) :
    ∃ value type, source = .expression value ∧ value.isCall ∧ analyzer.Types value tree type ∧
      after = analyzer := by
  have shape := accepts.erase_eq
  cases source <;> simp only [Stmt.erase, reduceCtorEq] at shape
  case expression value =>
  rw [Accepts, Stmt.analyze] at accepts
  split at accepts
  · rw [stop_eq_ok] at accepts
    contradiction
  · next called =>
    simp only [next_eq_ok, done_eq_ok] at accepts
    obtain ⟨part, type, between, analyzed, same, _, rfl⟩ := accepts
    injection same with same
    subst same
    obtain ⟨rfl, types⟩ := types_of_analyze bare analyzed
    exact ⟨value, type, rfl, by simpa using called, types, rfl⟩

/-- An accepted declaration adds a variable whose type takes its first value. -/
theorem Accepts.declaration (bare : analyzer.members = #[]) {source : Stmt}
    {tree : Declaration} (accepts : analyzer.Accepts source (.declaration tree) after) :
    ∃ declared valueType type, source = .declaration declared ∧ declared.name = tree.name ∧
      analyzer.TypesOption declared.value tree.value valueType ∧
      (∀ found, valueType = some found → type.isAssignable found) ∧
      analyzer.define (.named tree.name type) = (.ok (), after) ∧
      tree.slot = some (.named tree.name type) := by
  have shape := accepts.erase_eq
  cases source <;> simp only [Stmt.erase, reduceCtorEq] at shape
  case declaration declared =>
  simp only [Accepts, Stmt.analyze, Declaration.analyze, next_eq_ok, check_eq_ok, step_eq_ok,
    fill_eq_ok, done_eq_ok] at accepts
  obtain ⟨_, _, last, ⟨written, _, value, valueType, between, analyzed, type, typed, _, next,
    defined, _, same, _, rfl⟩, sameTree, _, rfl⟩ := accepts
  injection sameTree with sameTree
  subst sameTree
  subst same
  obtain ⟨rfl, types⟩ := typesOption_of_analyze bare analyzed
  exact ⟨declared, valueType, type, rfl, rfl, types, Declaration.isAssignable_of_typeOf typed,
    defined, rfl⟩

/-- Of an accepted declaration, what is written as the type is known. -/
theorem Accepts.declared {declared tree : Declaration}
    (accepts : analyzer.Accepts (.declaration declared) (.declaration tree) after) :
    declared.analyze analyzer = ⟨tree, .ok (), after⟩ ∧
      ∃ written, analyzer.types.getOption declared.typeName = .ok written := by
  rw [Accepts, Stmt.analyze, next_eq_ok] at accepts
  obtain ⟨_, _, last, analyzed, same⟩ := accepts
  rw [done_eq_ok] at same
  obtain ⟨sameTree, _, rfl⟩ := same
  injection sameTree with sameTree
  subst sameTree
  refine ⟨analyzed, ?_⟩
  simp only [Declaration.analyze, check_eq_ok] at analyzed
  obtain ⟨written, known, _⟩ := analyzed
  exact ⟨written, known⟩

/-- An accepted assignment has a place as its target, which takes the value. -/
theorem Accepts.assignment (bare : analyzer.members = #[]) {source : Stmt} {target value : Expr}
    (accepts : analyzer.Accepts source (.assignment target value) after) :
    ∃ place content targetType valueType, source = .assignment place content ∧ place.isPlace ∧
      analyzer.Types place target targetType ∧ analyzer.Types content value valueType ∧
      targetType.isAssignable valueType ∧ after = analyzer := by
  have shape := accepts.erase_eq
  cases source <;> simp only [Stmt.erase, reduceCtorEq] at shape
  case assignment place content =>
  rw [Accepts, Stmt.analyze] at accepts
  split at accepts
  · rw [stop_eq_ok] at accepts
    contradiction
  · next placed =>
    simp only [next_eq_ok, check_eq_ok, done_eq_ok] at accepts
    obtain ⟨_, targetType, between, analyzed, _, valueType, last, analyzedValue, _, suits, same, _,
      rfl⟩ := accepts
    injection same with sameTarget sameValue
    subst sameTarget sameValue
    obtain ⟨rfl, types⟩ := types_of_analyze bare analyzed
    obtain ⟨rfl, typesValue⟩ := types_of_analyze bare analyzedValue
    exact ⟨place, content, targetType, valueType, rfl, by simpa using placed, types, typesValue,
      Typing.require_eq_ok.mp suits, rfl⟩

/-- An accepted choice has an accepted condition and two accepted bodies. -/
theorem Accepts.conditional (bare : analyzer.members = #[]) {source : Stmt} {condition : Expr}
    {accepted rejected : List Stmt}
    (accepts : analyzer.Accepts source (.conditional condition accepted rejected) after) :
    ∃ test yes no type between, source = .conditional test yes no ∧
      analyzer.Types test condition type ∧ Ty.boolean.isAssignable type ∧ yes.isEmpty = false ∧
      analyzer.AcceptsBlock yes accepted between ∧ between.AcceptsBlock no rejected after := by
  have shape := accepts.erase_eq
  cases source <;> simp only [Stmt.erase, reduceCtorEq] at shape
  case conditional test yes no =>
  simp only [Accepts, Stmt.analyze, next_eq_ok, check_eq_ok] at accepts
  obtain ⟨_, type, last, analyzed, _, suits, accepts⟩ := accepts
  obtain ⟨rfl, types⟩ := types_of_analyze bare analyzed
  split at accepts
  · rw [stop_eq_ok] at accepts
    contradiction
  · next filled =>
    simp only [next_eq_ok, done_eq_ok, within_eq_ok] at accepts
    obtain ⟨_, _, between, ⟨inner, analyzedYes, leftYes⟩, _, _, ending, ⟨other, analyzedNo, leftNo⟩,
      same, _, rfl⟩ := accepts
    injection same with sameCondition sameAccepted sameRejected
    subst sameCondition sameAccepted sameRejected
    exact ⟨test, yes, no, type, between, rfl, types, Typing.require_eq_ok.mp suits,
      Bool.eq_false_iff.mpr filled, ⟨inner, analyzedYes, leftYes⟩, ⟨other, analyzedNo, leftNo⟩⟩

/-- An accepted loop runs over an accepted value, and its body is accepted with the loop
variable. -/
theorem Accepts.iteration (bare : analyzer.members = #[]) {source : Stmt} {name : String}
    {value : Expr} {body : List Stmt}
    (accepts : analyzer.Accepts source (.iteration name value body) after) :
    ∃ range statements type entered inner, source = .iteration name range statements ∧
      analyzer.Types range value type ∧ Ty.integerIterable.isAssignable type ∧
      statements.isEmpty = false ∧
      analyzer.enter.define (.named name .integer) = (.ok (), entered) ∧
      entered.AcceptsAll statements body inner ∧ after = inner.leave analyzer.active := by
  have shape := accepts.erase_eq
  cases source <;> simp only [Stmt.erase, reduceCtorEq] at shape
  case iteration written range statements =>
  simp only [Accepts, Stmt.analyze, next_eq_ok, check_eq_ok] at accepts
  obtain ⟨_, type, last, analyzed, _, suits, accepts⟩ := accepts
  obtain ⟨rfl, types⟩ := types_of_analyze bare analyzed
  split at accepts
  · rw [stop_eq_ok] at accepts
    contradiction
  · next filled =>
    simp only [next_eq_ok, done_eq_ok, within_eq_ok, step_eq_ok] at accepts
    obtain ⟨_, _, _, ⟨inner, ⟨_, entered, defined, analyzedBody⟩, left⟩, same, _, rfl⟩ := accepts
    injection same with sameName sameValue sameBody
    subst sameName sameValue sameBody
    exact ⟨range, statements, type, entered, inner, rfl, types, Typing.require_eq_ok.mp suits,
      Bool.eq_false_iff.mpr filled, defined, analyzedBody, left⟩

/-- An accepted loop with a condition has an accepted condition and an accepted body. -/
theorem Accepts.repetition (bare : analyzer.members = #[]) {source : Stmt} {condition : Expr}
    {body : List Stmt} (accepts : analyzer.Accepts source (.repetition condition body) after) :
    ∃ test statements type, source = .repetition test statements ∧
      analyzer.Types test condition type ∧ Ty.boolean.isAssignable type ∧
      analyzer.AcceptsBlock statements body after := by
  have shape := accepts.erase_eq
  cases source <;> simp only [Stmt.erase, reduceCtorEq] at shape
  case repetition test statements =>
  simp only [Accepts, Stmt.analyze, next_eq_ok, check_eq_ok, done_eq_ok, within_eq_ok] at accepts
  obtain ⟨_, type, last, analyzed, _, suits, _, _, _, ⟨inner, analyzedBody, left⟩, same, _, rfl⟩ :=
    accepts
  injection same with sameCondition sameBody
  subst sameCondition sameBody
  obtain ⟨rfl, types⟩ := types_of_analyze bare analyzed
  exact ⟨test, statements, type, rfl, types, Typing.require_eq_ok.mp suits, inner, analyzedBody,
    left⟩

/-- An accepted end of a method has an accepted value, which the results of the method take. -/
theorem Accepts.result (bare : analyzer.members = #[]) {source : Stmt} {tree : Expr}
    (accepts : analyzer.Accepts source (.result tree) after) :
    ∃ value type returns, source = .result value ∧ analyzer.Types value tree type ∧
      analyzer.returns = some returns ∧ returns.isAssignable type ∧ after = analyzer := by
  have shape := accepts.erase_eq
  cases source <;> simp only [Stmt.erase, reduceCtorEq] at shape
  case result value =>
  simp only [Accepts, Stmt.analyze, next_eq_ok] at accepts
  obtain ⟨_, type, last, analyzed, accepts⟩ := accepts
  obtain ⟨rfl, types⟩ := types_of_analyze bare analyzed
  split at accepts
  · rw [stop_eq_ok] at accepts
    contradiction
  · next returns known =>
    simp only [check_eq_ok, done_eq_ok] at accepts
    obtain ⟨_, suits, same, _, rfl⟩ := accepts
    injection same with same
    subst same
    exact ⟨value, type, returns, rfl, types, known, Typing.require_eq_ok.mp suits, rfl⟩

/-- No statements lead nowhere. -/
theorem AcceptsAll.nil {sources : List Stmt} (accepts : analyzer.AcceptsAll sources [] after) :
    sources = [] ∧ after = analyzer := by
  cases sources with
  | nil =>
    simp only [AcceptsAll, Stmt.analyzeAll, done_eq_ok] at accepts
    exact ⟨rfl, accepts.2.2.symm⟩
  | cons first rest =>
    simp only [AcceptsAll, Stmt.analyzeAll, next_eq_ok, done_eq_ok, reduceCtorEq, false_and,
      and_false, exists_false] at accepts

/-- Accepted statements are accepted one after the other. -/
theorem AcceptsAll.cons {sources rest : List Stmt} {first : Stmt}
    (accepts : analyzer.AcceptsAll sources (first :: rest) after) :
    ∃ source later between, sources = source :: later ∧ analyzer.Accepts source first between ∧
      between.AcceptsAll later rest after := by
  cases sources with
  | nil => simp only [AcceptsAll, Stmt.analyzeAll, done_eq_ok, reduceCtorEq, false_and] at accepts
  | cons source later =>
    simp only [AcceptsAll, Stmt.analyzeAll, next_eq_ok, done_eq_ok] at accepts
    obtain ⟨_, _, between, analyzed, _, _, ending, analyzedRest, same, _, rfl⟩ := accepts
    injection same with same sameRest
    subst same sameRest
    exact ⟨source, later, between, rfl, analyzed, analyzedRest⟩

/-- The state has changed in the variables of its scopes alone, as `values` says. -/
structure Evolves (values : FrameId → Bindings String Variable → Bindings String Variable → Prop)
    (before after : Analyzer) : Prop where
  /-- The base scope stays. -/
  base : after.base = before.base
  /-- The global scope stays. -/
  globals : after.globals = before.globals
  /-- The active scope is the same. -/
  active : after.active = before.active
  /-- The type of the results stays. -/
  returns : after.returns = before.returns
  /-- The types stay. -/
  types : after.types = before.types
  /-- The members of types stay. -/
  members : after.members = before.members
  /-- The scopes have changed so. -/
  store : before.store.Evolves values after.store

/-- The scopes that were there are as they were. -/
def Extends : Analyzer → Analyzer → Prop :=
  Evolves fun _ one two => two = one

/-- The scopes that were there are as they were, except for the active one. -/
def Grows (before : Analyzer) : Analyzer → Prop :=
  Evolves (fun id one two => id ≠ before.active → two = one) before

/-- Nothing need change. -/
theorem Extends.refl : analyzer.Extends analyzer where
  base := rfl
  globals := rfl
  active := rfl
  returns := rfl
  types := rfl
  members := rfl
  store := by
    refine Store.Evolves.refl ?_ analyzer.store
    intro _ _
    rfl

/-- What changes nothing changes no more than the active scope. -/
theorem Extends.grows (extension : before.Extends after) : before.Grows after :=
  { extension with store := extension.store.mono fun _ _ _ _ same _ => same }

/-- Two changes one after the other are one change. -/
theorem Evolves.trans
    {former latter values : FrameId → Bindings String Variable → Bindings String Variable → Prop}
    (first : before.Evolves former middle) (second : middle.Evolves latter after)
    (joined : ∀ id one two three, former id one two → latter id two three → values id one three) :
    before.Evolves values after where
  base := second.base.trans first.base
  globals := second.globals.trans first.globals
  active := second.active.trans first.active
  returns := second.returns.trans first.returns
  types := second.types.trans first.types
  members := second.members.trans first.members
  store := first.store.trans second.store fun id _ => joined id

/-- Two extensions are one. -/
theorem Extends.trans (first : before.Extends middle) (second : middle.Extends after) :
    before.Extends after :=
  Evolves.trans first second fun _ _ _ _ same later => later.trans same

/-- Two changes of the active scope are one. -/
theorem Grows.trans (first : before.Grows middle) (second : middle.Grows after) :
    before.Grows after :=
  Evolves.trans first second fun _ _ _ _ same later other =>
    (later (first.active ▸ other)).trans (same other)

/-- Entering a scope adds no members. -/
theorem members_enter (bare : analyzer.members = #[]) : analyzer.enter.members = #[] := bare

/-- Adding a variable changes the active scope alone. -/
theorem Grows.ofDefine {entry : Variable} (defined : analyzer.define entry = (.ok (), after)) :
    analyzer.Grows after := by
  obtain ⟨_, rfl⟩ := define_eq_ok.mp defined
  exact ⟨rfl, rfl, rfl, rfl, rfl, rfl, Store.evolves_bindVariable _ _ _ _
    (fun _ _ _ _ => rfl) fun _ _ other => absurd rfl other⟩

/-- What happens in a scope of its own changes no scope that was there before. -/
theorem Grows.leave {inner : Analyzer} (grown : analyzer.enter.Grows inner) :
    analyzer.Extends (inner.leave analyzer.active) where
  base := grown.base
  globals := grown.globals
  active := rfl
  returns := grown.returns
  types := grown.types
  members := grown.members
  store := by
    show analyzer.store.Evolves _ (inner.store.release inner.active)
    have entered : inner.active = analyzer.store.frames.size := grown.active
    rw [entered]
    exact grown.store.ofChild fun id old one two same => same (Nat.ne_of_lt old)

mutual

/-- An accepted statement changes no scope that was there before it, but a declaration the active
one. -/
theorem Accepts.grows {analyzer after : Analyzer} (bare : analyzer.members = #[]) {source : Stmt}
    (tree : Stmt) (accepts : analyzer.Accepts source tree after) :
    analyzer.Grows after ∧
      ((∀ declared, tree ≠ .declaration declared) → analyzer.Extends after) := by
  cases tree with
  | expression value =>
    obtain ⟨_, _, _, _, _, rfl⟩ := accepts.expression bare
    exact ⟨Extends.refl.grows, fun _ => Extends.refl⟩
  | declaration declared =>
    obtain ⟨_, _, _, _, _, _, _, defined, _⟩ := accepts.declaration bare
    exact ⟨Grows.ofDefine defined, fun other => absurd rfl (other declared)⟩
  | assignment target value =>
    obtain ⟨_, _, _, _, _, _, _, _, _, rfl⟩ := accepts.assignment bare
    exact ⟨Extends.refl.grows, fun _ => Extends.refl⟩
  | conditional condition accepted rejected =>
    obtain ⟨_, _, _, _, between, _, _, _, _, ⟨yes, acceptsYes, leftYes⟩, ⟨no, acceptsNo, leftNo⟩⟩ :=
      accepts.conditional bare
    have first := (AcceptsAll.grows (members_enter bare) accepted acceptsYes).leave
    rw [← leftYes] at first
    have left := members_enter (first.members.trans bare)
    have second := (AcceptsAll.grows left rejected acceptsNo).leave
    rw [← leftNo] at second
    exact ⟨(first.trans second).grows, fun _ => first.trans second⟩
  | iteration name value body =>
    obtain ⟨_, _, _, entered, inner, _, _, _, _, defined, acceptsBody, left⟩ :=
      accepts.iteration bare
    have begun := Grows.ofDefine defined
    have ended := (begun.trans (AcceptsAll.grows (begun.members.trans bare) body acceptsBody)).leave
    rw [← left] at ended
    exact ⟨ended.grows, fun _ => ended⟩
  | repetition condition body =>
    obtain ⟨_, _, _, _, _, _, ⟨inner, acceptsBody, left⟩⟩ := accepts.repetition bare
    have ended := (AcceptsAll.grows (members_enter bare) body acceptsBody).leave
    rw [← left] at ended
    exact ⟨ended.grows, fun _ => ended⟩
  | result value =>
    obtain ⟨_, _, _, _, _, _, _, rfl⟩ := accepts.result bare
    exact ⟨Extends.refl.grows, fun _ => Extends.refl⟩

/-- Accepted statements change the active scope at most. -/
theorem AcceptsAll.grows {analyzer after : Analyzer} (bare : analyzer.members = #[])
    {sources : List Stmt} (trees : List Stmt) (accepts : analyzer.AcceptsAll sources trees after) :
    analyzer.Grows after := by
  cases trees with
  | nil =>
    obtain ⟨_, rfl⟩ := accepts.nil
    exact Extends.refl.grows
  | cons first rest =>
    obtain ⟨_, _, between, _, acceptsFirst, acceptsRest⟩ := accepts.cons
    have begun := (Accepts.grows bare first acceptsFirst).1
    exact begun.trans (AcceptsAll.grows (begun.members.trans bare) rest acceptsRest)

end

/-- Statements accepted in a scope of their own change no scope that was there before. -/
theorem AcceptsBlock.extends (bare : analyzer.members = #[]) {sources trees : List Stmt}
    (accepts : analyzer.AcceptsBlock sources trees after) : analyzer.Extends after := by
  obtain ⟨inner, acceptsAll, rfl⟩ := accepts
  exact (AcceptsAll.grows (members_enter bare) trees acceptsAll).leave

end Analyzer

end LetDef
