import LetDef.Proofs.Typing.Contexts
import LetDef.Proofs.Typing.Rules

/-!
# Bodies of methods by the rules and by the analysis

In a state that a context describes, the analysis accepts an expression exactly if the rules derive
it in that context, with the same slots and the same type, and a statement exactly if the rules
derive it, and then the context behind it describes the state behind it. From the analysis to the
rules the proofs go along the tree, and from the rules to the analysis along the derivation.
-/
namespace LetDef

open Visit (next_eq_ok check_eq_ok step_eq_ok fill_eq_ok done_eq_ok typed_eq_ok each_eq_ok)

/-- The function that a call stands for has as many parameters as the call has arguments. -/
theorem Context.arity_of_findFunction? {context : Context} {name : String} {arity : Nat}
    {function : Signature} (found : context.findFunction? name arity = some function) :
    function.parameters.length = arity := by
  rw [findFunction?, Option.or_eq_some_iff] at found
  rcases found with held | ⟨_, builtin⟩
  · have described := List.find?_some held
    rw [Bool.and_eq_true] at described
    exact of_decide_eq_true described.2
  · obtain ⟨builtin, held, rfl⟩ := Option.map_eq_some_iff.mp builtin
    have described := List.find?_some held
    rw [Bool.and_eq_true] at described
    exact of_decide_eq_true described.2

namespace Analyzer

variable {analyzer : Analyzer} {type : Ty}

/-- A literal is accepted where its slot is empty. -/
theorem Types.literal_eq {source : Expr} {value : Literal} {slot : Option Ty}
    (types : analyzer.Types source (.literal value slot) type) : source = .literal value none := by
  have shape := types.erase_eq
  cases source <;> simp only [Expr.erase, reduceCtorEq] at shape
  simp only [Types, Expr.analyze, check_eq_ok, typed_eq_ok] at types
  obtain ⟨_, _, rfl, same, _⟩ := types
  injection same with same
  rw [same]

/-- Nothing is found where no expression is written. -/
theorem typesOption_none {tree : Option Expr} {found : Option Ty} :
    analyzer.TypesOption none tree found ↔ tree = none ∧ found = none := by
  simp only [TypesOption, Expr.analyzeOption, done_eq_ok, and_true, eq_comm]

/-- Where an expression is written, it is accepted. -/
theorem typesOption_some (bare : analyzer.members = #[]) {source : Expr} {tree : Option Expr}
    {found : Option Ty} : analyzer.TypesOption (some source) tree found ↔
      ∃ part type, tree = some part ∧ found = some type ∧ analyzer.Types source part type := by
  simp only [TypesOption, Expr.analyzeOption, next_eq_ok, done_eq_ok]
  constructor
  · rintro ⟨part, type, between, analyzed, rfl, rfl, _⟩
    exact ⟨part, type, rfl, rfl, (types_of_analyze bare analyzed).2⟩
  · rintro ⟨part, type, rfl, rfl, types⟩
    exact ⟨part, type, analyzer, types, rfl, rfl, rfl⟩

section Statements

variable {between after : Analyzer}

/-- A call is accepted as a statement if it is accepted. -/
theorem accepts_expression {source tree : Expr} (called : source.isCall)
    (types : analyzer.Types source tree type) :
    analyzer.Accepts (.expression source) (.expression tree) analyzer := by
  rw [Accepts, Stmt.analyze, if_neg (by simp [called]), next_eq_ok]
  exact ⟨tree, type, analyzer, types, done_eq_ok.mpr ⟨rfl, rfl, rfl⟩⟩

/-- A declaration is accepted as a statement if it is accepted. -/
theorem accepts_declaration {declared tree : Declaration}
    (analyzed : declared.analyze analyzer = ⟨tree, .ok (), after⟩) :
    analyzer.Accepts (.declaration declared) (.declaration tree) after := by
  rw [Accepts, Stmt.analyze, next_eq_ok]
  exact ⟨tree, (), after, analyzed, done_eq_ok.mpr ⟨rfl, rfl, rfl⟩⟩

/-- An assignment to a place that takes its value is accepted. -/
theorem accepts_assignment {target place source tree : Expr} {valueType : Ty}
    (placed : target.isPlace) (typesTarget : analyzer.Types target place type)
    (types : analyzer.Types source tree valueType) (suits : type.isAssignable valueType) :
    analyzer.Accepts (.assignment target source) (.assignment place tree) analyzer := by
  rw [Accepts, Stmt.analyze, if_neg (by simp [placed]), next_eq_ok]
  refine ⟨place, type, analyzer, typesTarget, next_eq_ok.mpr ?_⟩
  refine ⟨tree, valueType, analyzer, types, check_eq_ok.mpr ?_⟩
  exact ⟨(), Typing.require_eq_ok.mpr suits, done_eq_ok.mpr ⟨rfl, rfl, rfl⟩⟩

/-- A choice is accepted if its condition and both branches are. -/
theorem accepts_conditional {test condition : Expr} {yes accepted no rejected : List Stmt}
    (types : analyzer.Types test condition .boolean) (filled : yes ≠ [])
    (acceptsYes : analyzer.AcceptsBlock yes accepted between)
    (acceptsNo : between.AcceptsBlock no rejected after) :
    analyzer.Accepts (.conditional test yes no) (.conditional condition accepted rejected)
      after := by
  rw [Accepts, Stmt.analyze, next_eq_ok]
  refine ⟨condition, .boolean, analyzer, types, check_eq_ok.mpr ⟨(), rfl, ?_⟩⟩
  rw [if_neg (by simpa using filled), next_eq_ok]
  refine ⟨accepted, (), between, within_eq_ok.mpr acceptsYes, next_eq_ok.mpr ?_⟩
  exact ⟨rejected, (), after, within_eq_ok.mpr acceptsNo, done_eq_ok.mpr ⟨rfl, rfl, rfl⟩⟩

/-- A loop over a range is accepted if its body is accepted with the loop variable. -/
theorem accepts_iteration {name : String} {range value : Expr} {statements body : List Stmt}
    {entered inner : Analyzer} (types : analyzer.Types range value .integerIterable)
    (filled : statements ≠ [])
    (defined : analyzer.enter.define (.named name .integer) = (.ok (), entered))
    (acceptsBody : entered.AcceptsAll statements body inner) :
    analyzer.Accepts (.iteration name range statements) (.iteration name value body)
      (inner.leave analyzer.active) := by
  rw [Accepts, Stmt.analyze, next_eq_ok]
  refine ⟨value, .integerIterable, analyzer, types, check_eq_ok.mpr ⟨(), rfl, ?_⟩⟩
  rw [if_neg (by simpa using filled), next_eq_ok]
  refine ⟨body, (), _, within_eq_ok.mpr ⟨inner, ?_, rfl⟩, done_eq_ok.mpr ⟨rfl, rfl, rfl⟩⟩
  exact step_eq_ok.mpr ⟨(), entered, defined, acceptsBody⟩

/-- A loop with a condition is accepted if its condition and its body are. -/
theorem accepts_repetition {test condition : Expr} {statements body : List Stmt}
    (types : analyzer.Types test condition .boolean)
    (acceptsBody : analyzer.AcceptsBlock statements body after) :
    analyzer.Accepts (.repetition test statements) (.repetition condition body) after := by
  rw [Accepts, Stmt.analyze, next_eq_ok]
  refine ⟨condition, .boolean, analyzer, types, check_eq_ok.mpr ⟨(), rfl, next_eq_ok.mpr ?_⟩⟩
  exact ⟨body, (), after, within_eq_ok.mpr acceptsBody, done_eq_ok.mpr ⟨rfl, rfl, rfl⟩⟩

/-- A result is accepted in a method whose results take it. -/
theorem accepts_result {source tree : Expr} {returns : Ty}
    (types : analyzer.Types source tree type) (inMethod : analyzer.returns = some returns)
    (suits : returns.isAssignable type) :
    analyzer.Accepts (.result source) (.result tree) analyzer := by
  rw [Accepts, Stmt.analyze, next_eq_ok]
  refine ⟨tree, type, analyzer, types, ?_⟩
  rw [inMethod]
  exact check_eq_ok.mpr ⟨(), Typing.require_eq_ok.mpr suits, done_eq_ok.mpr ⟨rfl, rfl, rfl⟩⟩

end Statements

end Analyzer

namespace Context.Describes

variable {context : Context} {analyzer after : Analyzer}

mutual

/-- What the analysis accepts as an expression is derived. -/
theorem elaborates (describes : context.Describes analyzer) {source : Expr} (tree : Expr)
    {type : Ty} (types : analyzer.Types source tree type) :
    Elaborates context source tree type := by
  have bare := describes.standing.bare
  cases tree with
  | literal value slot =>
    obtain rfl := types.literal_eq
    obtain ⟨typed, rfl⟩ := types.literal
    exact .literal (Literal.hasType_iff.mpr typed)
  | group tree slot =>
    obtain ⟨inner, rfl, operated, typesInner, rfl⟩ := types.group bare
    have derived := elaborates describes tree typesInner
    cases derived with
    | binary first second typed => exact .group (.binary first second typed)
    | _ => contradiction
  | binary operator left right slot =>
    obtain ⟨_, _, _, _, rfl, typesLeft, typesRight, typed, rfl⟩ := types.binary bare
    exact .binary (elaborates describes left typesLeft) (elaborates describes right typesRight)
      (BinaryOp.hasType_iff.mpr typed)
  | «variable» name slot typeSlot =>
    obtain ⟨rfl, entry, found, rfl, rfl, rfl⟩ := types.variable
    exact .variable ((describes.findVariable?_eq name).symm.trans found)
  | member receiver name slot typeSlot => exact absurd types (Analyzer.Types.not_member bare)
  | call name arguments slot typeSlot =>
    obtain ⟨_, argumentTypes, function, rfl, typesAll, found, suits, rfl, rfl, rfl⟩ :=
      types.call bare
    rw [describes.findFunction?_eq] at found
    exact .call (elaboratesAll describes arguments typesAll) found
      ((Ty.takesAll_iff (arity_of_findFunction? found)).mpr suits)
  | memberCall receiver name arguments slot typeSlot =>
    exact absurd types (Analyzer.Types.not_memberCall bare)

/-- What the analysis accepts as expressions is derived. -/
theorem elaboratesAll (describes : context.Describes analyzer) {sources : List Expr}
    (trees : List Expr) {types : List Ty} (typesAll : analyzer.TypesAll sources trees types) :
    ElaboratesAll context sources trees types := by
  have bare := describes.standing.bare
  cases trees with
  | nil =>
    obtain ⟨rfl, rfl⟩ := typesAll.nil
    exact .nil
  | cons first rest =>
    obtain ⟨_, _, _, _, rfl, rfl, typesFirst, typesRest⟩ := typesAll.cons bare
    exact .cons (elaborates describes first typesFirst) (elaboratesAll describes rest typesRest)

end

mutual

/-- What is derived as an expression the analysis accepts. -/
theorem types_of_elaborates (describes : context.Describes analyzer) {source tree : Expr}
    {type : Ty} (derived : Elaborates context source tree type) :
    analyzer.Types source tree type := by
  cases derived with
  | literal typed =>
    rw [Analyzer.Types, Expr.analyze, check_eq_ok]
    exact ⟨type, Literal.hasType_iff.mp typed, typed_eq_ok.mpr ⟨rfl, rfl, rfl, rfl⟩⟩
  | group inner =>
    have types := types_of_elaborates describes inner
    rw [Analyzer.Types, Expr.analyze, if_neg (by simp [Expr.isBinary]), next_eq_ok]
    exact ⟨_, type, analyzer, types, typed_eq_ok.mpr ⟨rfl, rfl, rfl, rfl⟩⟩
  | binary first second typed =>
    have typesLeft := types_of_elaborates describes first
    have typesRight := types_of_elaborates describes second
    rw [Analyzer.Types, Expr.analyze, next_eq_ok]
    refine ⟨_, _, analyzer, typesLeft, next_eq_ok.mpr ⟨_, _, analyzer, typesRight, ?_⟩⟩
    exact check_eq_ok.mpr
      ⟨type, BinaryOp.hasType_iff.mp typed, typed_eq_ok.mpr ⟨rfl, rfl, rfl, rfl⟩⟩
  | «variable» found =>
    rw [Analyzer.Types, Expr.analyze, describes.findVariable?_eq, found]
    exact fill_eq_ok.mpr ⟨rfl, typed_eq_ok.mpr ⟨rfl, rfl, rfl, rfl⟩⟩
  | call arguments found suits =>
    have typesAll := typesAll_of_elaboratesAll describes arguments
    rw [Analyzer.Types, Expr.analyze, next_eq_ok]
    refine ⟨_, _, analyzer, typesAll, ?_⟩
    rw [describes.findFunction?_eq, found]
    have passed := (Ty.takesAll_iff (arity_of_findFunction? found)).mp suits
    exact check_eq_ok.mpr
      ⟨(), passed, fill_eq_ok.mpr ⟨rfl, typed_eq_ok.mpr ⟨rfl, rfl, rfl, rfl⟩⟩⟩

/-- What is derived as expressions the analysis accepts. -/
theorem typesAll_of_elaboratesAll (describes : context.Describes analyzer)
    {sources trees : List Expr} {types : List Ty}
    (derived : ElaboratesAll context sources trees types) :
    analyzer.TypesAll sources trees types := by
  cases derived with
  | nil => rfl
  | cons first rest =>
    have typesFirst := types_of_elaborates describes first
    have typesRest := typesAll_of_elaboratesAll describes rest
    rw [Analyzer.TypesAll, Expr.analyzeAll, next_eq_ok]
    refine ⟨_, _, analyzer, typesFirst, next_eq_ok.mpr ⟨_, _, analyzer, typesRest, ?_⟩⟩
    exact done_eq_ok.mpr ⟨rfl, rfl, rfl⟩

end

/-- The rules give a declared variable the type that the analysis gives it. -/
theorem initial_iff (describes : context.Describes analyzer) (name : String)
    {written : Option String} {source tree : Option Expr} {type : Ty} :
    context.Initial written source tree type ↔
      ∃ writtenType valueType, analyzer.types.getOption written = .ok writtenType ∧
        analyzer.TypesOption source tree valueType ∧
        Declaration.typeOf name writtenType valueType = .ok type := by
  have bare := describes.standing.bare
  rw [describes.types]
  constructor
  · intro initial
    cases initial with
    | inferred value =>
      have types := describes.types_of_elaborates value
      have some := (Analyzer.typesOption_some bare).mpr ⟨_, _, rfl, rfl, types⟩
      exact ⟨none, _, rfl, some, rfl⟩
    | empty named =>
      have known := TypeTable.getOption_some_eq_ok.mpr ⟨type, Ty.named_iff.mp named, rfl⟩
      exact ⟨some type, none, known, Analyzer.typesOption_none.mpr ⟨rfl, rfl⟩, rfl⟩
    | checked named value suits =>
      have types := describes.types_of_elaborates value
      have known := TypeTable.getOption_some_eq_ok.mpr ⟨type, Ty.named_iff.mp named, rfl⟩
      have some := (Analyzer.typesOption_some bare).mpr ⟨_, _, rfl, rfl, types⟩
      refine ⟨_, _, known, some, Declaration.typeOf_eq_ok.mpr (.inr ⟨rfl, ?_⟩)⟩
      rintro _ ⟨⟩
      exact Ty.takes_iff.mp suits
  · rintro ⟨writtenType, valueType, known, types, typed⟩
    have chosen := Declaration.typeOf_eq_ok.mp typed
    cases written with
    | none =>
      cases known
      obtain ⟨_, rfl⟩ | ⟨unwritten, _⟩ := chosen
      · cases source with
        | none => exact absurd (Analyzer.typesOption_none.mp types).2 (Option.some_ne_none type)
        | some source =>
          obtain ⟨part, _, rfl, ⟨⟩, accepted⟩ := (Analyzer.typesOption_some bare).mp types
          exact .inferred (describes.elaborates part accepted)
      · contradiction
    | some word =>
      obtain ⟨target, found, rfl⟩ := TypeTable.getOption_some_eq_ok.mp known
      obtain ⟨unwritten, _⟩ | ⟨⟨⟩, suits⟩ := chosen
      · contradiction
      have named := Ty.named_iff.mpr found
      cases source with
      | none =>
        obtain ⟨rfl, rfl⟩ := Analyzer.typesOption_none.mp types
        exact .empty named
      | some source =>
        obtain ⟨part, valueType, rfl, rfl, accepted⟩ := (Analyzer.typesOption_some bare).mp types
        exact .checked named (describes.elaborates part accepted)
          (Ty.takes_iff.mpr (suits valueType rfl))

/-- A declaration is accepted exactly if its type is derived and its variable can be added. -/
theorem declaration_iff (describes : context.Describes analyzer) {declared tree : Declaration} :
    declared.analyze analyzer = ⟨tree, .ok (), after⟩ ↔
      ∃ value type, declared.slot = none ∧
        context.Initial declared.typeName declared.value value type ∧
        analyzer.define (.named declared.name type) = (.ok (), after) ∧
        tree = ⟨declared.name, declared.typeName, value, some (.named declared.name type)⟩ := by
  have bare := describes.standing.bare
  simp only [Declaration.analyze, next_eq_ok, check_eq_ok, step_eq_ok, fill_eq_ok, done_eq_ok]
  constructor
  · rintro ⟨written, known, value, valueType, between, analyzed, type, typed, _, next, defined,
      empty, rfl, _, rfl⟩
    obtain ⟨rfl, types⟩ := Analyzer.typesOption_of_analyze bare analyzed
    exact ⟨value, type, empty, (describes.initial_iff declared.name).mpr
      ⟨written, valueType, known, types, typed⟩, defined, rfl⟩
  · rintro ⟨value, type, empty, initial, defined, rfl⟩
    obtain ⟨written, valueType, known, types, typed⟩ :=
      (describes.initial_iff declared.name).mp initial
    exact ⟨written, known, value, valueType, analyzer, types, type, typed, (), after, defined,
      empty, rfl, trivial, rfl⟩

/-- A field is accepted exactly if its type is derived and its variable can be added. -/
theorem field_iff (describes : context.Describes analyzer) {field tree : Field} :
    field.analyze analyzer = ⟨tree, .ok (), after⟩ ↔
      ∃ value type, field.slot = none ∧
        context.Initial (some field.typeName) field.value value type ∧
        analyzer.define (.named field.name type) = (.ok (), after) ∧
        tree = ⟨field.name, field.typeName, value, some (.named field.name type)⟩ := by
  have bare := describes.standing.bare
  simp only [Field.analyze, next_eq_ok, check_eq_ok, step_eq_ok, fill_eq_ok, done_eq_ok]
  constructor
  · rintro ⟨written, known, value, valueType, between, analyzed, type, typed, _, next, defined,
      empty, rfl, _, rfl⟩
    obtain ⟨rfl, types⟩ := Analyzer.typesOption_of_analyze bare analyzed
    have found := TypeTable.getOption_some_eq_ok.mpr ⟨written, known, rfl⟩
    exact ⟨value, type, empty, (describes.initial_iff field.name).mpr
      ⟨some written, valueType, found, types, typed⟩, defined, rfl⟩
  · rintro ⟨value, type, empty, initial, defined, rfl⟩
    obtain ⟨_, valueType, known, types, typed⟩ := (describes.initial_iff field.name).mp initial
    obtain ⟨written, found, rfl⟩ := TypeTable.getOption_some_eq_ok.mp known
    exact ⟨written, found, value, valueType, analyzer, types, type, typed, (), after, defined,
      empty, rfl, trivial, rfl⟩

mutual

/-- What the analysis accepts as a statement is derived, and leads to a described state. -/
theorem checks {context : Context} {analyzer after : Analyzer}
    (describes : context.Describes analyzer) {source : Stmt} (tree : Stmt)
    (accepts : analyzer.Accepts source tree after) :
    ∃ behind, Checks context source tree behind ∧ behind.Describes after := by
  have bare := describes.standing.bare
  cases tree with
  | expression value =>
    obtain ⟨_, _, rfl, called, types, rfl⟩ := accepts.expression bare
    have derived := describes.elaborates value types
    cases derived with
    | call arguments found suits =>
      exact ⟨context, .expression (.call arguments found suits), describes⟩
    | _ => contradiction
  | declaration declared =>
    obtain ⟨⟨name, written, source, slot⟩, _, _, rfl, _⟩ := accepts.declaration bare
    obtain ⟨value, type, rfl, initial, defined, rfl⟩ :=
      describes.declaration_iff.mp accepts.declared.1
    have free := describes.free_of_define defined
    exact ⟨_, .declaration initial free, describes.bind defined⟩
  | assignment target value =>
    obtain ⟨_, _, _, _, rfl, placed, typesTarget, types, suits, rfl⟩ := accepts.assignment bare
    have place := describes.elaborates target typesTarget
    have derived := describes.elaborates value types
    cases place with
    | «variable» found =>
      exact ⟨context, .assignment (.variable found) derived (Ty.takes_iff.mpr suits), describes⟩
    | _ => contradiction
  | conditional condition accepted rejected =>
    obtain ⟨_, yes, no, _, between, rfl, types, suits, filled, acceptsYes, acceptsNo⟩ :=
      accepts.conditional bare
    obtain rfl := (Ty.takes_builtin_iff List.mem_cons_self).mp (Ty.takes_iff.mpr suits)
    have holds := describes.elaborates condition types
    -- What a branch declares goes with its scope: `context` describes the state behind it again.
    have beside := describes.extend (acceptsYes.extends bare)
    have behind := beside.extend (acceptsNo.extends beside.standing.bare)
    obtain ⟨_, acceptsYes, _⟩ := acceptsYes
    obtain ⟨_, acceptsNo, _⟩ := acceptsNo
    obtain ⟨_, first, _⟩ := checksAll describes.enter accepted acceptsYes
    obtain ⟨_, second, _⟩ := checksAll beside.enter rejected acceptsNo
    have inhabited : yes ≠ [] := List.isEmpty_eq_false_iff.mp filled
    exact ⟨context, .conditional holds inhabited first second, behind⟩
  | iteration name value body =>
    obtain ⟨_, statements, _, entered, inner, rfl, types, suits, filled, defined, acceptsBody,
      _⟩ := accepts.iteration bare
    obtain rfl := (Ty.takes_builtin_iff (List.mem_cons_of_mem _ List.mem_cons_self)).mp
      (Ty.takes_iff.mpr suits)
    have runs := describes.elaborates value types
    have begun := describes.enter.bind defined
    obtain ⟨_, inside, _⟩ := checksAll begun body acceptsBody
    have inhabited : statements ≠ [] := List.isEmpty_eq_false_iff.mp filled
    -- Only a declaration adds to the active scope, and a loop is none.
    have extension := (accepts.grows bare (.iteration name value body)).2 fun _ => Stmt.noConfusion
    exact ⟨context, .iteration runs inhabited inside, describes.extend extension⟩
  | repetition condition body =>
    obtain ⟨_, _, _, rfl, types, suits, acceptsBody⟩ := accepts.repetition bare
    obtain rfl := (Ty.takes_builtin_iff List.mem_cons_self).mp (Ty.takes_iff.mpr suits)
    have holds := describes.elaborates condition types
    have behind := describes.extend (acceptsBody.extends bare)
    obtain ⟨_, acceptsBody, _⟩ := acceptsBody
    obtain ⟨_, inside, _⟩ := checksAll describes.enter body acceptsBody
    exact ⟨context, .repetition holds inside, behind⟩
  | result value =>
    obtain ⟨_, _, returns, rfl, types, known, suits, rfl⟩ := accepts.result bare
    have inMethod : context.returns = some returns := describes.returns.symm.trans known
    exact ⟨context, .result (describes.elaborates value types) inMethod (Ty.takes_iff.mpr suits),
      describes⟩

/-- What the analysis accepts as statements is derived, and leads to a described state. -/
theorem checksAll {context : Context} {analyzer after : Analyzer}
    (describes : context.Describes analyzer) {sources : List Stmt} (trees : List Stmt)
    (accepts : analyzer.AcceptsAll sources trees after) :
    ∃ behind, ChecksAll context sources trees behind ∧ behind.Describes after := by
  cases trees with
  | nil =>
    obtain ⟨rfl, rfl⟩ := accepts.nil
    exact ⟨context, .nil, describes⟩
  | cons first rest =>
    obtain ⟨_, _, between, rfl, acceptsFirst, acceptsRest⟩ := accepts.cons
    obtain ⟨_, begun, reached⟩ := checks describes first acceptsFirst
    obtain ⟨behind, ended, describesEnd⟩ := checksAll reached rest acceptsRest
    exact ⟨behind, .cons begun ended, describesEnd⟩

end

mutual

/-- What is derived as a statement the analysis accepts, and it leads to a described state. -/
theorem exists_accepts {context behind : Context} {analyzer : Analyzer}
    (describes : context.Describes analyzer) {source tree : Stmt}
    (checked : Checks context source tree behind) :
    ∃ after, analyzer.Accepts source tree after ∧ behind.Describes after := by
  have bare := describes.standing.bare
  cases checked with
  | expression value =>
    have types := describes.types_of_elaborates value
    exact ⟨analyzer, Analyzer.accepts_expression rfl types, describes⟩
  | @declaration _ name _ _ _ type initial free =>
    obtain ⟨after, defined⟩ := describes.exists_define (.named name type) free
    have analyzed : Declaration.analyze ⟨_, _, _, none⟩ analyzer = ⟨_, .ok (), after⟩ :=
      describes.declaration_iff.mpr ⟨_, _, rfl, initial, defined, rfl⟩
    exact ⟨after, Analyzer.accepts_declaration analyzed, describes.bind defined⟩
  | assignment target value suits =>
    have typesTarget := describes.types_of_elaborates target
    have types := describes.types_of_elaborates value
    exact ⟨analyzer, Analyzer.accepts_assignment rfl typesTarget types (Ty.takes_iff.mp suits),
      describes⟩
  | conditional holds filled first second =>
    have types := describes.types_of_elaborates holds
    obtain ⟨yes, acceptsYes, _⟩ := exists_acceptsAll describes.enter first
    have passed : analyzer.AcceptsBlock _ _ _ := ⟨yes, acceptsYes, rfl⟩
    have beside := describes.extend (passed.extends bare)
    obtain ⟨no, acceptsNo, _⟩ := exists_acceptsAll beside.enter second
    have passedBoth : Analyzer.AcceptsBlock _ _ _ _ := ⟨no, acceptsNo, rfl⟩
    exact ⟨_, Analyzer.accepts_conditional types filled passed passedBoth,
      beside.extend (passedBoth.extends beside.standing.bare)⟩
  | @iteration _ name _ _ _ _ _ runs filled inside =>
    have types := describes.types_of_elaborates runs
    have free : context.enter.Free name := List.forall_mem_nil _
    obtain ⟨entered, defined⟩ := describes.enter.exists_define (.named name .integer) free
    obtain ⟨inner, acceptsBody, _⟩ := exists_acceptsAll (describes.enter.bind defined) inside
    have begun := Analyzer.Grows.ofDefine defined
    have ended := Analyzer.AcceptsAll.grows (begun.members.trans bare) _ acceptsBody
    exact ⟨_, Analyzer.accepts_iteration types filled defined acceptsBody,
      describes.extend (begun.trans ended).leave⟩
  | repetition holds inside =>
    have types := describes.types_of_elaborates holds
    obtain ⟨inner, acceptsBody, _⟩ := exists_acceptsAll describes.enter inside
    have passed : analyzer.AcceptsBlock _ _ _ := ⟨inner, acceptsBody, rfl⟩
    exact ⟨_, Analyzer.accepts_repetition types passed, describes.extend (passed.extends bare)⟩
  | result value inMethod suits =>
    have types := describes.types_of_elaborates value
    have known := describes.returns.trans inMethod
    exact ⟨analyzer, Analyzer.accepts_result types known (Ty.takes_iff.mp suits), describes⟩

/-- What is derived as statements the analysis accepts, and they lead to a described state. -/
theorem exists_acceptsAll {context behind : Context} {analyzer : Analyzer}
    (describes : context.Describes analyzer) {sources trees : List Stmt}
    (checked : ChecksAll context sources trees behind) :
    ∃ after, analyzer.AcceptsAll sources trees after ∧ behind.Describes after := by
  -- A match and no `cases`, since the recursion is structural in the derivation.
  match checked with
  | .nil => exact ⟨analyzer, rfl, describes⟩
  | .cons first rest =>
    obtain ⟨between, acceptsFirst, reached⟩ := exists_accepts describes first
    obtain ⟨after, acceptsRest, describesEnd⟩ := exists_acceptsAll reached rest
    refine ⟨after, ?_, describesEnd⟩
    rw [Analyzer.AcceptsAll, Stmt.analyzeAll, next_eq_ok]
    refine ⟨_, (), between, acceptsFirst, next_eq_ok.mpr ?_⟩
    exact ⟨_, (), after, acceptsRest, done_eq_ok.mpr ⟨rfl, rfl, rfl⟩⟩

end

end Context.Describes

end LetDef
