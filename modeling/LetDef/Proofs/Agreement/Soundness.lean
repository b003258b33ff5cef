import LetDef.Proofs.Agreement.Lookup
import LetDef.Proofs.Run.Outcome

/-!
# Runs keep the agreement

Where the analysis has accepted a construct and a run begins in agreement with it, every result of
the run is admitted by the type that the analysis found, and the run ends in agreement again
(`SoundWithin`). The proof is by induction on the fuel, with one lemma for each kind of construct; a
call is sound because the analysis has accepted the body of every method between methods, where
nothing is in scope but the global scope, in which calls agree with it.
-/
namespace LetDef

open Outcome (andThen_eq_done leaving_eq_done ofExcept_eq_done require_eq_done ofPair_eq_done)

namespace Acceptance

/-- A result of a method is admitted by the type of its results. -/
def Ends (accepted : Acceptance) (returns : Option Ty) (flow : Flow) : Prop :=
  ∀ value, flow = .returned value → ∃ type, returns = some type ∧ accepted.Admits type value

/-- A statement that does not end its method ends nothing. -/
theorem ends_normal (accepted : Acceptance) (returns : Option Ty) :
    accepted.Ends returns .normal := by
  intro value returned
  contradiction

variable {accepted : Acceptance} {target type : Ty} {value : Value}

/-- What a place takes by its type it takes by its values. -/
theorem Admits.assign (takes : target.isAssignable type) (admits : accepted.Admits type value) :
    accepted.Admits target value :=
  fun unshadowed => (admits unshadowed).assign takes

/-- Arguments that suit the parameters are admitted as their values. -/
theorem AdmitsAll.assign {parameters types : List Ty} {values : List Value}
    (sizes : parameters.length = types.length)
    (suits : Typing.requireAll parameters types = .ok ())
    (admitted : accepted.AdmitsAll types values) : accepted.AdmitsAll parameters values := by
  induction parameters generalizing types values with
  | nil =>
    rw [List.length_eq_zero_iff.mp sizes.symm] at admitted
    exact admitted
  | cons parameter parameters ih =>
    cases types with
    | nil => contradiction
    | cons type types =>
      cases values with
      | nil => exact admitted.elim
      | cons value values =>
        rw [Typing.requireAll] at suits
        cases required : Typing.require parameter type with
        | error error =>
          rw [required] at suits
          contradiction
        | ok done =>
          rw [required] at suits
          exact ⟨admitted.1.assign (Typing.require_eq_ok.mp required),
            ih (Nat.succ.inj sizes) suits admitted.2⟩

/-- Where a method takes the place of `print`, nothing is said of values. -/
theorem admitsAll_of_shadowed (shadowed : ¬ accepted.Unshadowed) {types : List Ty}
    {values : List Value} (sizes : values.length = types.length) :
    accepted.AdmitsAll types values := by
  induction types generalizing values with
  | nil =>
    rw [List.length_eq_zero_iff.mp sizes]
    trivial
  | cons type types ih =>
    cases values with
    | nil => contradiction
    | cons value values =>
      exact ⟨fun unshadowed => absurd unshadowed shadowed, ih (Nat.succ.inj sizes)⟩

end Acceptance

/-- With this fuel, every result of an accepted construct is admitted, and the run ends in
agreement. -/
structure SoundWithin (accepted : Acceptance) (fuel : Nat) : Prop where
  /-- An expression gives an admitted value. -/
  expression : ∀ {analyzer machine source tree type value after},
    Analyzer.Types analyzer source tree type → accepted.Agrees analyzer machine →
    evaluate fuel tree machine = .done value after →
    accepted.Admits type value ∧ accepted.Agrees analyzer after
  /-- Expressions give admitted values. -/
  expressions : ∀ {analyzer machine sources trees types values after},
    Analyzer.TypesAll analyzer sources trees types → accepted.Agrees analyzer machine →
    evaluateAll fuel trees machine = .done values after →
    accepted.AdmitsAll types values ∧ accepted.Agrees analyzer after
  /-- An optional expression gives an admitted value, or `NIL`. -/
  optional : ∀ {analyzer machine source tree type value after},
    Analyzer.TypesOption analyzer source tree type → accepted.Agrees analyzer machine →
    evaluateOption fuel tree machine = .done value after →
    (∀ target, (∀ found, type = some found → target.isAssignable found) →
      accepted.Admits target value) ∧ accepted.Agrees analyzer after
  /-- A method of the program gives an admitted value. -/
  call : ∀ {resting machine declared signature arguments value after},
    Analyzer.Rests resting accepted → accepted.Agrees resting (Machine.atGlobals machine) →
    machine.Loads accepted → declared ∈ accepted.program.methods →
    declared.slot = some signature → accepted.AdmitsAll signature.parameters arguments →
    invoke fuel (.method declared machine.globals) arguments machine = .done value after →
    accepted.Admits signature.returns value ∧ accepted.Agrees resting after.atGlobals
  /-- Statements end the method with an admitted value, if at all. -/
  statements : ∀ {analyzer machine sources trees last flow after},
    Analyzer.AcceptsAll analyzer sources trees last → analyzer.active ≠ analyzer.globals →
    accepted.Agrees analyzer machine → executeAll fuel trees machine = .done flow after →
    accepted.Ends analyzer.returns flow ∧
      ∃ reached, analyzer.Grows reached ∧ accepted.Agrees reached after
  /-- Statements in a scope of their own end the method with an admitted value, if at all. -/
  block : ∀ {analyzer machine sources trees last flow after},
    Analyzer.AcceptsBlock analyzer sources trees last → accepted.Agrees analyzer machine →
    executeBlock fuel trees machine = .done flow after →
    accepted.Ends analyzer.returns flow ∧ accepted.Agrees analyzer after
  /-- A statement ends the method with an admitted value, if at all. -/
  statement : ∀ {analyzer machine source tree last flow after},
    Analyzer.Accepts analyzer source tree last → analyzer.active ≠ analyzer.globals →
    accepted.Agrees analyzer machine → execute fuel tree machine = .done flow after →
    accepted.Ends analyzer.returns flow ∧ accepted.Agrees last after
  /-- The rounds of a loop end the method with an admitted value, if at all. -/
  items : ∀ {analyzer machine source name range items body last flow after},
    Analyzer.Accepts analyzer source (.iteration name range body) last →
    accepted.Agrees analyzer machine → (∀ item ∈ items, accepted.Admits .integer item) →
    iterate fuel name items body machine = .done flow after →
    accepted.Ends analyzer.returns flow ∧ accepted.Agrees analyzer after
  /-- The rounds of a loop with a condition end the method with an admitted value, if at all. -/
  rounds : ∀ {analyzer machine source condition body last flow after},
    Analyzer.Accepts analyzer source (.repetition condition body) last →
    accepted.Agrees analyzer machine →
    repetition fuel condition body machine = .done flow after →
    accepted.Ends analyzer.returns flow ∧ accepted.Agrees analyzer after

/-- A call that begins in the global scope ends there. -/
theorem Machine.Becomes.ofInvoke {scopes : FrameId → Prop} {fuel : Nat} {callable : Callable}
    {arguments : List Value} {machine after : Machine} {value : Value}
    (confined : machine.atGlobals.Confined scopes) (within : callable.Within machine.store scopes)
    (invoked : invoke fuel callable arguments machine = .done value after) :
    machine.atGlobals.Becomes scopes [] after.atGlobals := by
  have kept := (runsWithin scopes fuel).call callable arguments machine.atGlobals confined within
  have same : invoke fuel callable arguments machine.atGlobals =
      .done value { after with active := machine.globals } := by
    rw [Machine.atGlobals, invoke_active, invoked]
    rfl
  rw [same] at kept
  have globals : after.globals = machine.globals := kept.globals
  rw [← globals] at kept
  exact kept

/-- Printing gives `NIL`. -/
theorem Host.eq_nil_of_print {host after : Host} {arguments : List Value} {value : Value}
    (printed : host.print arguments = (.ok value, after)) : value = .nil := by
  induction arguments generalizing host with
  | nil =>
    injection printed with same _
    injection same with same
    exact same.symm
  | cons first rest ih =>
    rw [Host.print] at printed
    split at printed
    · exact ih printed
    · injection printed with same _
      contradiction

namespace Acceptance.Agrees

variable {accepted : Acceptance} {analyzer : Analyzer} {machine : Machine}

/-- A method of the global scope was defined there. -/
theorem within (agrees : accepted.Agrees analyzer machine.atGlobals) (declared : Method) :
    (Callable.method declared machine.globals).Within machine.store machine.Outer := by
  have outer : machine.store.ancestors machine.globals = [machine.globals, machine.base] :=
    agrees.running.nested.outer
  refine ⟨Store.lt_size_of_isLive agrees.running.nested.liveGlobals, fun id listed => ?_⟩
  rw [outer] at listed
  simpa [Machine.Outer] using listed

/-- Where a method can be called with admitted arguments, its body begins in agreement. -/
theorem exists_body {source declared : Method} {before after : Analyzer} {arguments : List Value}
    {method : source.Accepted declared before after}
    (agrees : accepted.Agrees method.named machine.atGlobals)
    (admitted : accepted.AdmitsAll method.signature.parameters arguments) :
    ∃ between, (machine.enterMethod machine.globals).defineAll
        ((declared.parameters.map Parameter.name).zip arguments) = (none, between) ∧
      accepted.Agrees { method.entered with returns := some method.signature.returns } between ∧
      method.entered.active ≠ method.entered.globals := by
  obtain ⟨_, _, sizes⟩ := Method.signatureIn_eq_ok method.known
  have apart : method.named.enter.active ≠ method.named.enter.globals :=
    Nat.ne_of_gt (Store.lt_size_of_isLive agrees.standing.nested.liveGlobals)
  have grown := Analyzer.Grows.ofDefineAll method.distinct
  rw [← Method.map_type_parameterVariables sizes] at admitted
  obtain ⟨between, defined, agreesBetween⟩ :=
    agrees.enterMethod.defineAll apart method.distinct admitted
  rw [Method.map_name_parameterVariables sizes, ← method.parameters] at defined
  refine ⟨between, defined, agreesBetween.returns _, ?_⟩
  rw [grown.active, grown.globals]
  exact apart

/-- Both sides agree in the global scope after work in the scope of a method. -/
theorem leaveMethod {innerAnalyzer : Analyzer} {innerMachine : Machine} {names : List String}
    {scopes : FrameId → Prop} (agrees : accepted.Agrees analyzer machine.atGlobals)
    (grown : analyzer.enter.Grows innerAnalyzer)
    (begun : (machine.enterMethod machine.globals).Becomes scopes names innerMachine)
    (inner : accepted.Agrees innerAnalyzer innerMachine)
    (becomes : machine.atGlobals.Becomes machine.Outer []
      (innerMachine.leaveMethod machine.globals machine.active).atGlobals) :
    accepted.Agrees analyzer
      (innerMachine.leaveMethod machine.globals machine.active).atGlobals := by
  rw [Machine.enterMethod_globals] at begun
  have left := agrees.retainGlobals.leave grown begun inner
  have live : machine.store.isLive machine.globals := agrees.running.nested.liveGlobals
  have retained : machine.retainGlobals.Standing := agrees.running.retainGlobals
  refine agrees.become becomes fun pair listed name entry value known held => ?_
  rw [← pairedScopes_retainGlobals live,
    ← pairedScopes_become retained.nested.live (Machine.Becomes.ofEntered begun)] at listed
  have related := left.values pair listed name
  have same : (innerMachine.leave machine.retainGlobals.active).store.localVariable? pair.2 name =
      some value := (Store.localVariable?_release name).symm.trans held
  rw [known, same] at related
  cases related with
  | some admits => exact admits

end Acceptance.Agrees

namespace SoundWithin

variable {accepted : Acceptance} {fuel : Nat} {analyzer last : Analyzer}
variable {machine after : Machine}

/-- An operator is sound with one more unit of fuel. -/
theorem binary_succ (sound : SoundWithin accepted fuel) {source left right : Expr}
    {operator : BinaryOp} {slot : Option Ty} {type : Ty} {value : Value}
    (types : analyzer.Types source (.binary operator left right slot) type)
    (agrees : accepted.Agrees analyzer machine)
    (evaluated : evaluate (fuel + 1) (.binary operator left right slot) machine =
      .done value after) :
    accepted.Admits type value ∧ accepted.Agrees analyzer after := by
  obtain ⟨_, _, leftType, rightType, _, typesLeft, typesRight, typed, _⟩ :=
    types.binary agrees.standing.bare
  obtain ⟨first, between, evaluatedLeft, evaluated⟩ := andThen_eq_done.mp evaluated
  obtain ⟨admittedLeft, agreesBetween⟩ := sound.expression typesLeft agrees evaluatedLeft
  cases logical : operator.isLogical with
  | true =>
    obtain ⟨rfl, _, _⟩ := Typing.binaryType_of_isLogical logical typed
    rw [if_pos logical] at evaluated
    obtain ⟨condition, _, decided, evaluated⟩ := andThen_eq_done.mp evaluated
    obtain ⟨_, rfl⟩ := ofExcept_eq_done.mp decided
    split at evaluated
    · cases evaluated
      exact ⟨fun _ => .inr rfl, agreesBetween⟩
    · obtain ⟨second, ended, evaluatedRight, evaluated⟩ := andThen_eq_done.mp evaluated
      obtain ⟨_, agreesAfter⟩ := sound.expression typesRight agreesBetween evaluatedRight
      obtain ⟨result, _, decidedRight, evaluated⟩ := andThen_eq_done.mp evaluated
      obtain ⟨_, rfl⟩ := ofExcept_eq_done.mp decidedRight
      cases evaluated
      exact ⟨fun _ => .inr rfl, agreesAfter⟩
  | false =>
    simp only [logical] at evaluated
    obtain ⟨second, ended, evaluatedRight, evaluated⟩ := andThen_eq_done.mp evaluated
    obtain ⟨admittedRight, agreesAfter⟩ := sound.expression typesRight agreesBetween evaluatedRight
    obtain ⟨computed, rfl⟩ := ofExcept_eq_done.mp evaluated
    exact ⟨fun unshadowed => Typing.admits_binary typed (admittedLeft unshadowed)
      (admittedRight unshadowed) computed, agreesAfter⟩

/-- A method is sound with one more unit of fuel: its body is accepted where its parameters are all
that is in scope beside the global scope. -/
theorem method_succ (sound : SoundWithin accepted fuel) {resting : Analyzer} {declared : Method}
    {signature : Signature} {arguments : List Value} {value : Value}
    (rests : resting.Rests accepted) (agrees : accepted.Agrees resting machine.atGlobals)
    (loads : machine.Loads accepted) (member : declared ∈ accepted.program.methods)
    (filled : declared.slot = some signature)
    (admitted : accepted.AdmitsAll signature.parameters arguments)
    (invoked : invoke (fuel + 1) (.method declared machine.globals) arguments machine =
      .done value after) :
    accepted.Admits signature.returns value ∧ accepted.Agrees resting after.atGlobals := by
  obtain ⟨source, before, _, _, restsBefore, ⟨method⟩⟩ := accepted.exists_method member
  obtain rfl := Option.some.inj (method.slot.symm.trans filled)
  have restsNamed := restsBefore.named method member
  have agreesNamed : accepted.Agrees method.named machine.atGlobals :=
    agrees.callee rests.knows loads restsNamed
  obtain ⟨between, defined, agreesBetween, apart⟩ :=
    agreesNamed.exists_body admitted
  have live : machine.store.isLive machine.globals := agrees.running.nested.liveGlobals
  have confined : machine.atGlobals.Confined machine.Outer := agrees.confined
  have loadsGlobals : machine.atGlobals.Loads accepted := loads
  have becomes := Machine.Becomes.ofInvoke confined (agreesNamed.within declared) invoked
  simp only [invoke, if_pos live, defined] at invoked
  obtain ⟨flow, left, leaves, ended⟩ := andThen_eq_done.mp invoked
  obtain ⟨inner, executed, rfl⟩ := leaving_eq_done.mp leaves
  cases ended
  obtain ⟨ends, reached, grown, agreesReached⟩ :=
    sound.statements method.body apart agreesBetween executed
  refine ⟨?_, ?_⟩
  · cases flow with
    | normal => exact fun _ => Ty.admits_nil _
    | returned result =>
      obtain ⟨type, known, admits⟩ := ends result rfl
      injection known with known
      exact known ▸ admits
  · have entered := confined.enterMethod live
    obtain ⟨names, _, begun⟩ := Machine.Becomes.ofDefineAll entered defined
    have kept := ((runsWithin machine.Outer fuel).statements declared.body between
      (entered.become begun)).after entered begun
    rw [executed] at kept
    obtain ⟨_, kept⟩ := kept
    have agreesAfter := agreesNamed.leaveMethod (method.grows_of_body grown) kept
      (agreesReached.returns method.entered.returns) becomes
    exact agreesAfter.callee restsNamed.knows (loadsGlobals.become becomes) rests

/-- A call of a method is sound with one more unit of fuel, wherever it stands. -/
theorem invoke_succ (sound : SoundWithin accepted fuel) {declared : Method}
    {arguments : List Value} {value : Value} (agrees : accepted.Agrees analyzer machine)
    (loads : machine.Loads accepted) (member : declared ∈ accepted.program.methods)
    (admitted : ∀ signature, declared.slot = some signature →
      accepted.AdmitsAll signature.parameters arguments)
    (invoked : invoke fuel (.method declared machine.globals) arguments machine =
      .done value after) :
    (∀ signature, declared.slot = some signature → accepted.Admits signature.returns value) ∧
      accepted.Agrees analyzer after := by
  obtain ⟨source, before, _, _, rests, ⟨method⟩⟩ := accepted.exists_method member
  have knows := agrees.knows loads
  have callee := agrees.callee knows loads rests
  obtain ⟨admits, returned⟩ :=
    sound.call rests callee loads member method.slot (admitted _ method.slot) invoked
  refine ⟨fun signature filled => ?_, ?_⟩
  · obtain rfl := Option.some.inj (method.slot.symm.trans filled)
    exact admits
  · have within := callee.within declared
    have kept := (runsWithin machine.Outer fuel).call _ arguments machine agrees.confined within
    rw [invoked] at kept
    exact agrees.resume knows rests kept (Machine.Becomes.ofInvoke callee.confined within invoked)
      returned

/-- A call is sound with one more unit of fuel: the function that the run finds is the one that the
analysis found, unless a method has taken the place of a builtin. -/
theorem call_succ (sound : SoundWithin accepted fuel) {source : Expr} {name : String}
    {arguments : List Expr} {slot : Option Signature} {typeSlot : Option Ty} {type : Ty}
    {value : Value} (types : analyzer.Types source (.call name arguments slot typeSlot) type)
    (agrees : accepted.Agrees analyzer machine)
    (evaluated : evaluate (fuel + 1) (.call name arguments slot typeSlot) machine =
      .done value after) :
    accepted.Admits type value ∧ accepted.Agrees analyzer after := by
  obtain ⟨_, argumentTypes, found, _, typesAll, known, suits, _, rfl, _⟩ :=
    types.call agrees.standing.bare
  obtain ⟨values, between, evaluatedAll, evaluated⟩ := andThen_eq_done.mp evaluated
  obtain ⟨admitted, agreesBetween⟩ := sound.expressions typesAll agrees evaluatedAll
  rw [← admitted.length_eq] at known
  obtain ⟨callable, resolved, resolves⟩ := agreesBetween.exists_callable known
  simp only [resolved] at evaluated
  cases resolves with
  | @builtin builtin _ _ =>
    cases builtin
    cases fuel with
    | zero => contradiction
    | succ fuel =>
      cases printed : between.host.print values with
      | mk result host =>
        simp only [Builtin.callable, invoke, Machine.onHost, printed, ofPair_eq_done] at evaluated
        injection evaluated with same sameAfter
        subst same sameAfter
        rw [Host.eq_nil_of_print printed]
        exact ⟨fun _ => Ty.admits_nil _, agreesBetween.host host⟩
  | @method declared _ loads member answers filled =>
    obtain ⟨admits, agreesAfter⟩ := sound.invoke_succ agreesBetween loads member
      (fun signature same => by
        obtain rfl := Option.some.inj (filled.symm.trans same)
        refine admitted.assign ?_ suits
        rw [accepted.length_parameters member filled answers, admitted.length_eq]) evaluated
    exact ⟨admits found filled, agreesAfter⟩
  | @shadowing builtin declared isBuiltin loads member answers =>
    have shadowed := Acceptance.not_unshadowed isBuiltin member answers
    obtain ⟨_, agreesAfter⟩ := sound.invoke_succ agreesBetween loads member
      (fun signature same => Acceptance.admitsAll_of_shadowed shadowed
        (accepted.length_parameters member same answers).symm) evaluated
    exact ⟨fun unshadowed => absurd unshadowed shadowed, agreesAfter⟩

/-- Expressions are sound with one more unit of fuel. -/
theorem expression_succ (sound : SoundWithin accepted fuel) {source tree : Expr} {type : Ty}
    {value : Value} (types : analyzer.Types source tree type)
    (agrees : accepted.Agrees analyzer machine)
    (evaluated : evaluate (fuel + 1) tree machine = .done value after) :
    accepted.Admits type value ∧ accepted.Agrees analyzer after := by
  have bare := agrees.standing.bare
  cases tree with
  | literal literal slot =>
    cases evaluated
    exact ⟨fun _ => Typing.admits_literal types.literal.1, agrees⟩
  | group inner slot =>
    obtain ⟨_, _, _, typesInner, _⟩ := types.group bare
    exact sound.expression typesInner agrees evaluated
  | binary operator left right slot => exact sound.binary_succ types agrees evaluated
  | «variable» name slot typeSlot =>
    obtain ⟨_, entry, known, _, rfl, _⟩ := types.variable
    obtain ⟨_, _, held, _, _, _, _, found, admits⟩ := agrees.exists_value known
    simp only [evaluate, found] at evaluated
    cases evaluated
    exact ⟨admits, agrees⟩
  | member receiver name slot typeSlot => exact absurd types (Analyzer.Types.not_member bare)
  | call name arguments slot typeSlot => exact sound.call_succ types agrees evaluated
  | memberCall receiver name arguments slot typeSlot =>
    exact absurd types (Analyzer.Types.not_memberCall bare)

/-- Expressions in order are sound with one more unit of fuel. -/
theorem expressions_succ (sound : SoundWithin accepted fuel) {sources trees : List Expr}
    {types : List Ty} {values : List Value} (typesAll : analyzer.TypesAll sources trees types)
    (agrees : accepted.Agrees analyzer machine)
    (evaluated : evaluateAll (fuel + 1) trees machine = .done values after) :
    accepted.AdmitsAll types values ∧ accepted.Agrees analyzer after := by
  cases trees with
  | nil =>
    obtain ⟨_, rfl⟩ := typesAll.nil
    cases evaluated
    exact ⟨trivial, agrees⟩
  | cons first rest =>
    obtain ⟨_, _, firstType, restTypes, _, rfl, typesFirst, typesRest⟩ :=
      typesAll.cons agrees.standing.bare
    obtain ⟨value, between, evaluatedFirst, evaluated⟩ := andThen_eq_done.mp evaluated
    obtain ⟨admits, agreesBetween⟩ := sound.expression typesFirst agrees evaluatedFirst
    obtain ⟨others, ended, evaluatedRest, evaluated⟩ := andThen_eq_done.mp evaluated
    obtain ⟨admitsRest, agreesAfter⟩ := sound.expressions typesRest agreesBetween evaluatedRest
    cases evaluated
    exact ⟨⟨admits, admitsRest⟩, agreesAfter⟩

/-- An optional expression is sound with one more unit of fuel. -/
theorem optional_succ (sound : SoundWithin accepted fuel) {source tree : Option Expr}
    {type : Option Ty} {value : Value} (types : analyzer.TypesOption source tree type)
    (agrees : accepted.Agrees analyzer machine)
    (evaluated : evaluateOption (fuel + 1) tree machine = .done value after) :
    (∀ target, (∀ found, type = some found → target.isAssignable found) →
      accepted.Admits target value) ∧ accepted.Agrees analyzer after := by
  cases tree with
  | none =>
    cases evaluated
    exact ⟨fun target _ _ => Ty.admits_nil target, agrees⟩
  | some tree =>
    obtain ⟨_, found, _, rfl, typesSome⟩ := types.some agrees.standing.bare
    obtain ⟨admits, agreesAfter⟩ := sound.expression typesSome agrees evaluated
    exact ⟨fun target takes => admits.assign (takes found rfl), agreesAfter⟩

/-- Statements are sound with one more unit of fuel: what follows a statement is accepted in the
state after it. -/
theorem statements_succ (sound : SoundWithin accepted fuel) {sources trees : List Stmt}
    {flow : Flow} (accepts : analyzer.AcceptsAll sources trees last)
    (apart : analyzer.active ≠ analyzer.globals) (agrees : accepted.Agrees analyzer machine)
    (executed : executeAll (fuel + 1) trees machine = .done flow after) :
    accepted.Ends analyzer.returns flow ∧
      ∃ reached, analyzer.Grows reached ∧ accepted.Agrees reached after := by
  cases trees with
  | nil =>
    cases executed
    exact ⟨accepted.ends_normal _, analyzer, Analyzer.Extends.refl.grows, agrees⟩
  | cons first rest =>
    obtain ⟨_, _, next, _, acceptsFirst, acceptsRest⟩ := accepts.cons
    have grown := (Analyzer.Accepts.grows agrees.standing.bare first acceptsFirst).1
    obtain ⟨firstFlow, between, executedFirst, executed⟩ := andThen_eq_done.mp executed
    obtain ⟨ends, agreesBetween⟩ := sound.statement acceptsFirst apart agrees executedFirst
    cases firstFlow with
    | normal =>
      have apartNext : next.active ≠ next.globals := by
        rw [grown.active, grown.globals]
        exact apart
      obtain ⟨endsRest, reached, grownRest, agreesAfter⟩ :=
        sound.statements acceptsRest apartNext agreesBetween executed
      rw [grown.returns] at endsRest
      exact ⟨endsRest, reached, grown.trans grownRest, agreesAfter⟩
    | returned value =>
      cases executed
      exact ⟨ends, next, grown, agreesBetween⟩

/-- What is accepted in a new scope is sound in one. -/
theorem enter_succ (sound : SoundWithin accepted fuel) {entered : Analyzer} {begun inner : Machine}
    {sources trees : List Stmt} {flow : Flow} {names : List String}
    (grown : analyzer.enter.Grows entered) (accepts : entered.AcceptsAll sources trees last)
    (agrees : accepted.Agrees analyzer machine) (agreesBegun : accepted.Agrees entered begun)
    (becomes : machine.enter.Becomes machine.Outer names begun)
    (executed : executeAll fuel trees begun = .done flow inner) :
    accepted.Ends analyzer.returns flow ∧
      accepted.Agrees analyzer (inner.leave machine.active) := by
  have apart : entered.active ≠ entered.globals := by
    rw [grown.active, grown.globals]
    exact Nat.ne_of_gt (Store.lt_size_of_isLive agrees.standing.nested.liveGlobals)
  obtain ⟨ends, reached, grownAll, agreesReached⟩ :=
    sound.statements accepts apart agreesBegun executed
  have confined := agrees.confined.enter
  have kept := ((runsWithin machine.Outer fuel).statements trees begun
    (confined.become becomes)).after confined becomes
  rw [executed] at kept
  obtain ⟨_, kept⟩ := kept
  rw [grown.returns] at ends
  exact ⟨ends, agrees.leave (grown.trans grownAll) kept agreesReached⟩

/-- Statements in a scope of their own are sound with one more unit of fuel. -/
theorem block_succ (sound : SoundWithin accepted fuel) {sources trees : List Stmt} {flow : Flow}
    (accepts : analyzer.AcceptsBlock sources trees last) (agrees : accepted.Agrees analyzer machine)
    (executed : executeBlock (fuel + 1) trees machine = .done flow after) :
    accepted.Ends analyzer.returns flow ∧ accepted.Agrees analyzer after := by
  obtain ⟨_, acceptsAll, _⟩ := accepts
  obtain ⟨inner, ran, rfl⟩ := leaving_eq_done.mp executed
  exact sound.enter_succ Analyzer.Extends.refl.grows acceptsAll agrees agrees.enter
    Machine.Becomes.refl ran

/-- A declaration is sound with one more unit of fuel. -/
theorem declaration_succ (sound : SoundWithin accepted fuel) {source : Stmt}
    {declared : Declaration} {flow : Flow}
    (accepts : analyzer.Accepts source (.declaration declared) last)
    (apart : analyzer.active ≠ analyzer.globals) (agrees : accepted.Agrees analyzer machine)
    (executed : execute (fuel + 1) (.declaration declared) machine = .done flow after) :
    accepted.Ends analyzer.returns flow ∧ accepted.Agrees last after := by
  obtain ⟨_, _, type, _, _, types, takes, defined, _⟩ := accepts.declaration agrees.standing.bare
  obtain ⟨value, between, evaluated, executed⟩ := andThen_eq_done.mp executed
  obtain ⟨admits, agreesBetween⟩ := sound.optional types agrees evaluated
  obtain ⟨ended, bound, agreesAfter⟩ :=
    agreesBetween.define (fun _ => apart) defined (admits type takes)
  obtain ⟨_, _, required, executed⟩ := andThen_eq_done.mp executed
  have same := (require_eq_done.mp required).symm.trans bound
  injection same with _ same
  subst same
  cases executed
  exact ⟨accepted.ends_normal _, agreesAfter⟩

/-- An assignment is sound with one more unit of fuel. -/
theorem assignment_succ (sound : SoundWithin accepted fuel) {source : Stmt} {target value : Expr}
    {flow : Flow} (accepts : analyzer.Accepts source (.assignment target value) last)
    (agrees : accepted.Agrees analyzer machine)
    (executed : execute (fuel + 1) (.assignment target value) machine = .done flow after) :
    accepted.Ends analyzer.returns flow ∧ accepted.Agrees last after := by
  have bare := agrees.standing.bare
  obtain ⟨_, _, targetType, _, _, _, typesTarget, typesValue, takes, rfl⟩ := accepts.assignment bare
  cases target with
  | «variable» name slot typeSlot =>
    obtain ⟨_, entry, known, _, rfl, _⟩ := typesTarget.variable
    obtain ⟨content, between, evaluated, executed⟩ := andThen_eq_done.mp executed
    obtain ⟨admits, agreesBetween⟩ := sound.expression typesValue agrees evaluated
    obtain ⟨ended, bound, agreesAfter⟩ := agreesBetween.assign known (admits.assign takes)
    obtain ⟨_, _, required, executed⟩ := andThen_eq_done.mp executed
    have same := (require_eq_done.mp required).symm.trans bound
    injection same with _ same
    subst same
    cases executed
    exact ⟨accepted.ends_normal _, agreesAfter⟩
  | member receiver name slot typeSlot =>
    exact absurd typesTarget (Analyzer.Types.not_member bare)
  | _ => contradiction

/-- A statement is sound with one more unit of fuel. -/
theorem statement_succ (sound : SoundWithin accepted fuel) {source tree : Stmt} {flow : Flow}
    (accepts : analyzer.Accepts source tree last) (apart : analyzer.active ≠ analyzer.globals)
    (agrees : accepted.Agrees analyzer machine)
    (executed : execute (fuel + 1) tree machine = .done flow after) :
    accepted.Ends analyzer.returns flow ∧ accepted.Agrees last after := by
  have bare := agrees.standing.bare
  cases tree with
  | expression value =>
    obtain ⟨_, _, _, _, types, rfl⟩ := accepts.expression bare
    obtain ⟨_, between, evaluated, executed⟩ := andThen_eq_done.mp executed
    cases executed
    exact ⟨accepted.ends_normal _, (sound.expression types agrees evaluated).2⟩
  | declaration declared => exact sound.declaration_succ accepts apart agrees executed
  | assignment target value => exact sound.assignment_succ accepts agrees executed
  | conditional condition yes no =>
    obtain ⟨_, _, _, _, next, _, types, _, _, acceptsYes, acceptsNo⟩ := accepts.conditional bare
    have first := acceptsYes.extends bare
    have second := acceptsNo.extends (first.members.trans bare)
    obtain ⟨_, between, evaluated, executed⟩ := andThen_eq_done.mp executed
    obtain ⟨_, agreesBetween⟩ := sound.expression types agrees evaluated
    obtain ⟨holds, _, decided, executed⟩ := andThen_eq_done.mp executed
    obtain ⟨_, rfl⟩ := ofExcept_eq_done.mp decided
    cases holds with
    | true =>
      obtain ⟨ends, agreesAfter⟩ := sound.block acceptsYes agreesBetween executed
      exact ⟨ends, agreesAfter.extend (first.trans second)⟩
    | false =>
      obtain ⟨ends, agreesAfter⟩ := sound.block acceptsNo (agreesBetween.extend first) executed
      rw [first.returns] at ends
      exact ⟨ends, agreesAfter.extend second⟩
  | iteration name range body =>
    obtain ⟨_, _, _, _, _, _, types, takes, _, _, _, _⟩ := accepts.iteration bare
    have extension := (Analyzer.Accepts.grows bare _ accepts).2 fun _ same => by contradiction
    obtain ⟨value, between, evaluated, executed⟩ := andThen_eq_done.mp executed
    obtain ⟨admits, agreesBetween⟩ := sound.expression types agrees evaluated
    cases value with
    | iterable items =>
      have whole : ∀ item ∈ items, accepted.Admits .integer item := by
        intro item member unshadowed
        rcases (admits unshadowed).assign takes with missing | ⟨_, same, integers⟩
        · contradiction
        · injection same with same
          exact .inr (integers item (same ▸ member))
      obtain ⟨ends, agreesAfter⟩ := sound.items accepts agreesBetween whole executed
      exact ⟨ends, agreesAfter.extend extension⟩
    | _ => contradiction
  | repetition condition body =>
    have extension := (Analyzer.Accepts.grows bare _ accepts).2 fun _ same => by contradiction
    obtain ⟨ends, agreesAfter⟩ := sound.rounds accepts agrees executed
    exact ⟨ends, agreesAfter.extend extension⟩
  | result value =>
    obtain ⟨_, type, returns, _, types, known, takes, rfl⟩ := accepts.result bare
    obtain ⟨content, between, evaluated, executed⟩ := andThen_eq_done.mp executed
    obtain ⟨admits, agreesAfter⟩ := sound.expression types agrees evaluated
    cases executed
    refine ⟨fun result same => ?_, agreesAfter⟩
    injection same with same
    exact ⟨returns, known, same ▸ admits.assign takes⟩

/-- The rounds of a loop are sound with one more unit of fuel. -/
theorem items_succ (sound : SoundWithin accepted fuel) {source : Stmt} {name : String}
    {range : Expr} {items : List Value} {body : List Stmt} {flow : Flow}
    (accepts : analyzer.Accepts source (.iteration name range body) last)
    (agrees : accepted.Agrees analyzer machine)
    (whole : ∀ item ∈ items, accepted.Admits .integer item)
    (executed : iterate (fuel + 1) name items body machine = .done flow after) :
    accepted.Ends analyzer.returns flow ∧ accepted.Agrees analyzer after := by
  cases items with
  | nil =>
    cases executed
    exact ⟨accepted.ends_normal _, agrees⟩
  | cons item items =>
    obtain ⟨_, _, _, entered, _, _, _, _, _, defined, acceptsBody, _⟩ :=
      accepts.iteration agrees.standing.bare
    have apart : analyzer.enter.active ≠ analyzer.enter.globals :=
      Nat.ne_of_gt (Store.lt_size_of_isLive agrees.standing.nested.liveGlobals)
    obtain ⟨begun, bound, agreesBegun⟩ := agrees.enter.define (fun _ => apart) defined
      (whole item List.mem_cons_self)
    replace bound : machine.enter.define name item = (true, begun) := bound
    simp only [iterate, bound] at executed
    obtain ⟨roundFlow, left, leaves, executed⟩ := andThen_eq_done.mp executed
    obtain ⟨inner, ran, rfl⟩ := leaving_eq_done.mp leaves
    obtain ⟨ends, agreesLeft⟩ := sound.enter_succ (Analyzer.Grows.ofDefine defined) acceptsBody
      agrees agreesBegun (Machine.Becomes.ofDefine bound) ran
    cases roundFlow with
    | normal =>
      exact sound.items accepts agreesLeft
        (fun other member => whole other (List.mem_cons_of_mem item member)) executed
    | returned value =>
      cases executed
      exact ⟨ends, agreesLeft⟩

/-- The rounds of a loop with a condition are sound with one more unit of fuel. -/
theorem rounds_succ (sound : SoundWithin accepted fuel) {source : Stmt} {condition : Expr}
    {body : List Stmt} {flow : Flow}
    (accepts : analyzer.Accepts source (.repetition condition body) last)
    (agrees : accepted.Agrees analyzer machine)
    (executed : repetition (fuel + 1) condition body machine = .done flow after) :
    accepted.Ends analyzer.returns flow ∧ accepted.Agrees analyzer after := by
  obtain ⟨_, _, _, _, types, _, acceptsBody⟩ := accepts.repetition agrees.standing.bare
  obtain ⟨_, between, evaluated, executed⟩ := andThen_eq_done.mp executed
  obtain ⟨_, agreesBetween⟩ := sound.expression types agrees evaluated
  obtain ⟨holds, _, decided, executed⟩ := andThen_eq_done.mp executed
  obtain ⟨_, rfl⟩ := ofExcept_eq_done.mp decided
  cases holds with
  | false =>
    cases executed
    exact ⟨accepted.ends_normal _, agreesBetween⟩
  | true =>
    obtain ⟨roundFlow, ended, ran, executed⟩ := andThen_eq_done.mp executed
    obtain ⟨ends, agreesEnded⟩ := sound.block acceptsBody agreesBetween ran
    cases roundFlow with
    | normal => exact sound.rounds accepts agreesEnded executed
    | returned value =>
      cases executed
      exact ⟨ends, agreesEnded⟩

/-- One more unit of fuel keeps runs sound. -/
theorem succ (sound : SoundWithin accepted fuel) : SoundWithin accepted (fuel + 1) where
  expression types agrees evaluated := sound.expression_succ types agrees evaluated
  expressions types agrees evaluated := sound.expressions_succ types agrees evaluated
  optional types agrees evaluated := sound.optional_succ types agrees evaluated
  call rests agrees loads member filled admitted invoked :=
    sound.method_succ rests agrees loads member filled admitted invoked
  statements accepts apart agrees executed := sound.statements_succ accepts apart agrees executed
  block accepts agrees executed := sound.block_succ accepts agrees executed
  statement accepts apart agrees executed := sound.statement_succ accepts apart agrees executed
  items accepts agrees whole executed := sound.items_succ accepts agrees whole executed
  rounds accepts agrees executed := sound.rounds_succ accepts agrees executed

end SoundWithin

/-- With any fuel, every result of an accepted construct is admitted, and the run ends in
agreement. -/
theorem soundWithin (accepted : Acceptance) (fuel : Nat) : SoundWithin accepted fuel := by
  induction fuel with
  | zero =>
    constructor <;> intros <;> contradiction
  | succ fuel ih => exact ih.succ

end LetDef
