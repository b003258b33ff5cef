import LetDef.Proofs.Agreement.Resolution
import LetDef.Proofs.Run.Ending

/-!
# The results of methods

The analysis checks the value of every `RETURN` against the type that is written for the results of
the method (`Method.Accepted.suits`), but not that a run comes to one. So a completed call of a
method has the value of a `RETURN` that the run has come to, or its body has come to its end and the
result is `NIL`, whatever type is written; the latter does not happen where the body is conclusive
(`call_returns_or_falls_through`).
-/
namespace LetDef

/-- The type in the slot of the expression is one that values of this type can be. -/
def Expr.Suits (value : Expr) (target : Ty) : Prop :=
  ∃ type, value.type = some type ∧ target.isAssignable type

namespace Analyzer

mutual

/-- The ends of a method in an accepted statement suit the results of the method. -/
theorem Accepts.suits {analyzer after : Analyzer} (bare : analyzer.members = #[]) {returns : Ty}
    (expected : analyzer.returns = some returns) {source : Stmt} (tree : Stmt)
    (accepts : analyzer.Accepts source tree after) :
    ∀ value ∈ tree.results, value.Suits returns := by
  cases tree with
  | expression | declaration | assignment => exact List.forall_mem_nil _
  | conditional condition accepted rejected =>
    obtain ⟨_, _, _, _, between, _, _, _, _, yes, no⟩ := accepts.conditional bare
    have extension := yes.extends bare
    obtain ⟨_, acceptsYes, _⟩ := yes
    obtain ⟨_, acceptsNo, _⟩ := no
    have first := AcceptsAll.suits (members_enter bare) expected accepted acceptsYes
    have second := AcceptsAll.suits (members_enter (extension.members.trans bare))
      (extension.returns.trans expected) rejected acceptsNo
    exact List.forall_mem_append.mpr ⟨first, second⟩
  | iteration name value body =>
    obtain ⟨_, _, _, entered, _, _, _, _, _, defined, acceptsBody, _⟩ := accepts.iteration bare
    have begun := Grows.ofDefine defined
    exact AcceptsAll.suits (begun.members.trans bare) (begun.returns.trans expected) body
      acceptsBody
  | repetition condition body =>
    obtain ⟨_, _, _, _, _, _, ⟨_, acceptsBody, _⟩⟩ := accepts.repetition bare
    exact AcceptsAll.suits (members_enter bare) expected body acceptsBody
  | result value =>
    obtain ⟨_, type, target, _, types, known, takes, _⟩ := accepts.result bare
    obtain rfl := Option.some.inj (known.symm.trans expected)
    exact List.forall_mem_singleton.mpr ⟨type, types.type_eq bare, takes⟩

/-- The ends of a method in accepted statements suit the results of the method. -/
theorem AcceptsAll.suits {analyzer after : Analyzer} (bare : analyzer.members = #[])
    {returns : Ty} (expected : analyzer.returns = some returns) {sources : List Stmt}
    (trees : List Stmt) (accepts : analyzer.AcceptsAll sources trees after) :
    ∀ value ∈ Stmt.resultsAll trees, value.Suits returns := by
  cases trees with
  | nil => exact List.forall_mem_nil _
  | cons first rest =>
    obtain ⟨_, _, between, _, acceptsFirst, acceptsRest⟩ := accepts.cons
    have begun := Accepts.suits bare expected first acceptsFirst
    have grown := (Accepts.grows bare first acceptsFirst).1
    have ended := AcceptsAll.suits (grown.members.trans bare) (grown.returns.trans expected) rest
      acceptsRest
    exact List.forall_mem_append.mpr ⟨begun, ended⟩

end

end Analyzer

/-- The ends of an accepted method suit its results. -/
theorem Method.Accepted.suits {source tree : Method} {before after : Analyzer}
    (accepted : source.Accepted tree before after) (bare : before.members = #[]) :
    ∀ value ∈ Stmt.resultsAll tree.body, value.Suits accepted.signature.returns := by
  have inside : { accepted.entered with returns := some accepted.signature.returns }.members =
    #[] := accepted.members_entered bare
  exact Analyzer.AcceptsAll.suits inside rfl tree.body accepted.body

namespace Acceptance

variable {analyzer after : Analyzer}

/-- The analysis of fields leaves the types alone. -/
theorem types_after_fields {sources trees : List Field} (blank : analyzer.Blank)
    (passed : Visit.each Field.analyze sources analyzer = ⟨trees, .ok (), after⟩) :
    after.types = analyzer.types := by
  induction trees generalizing sources analyzer with
  | nil =>
    obtain ⟨_, rfl⟩ := Visit.each_nil_eq_ok passed
    rfl
  | cons first rest ih =>
    obtain ⟨_, _, between, _, analyzed, passedRest⟩ := Visit.each_eq_ok passed
    obtain ⟨_, _, _, _, _, _, defined⟩ := Analyzer.field_eq_ok blank.standing.bare analyzed
    calc
      after.types = between.types := ih (blank.pass analyzed) passedRest
      _ = analyzer.types := (Analyzer.Grows.ofDefine defined).types

/-- The methods that the analysis has passed stand for what is written for them. -/
theorem signatureIn_after_methods {sources trees : List Method} (bare : analyzer.members = #[])
    (passed : Visit.each Method.analyze sources analyzer = ⟨trees, .ok (), after⟩) :
    ∀ declared ∈ trees, ∃ signature, declared.slot = some signature ∧
      declared.signatureIn analyzer.types = .ok signature := by
  induction trees generalizing sources analyzer with
  | nil => exact List.forall_mem_nil _
  | cons first rest ih =>
    obtain ⟨source, _, between, _, analyzed, passedRest⟩ := Visit.each_eq_ok passed
    have kept := Method.erase_analyze source analyzer
    rw [analyzed] at kept
    obtain ⟨method⟩ := Method.Accepted.of_analyze analyzed
    obtain ⟨_, same⟩ := Analyzer.defineFunction_eq_ok.mp method.defined
    have extension := method.extends_after bare
    have types : between.types = analyzer.types := by rw [extension.types, same]
    have members : between.members = #[] := by
      rw [extension.members, same]
      exact bare
    have known : first.signatureIn analyzer.types = .ok method.signature :=
      calc
        first.signatureIn analyzer.types = first.erase.signatureIn analyzer.types := rfl
        _ = source.erase.signatureIn analyzer.types := by rw [kept]
        _ = .ok method.signature := method.known
    have others := ih members passedRest
    rw [types] at others
    exact List.forall_mem_cons.mpr ⟨⟨method.signature, method.slot, known⟩, others⟩

/-- The methods of an accepted program stand for what is written for them. -/
theorem signatureIn_eq_ok (accepted : Acceptance) {declared : Method} {signature : Signature}
    (member : declared ∈ accepted.program.methods) (filled : declared.slot = some signature) :
    declared.signatureIn .builtins = .ok signature := by
  have types : accepted.loaded.types = .builtins :=
    types_after_fields Analyzer.fresh_blank accepted.fields
  obtain ⟨_, same, known⟩ := signatureIn_after_methods accepted.rests_loaded.standing.bare
    accepted.methods declared member
  obtain rfl := Option.some.inj (filled.symm.trans same)
  rwa [types] at known

end Acceptance

/-- How the body of a method ends, seen from the task of executing it: at its end, if it is not
conclusive; or with the value of a `RETURN` in it that the run has come to, whose expression suits
the type that is written for the results of the method. -/
inductive Method.Ends (declared : Method) (body : Task) : Flow → Prop where
  | fallen (inconclusive : ¬ Stmt.concludesAny declared.body) : Ends declared body .normal
  | returned {fuel tree machine value after signature}
    (listed : tree ∈ Stmt.resultsAll declared.body)
    (comes : body.Comes (.statement (fuel + 1) (.result tree) machine))
    (evaluated : evaluate fuel tree machine = .done value after)
    (known : declared.signatureIn .builtins = .ok signature)
    (suits : tree.Suits signature.returns) : Ends declared body (.returned value)

/-- A call of a method has this result: its body has begun and has ended in one of these ways, with
this result. -/
def Method.Completes (declared : Method) (call : Task) (value : Value) : Prop :=
  ∃ body flow after, call.Starts (.down [.body]) body ∧ body.flow = .done flow after ∧
    declared.Ends body flow ∧ value = flow.result

namespace AcceptedRun

variable {run : AcceptedRun} {address : Address} {fuel : Nat} {declared : Method}
variable {closure : FrameId} {arguments : List Value} {machine after : Machine} {value : Value}

/-- A call of a method that a run has come to is one of a method of the program, and completes. -/
theorem Reaches.completes
    (reached : run.Reaches address (.call fuel (.method declared closure) arguments machine))
    (invoked : invoke fuel (.method declared closure) arguments machine = .done value after) :
    declared ∈ run.accepted.program.methods ∧
      declared.Completes (.call fuel (.method declared closure) arguments machine) value := by
  obtain ⟨less, between, flow, inner, starts, executed, rfl⟩ := Task.exists_body invoked
  obtain ⟨_, _, _, corresponds⟩ := reached.exists_spot
  cases corresponds with
  | method method rests member =>
    refine ⟨member, _, flow, inner, starts, executed, ?_, rfl⟩
    cases flow with
    | normal =>
      exact .fallen fun concludes =>
        Task.not_normal (.statements less declared.body between) concludes inner executed
    | returned value =>
      obtain ⟨_, tree, _, _, listed, comes, evaluated⟩ :=
        Task.exists_result (.statements less declared.body between) executed
      have known := run.accepted.signatureIn_eq_ok member method.slot
      have suits := method.suits rests.standing.bare tree listed
      exact .returned listed comes evaluated known suits

/-- A run that has a result has come to a call of `main` with this result. -/
theorem exists_main_call (run : AcceptedRun) {value : Value} {after : Machine}
    (ended : Machine.interpret run.fuel run.accepted.program (.fresh run.limit) =
      .done value after) :
    ∃ address main closure machine, main.answers "main" 0 ∧
      run.Reaches address (.call run.fuel (.method main closure) [] machine) ∧
      invoke run.fuel (.method main closure) [] machine = .done value after := by
  have begun : run.Reaches [] (.program run.fuel run.accepted.program (.fresh run.limit)) := .start
  obtain ⟨_, afterFields, fields, ended⟩ := Outcome.andThen_eq_done.mp ended
  obtain ⟨main, member, answers⟩ := run.accepted.exists_main
  obtain ⟨loaded, methods, _, found⟩ := exists_loaded ⟨.start, rfl⟩ begun fields member answers
  rw [methods, Outcome.done_andThen, found] at ended
  exact ⟨_, main, loaded.globals, loaded, answers, begun.step (.main fields methods found), ended⟩

end AcceptedRun

/-- A completed call of a method, in any run of an accepted program, has the value of a `RETURN` in
the body of the method that the call has come to, of a type that suits the results of the method; or
the body has come to its end, which does not happen where it is conclusive, and the result is `NIL`.
The result of a run is that of such a call of `main`. -/
theorem call_returns_or_falls_through {text : String} {program : Program}
    (accepted : Program.ofTextAnalyzed text = .ok program) (fuel : Nat) (limit : Option Nat) :
    (∀ address left declared closure arguments machine value after,
      program.Reaches fuel (.fresh limit) address
        (.call left (.method declared closure) arguments machine) →
      invoke left (.method declared closure) arguments machine = .done value after →
      declared ∈ program.methods ∧
        declared.Completes (.call left (.method declared closure) arguments machine) value) ∧
    ∀ value after, Machine.interpret fuel program (.fresh limit) = .done value after →
      ∃ address main closure machine, main ∈ program.methods ∧ main.answers "main" 0 ∧
        program.Reaches fuel (.fresh limit) address
          (.call fuel (.method main closure) [] machine) ∧
        main.Completes (.call fuel (.method main closure) [] machine) value := by
  obtain ⟨acceptance, _, rfl⟩ := Acceptance.exists_of_ofTextAnalyzed accepted
  let run : AcceptedRun := ⟨acceptance, fuel, limit⟩
  refine ⟨fun address left declared closure arguments machine value after reached invoked => ?_,
    fun value after ended => ?_⟩
  · have begun : run.Reaches address (.call left (.method declared closure) arguments machine) :=
      reached
    exact begun.completes invoked
  · obtain ⟨address, main, closure, machine, answers, reached, invoked⟩ :=
      run.exists_main_call ended
    obtain ⟨member, completes⟩ := reached.completes invoked
    exact ⟨address, main, closure, machine, member, answers, reached, completes⟩

/-- A program with a method whose body is a loop without an end around a choice. -/
def conclusiveText : String :=
  "DEF sign(x: Integer): Integer DO WHILE TRUE DO IF x < 0 DO RETURN 1; ELSE RETURN 2; END " ++
    "END END DEF main(): Integer DO RETURN sign(5); END"

/-- A run through a loop and a choice that are conclusive has a call of `main` as its result. -/
theorem call_returns_or_falls_through_loop :
    ∃ program value after, Program.ofTextAnalyzed conclusiveText = .ok program ∧
      Machine.interpret 30 program (.fresh none) = .done value after ∧ value.same (.integer 2) ∧
      ∃ address main closure machine, main ∈ program.methods ∧ Stmt.concludesAny main.body ∧
        program.Reaches 30 (.fresh none) address (.call 30 (.method main closure) [] machine) ∧
        main.Completes (.call 30 (.method main closure) [] machine) value := by
  have computed : (Program.ofTextAnalyzed conclusiveText).toOption.any fun program =>
      program.methods.all (Stmt.concludesAny ·.body) &&
        (Machine.interpret 30 program (.fresh none)).value?.any (·.same (.integer 2)) := by
    decide +kernel
  obtain ⟨program, accepted, passed⟩ := exists_ok_of_any computed
  rw [Bool.and_eq_true, List.all_eq_true] at passed
  obtain ⟨concludes, yields⟩ := passed
  obtain ⟨value, after, ended, same⟩ := Outcome.exists_of_any yields
  obtain ⟨address, main, closure, machine, member, _, reached, completes⟩ :=
    (call_returns_or_falls_through accepted 30 none).2 value after ended
  exact ⟨program, value, after, accepted, ended, same, address, main, closure, machine, member,
    concludes main member, reached, completes⟩

/-- A program without a `RETURN`. -/
def fallenText : String :=
  "DEF main(): Integer DO END"

/-- A method without any `RETURN` is accepted, whatever type is written for its results: the run of
such a `main` has the result `NIL`, not an integer. -/
theorem call_returns_or_falls_through_fallen :
    ∃ program address main closure machine signature value after,
      Program.ofTextAnalyzed fallenText = .ok program ∧
      program.Reaches 9 (.fresh none) address (.call 9 (.method main closure) [] machine) ∧
      main.signatureIn .builtins = .ok signature ∧ signature.returns = .integer ∧
      Machine.interpret 9 program (.fresh none) = .done value after ∧
      invoke 9 (.method main closure) [] machine = .done value after ∧ value.kind = .nil ∧
      Stmt.resultsAll main.body = [] := by
  have computed : (Program.ofTextAnalyzed fallenText).toOption.any fun program =>
      (program.methods.all fun declared => (Stmt.resultsAll declared.body).isEmpty &&
        (declared.signatureIn .builtins).toOption.any (·.returns = .integer)) &&
      (Machine.interpret 9 program (.fresh none)).value?.any (·.kind = .nil) := by decide +kernel
  obtain ⟨program, accepted, passed⟩ := exists_ok_of_any computed
  rw [Bool.and_eq_true, List.all_eq_true] at passed
  obtain ⟨others, yields⟩ := passed
  obtain ⟨value, after, ended, isNil⟩ := Outcome.exists_of_any yields
  obtain ⟨acceptance, _, rfl⟩ := Acceptance.exists_of_ofTextAnalyzed accepted
  let run : AcceptedRun := ⟨acceptance, 9, none⟩
  obtain ⟨address, main, closure, machine, _, reached, invoked⟩ :=
    run.exists_main_call ended
  have member := (reached.completes invoked).1
  have shape := others main member
  rw [Bool.and_eq_true, List.isEmpty_iff] at shape
  obtain ⟨empty, typed⟩ := shape
  cases known : main.signatureIn .builtins with
  | error error =>
    rw [known] at typed
    contradiction
  | ok signature =>
    rw [known] at typed
    exact ⟨_, address, main, closure, machine, signature, value, after, accepted, reached, known,
      of_decide_eq_true typed, ended, invoked, of_decide_eq_true isNil, empty⟩

end LetDef
