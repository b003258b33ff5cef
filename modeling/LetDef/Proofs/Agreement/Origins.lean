import LetDef.Proofs.Agreement.Soundness
import LetDef.Proofs.Run.Task

/-!
# Where bindings come from

A state of the analysis `AcceptedRun.Meets` a state of a run of the same program, before its methods
are defined or after it, if the two agree and every name that is bound in a scope of the run was
bound there by the very construct that bound it in the scope of the analysis at the same depth
(`Program.Origin`). Evaluating expressions and executing statements keeps this, provided that what a
declaration adds comes from the same declaration on both sides.
-/
namespace LetDef

/-- One construct has bound the name in both scopes: in the first when the analysis of the source
came to it, in the second when the run of the program did. A scope binds a name at most once, so
there is only one such construct. -/
def Program.Origin (source program : Program) (fuel : Nat) (limit : Option Nat)
    (known bound : FrameId) (name : String) : Prop :=
  ∃ site spot task, source.Visits .fresh site spot ∧ program.Reaches fuel (.fresh limit) site task ∧
    spot.Binds known name ∧ task.Binds bound name

/-- A run of an accepted program. -/
structure AcceptedRun where
  /-- The program and its analysis. -/
  accepted : Acceptance
  /-- The fuel of the run. -/
  fuel : Nat
  /-- How much the output takes. -/
  limit : Option Nat

namespace AcceptedRun

/-- The run comes to this task. -/
def Reaches (run : AcceptedRun) : Address → Task → Prop :=
  run.accepted.program.Reaches run.fuel (.fresh run.limit)

/-- One construct has bound the name in both scopes. -/
def Origin (run : AcceptedRun) : FrameId → FrameId → String → Prop :=
  run.accepted.source.Origin run.accepted.program run.fuel run.limit

/-- Both states agree, the machine has the methods if they are loaded, and names that are bound in
scopes side by side have one origin. -/
structure Meets (run : AcceptedRun) (loaded : Bool) (analyzer : Analyzer) (machine : Machine) :
    Prop where
  /-- The states agree. -/
  agrees : run.accepted.Agrees analyzer machine
  /-- The functions of the global scope are the methods, once these are loaded. -/
  functions : ∀ name arity, machine.store.localFunction? machine.globals name arity =
    if loaded then (run.accepted.program.method? name arity).map (Callable.method · machine.globals)
    else none
  /-- The names have one origin. -/
  sited : ∀ pair ∈ pairedScopes analyzer machine, ∀ name,
    (machine.store.localVariable? pair.2 name).isSome → run.Origin pair.1 pair.2 name

namespace Meets

variable {run : AcceptedRun} {loaded : Bool} {analyzer later last : Analyzer}
variable {machine after : Machine}
variable {scopes : FrameId → Prop} {names : List String} {fuel : Nat}

/-- The states meet after both have changed as they may, if they agree then and each new name has
one origin. -/
theorem pass (meets : run.Meets loaded analyzer machine) (grown : analyzer.Grows later)
    (becomes : machine.Becomes scopes names after) (agrees : run.accepted.Agrees later after)
    (new : ∀ name ∈ names, run.Origin analyzer.active machine.active name) :
    run.Meets loaded later after where
  agrees := agrees
  functions name arity := by
    rw [becomes.globals, becomes.store.localFunction?_eq]
    exact meets.functions name arity
  sited pair member name bound := by
    rw [pairedScopes_grow meets.agrees.live grown,
      pairedScopes_become meets.agrees.liveRun becomes] at member
    have old := lt_size_of_mem_pairedScopes meets.agrees.live meets.agrees.liveRun member
    by_cases held : (machine.store.localVariable? pair.2 name).isSome
    · exact meets.sited pair member name held
    · rw [becomes.isSome_localVariable? old.2, Bool.eq_false_iff.mpr held, Bool.false_or,
        decide_eq_true_iff] at bound
      split at bound
      next active =>
        have paired := active_mem_pairedScopes analyzer machine
        have known := (pairedScopes_unique member paired).mpr active
        rw [known, active]
        exact new name bound
      next => contradiction

/-- The states meet after the run has changed scopes without adding names. -/
theorem keep (meets : run.Meets loaded analyzer machine) (becomes : machine.Becomes scopes [] after)
    (agrees : run.accepted.Agrees analyzer after) : run.Meets loaded analyzer after :=
  meets.pass Analyzer.Extends.refl.grows becomes agrees fun _ listed =>
    absurd listed List.not_mem_nil

/-- The states meet after the analysis has made scopes and left them. -/
theorem extend (meets : run.Meets loaded analyzer machine) (extension : analyzer.Extends later) :
    run.Meets loaded later machine := by
  have becomes : machine.Becomes machine.Outer [] machine := Machine.Becomes.refl
  exact meets.pass extension.grows becomes (meets.agrees.extend extension) fun _ listed =>
    absurd listed List.not_mem_nil

/-- The type of the results does not matter. -/
theorem returns (meets : run.Meets loaded analyzer machine) (returns : Option Ty) :
    run.Meets loaded { analyzer with returns } machine :=
  ⟨meets.agrees.returns returns, meets.functions, meets.sited⟩

/-- The states meet in a new scope on each side. -/
theorem enter (meets : run.Meets loaded analyzer machine) :
    run.Meets loaded analyzer.enter machine.enter where
  agrees := meets.agrees.enter
  functions name arity := (Store.localFunction?_child name arity).trans (meets.functions name arity)
  sited pair member name bound := by
    replace bound : ((machine.store.child machine.active).2.localVariable? pair.2 name).isSome :=
      bound
    rw [pairedScopes_enter meets.agrees.live meets.agrees.liveRun] at member
    rw [Store.localVariable?_child] at bound
    rcases List.mem_cons.mp member with rfl | member
    · have fresh : machine.enter.active = machine.store.frames.size := rfl
      rw [if_pos fresh] at bound
      contradiction
    · have old := lt_size_of_mem_pairedScopes meets.agrees.live meets.agrees.liveRun member
      rw [if_neg (Nat.ne_of_lt old.2)] at bound
      exact meets.sited pair member name bound

/-- At the start the states meet. -/
theorem start (run : AcceptedRun) : run.Meets false .fresh (.fresh run.limit) := by
  have known : Analyzer.fresh.store.ancestors Analyzer.fresh.active = _ :=
    Analyzer.fresh_standing.nested.outer
  have bound : (Machine.fresh run.limit).store.ancestors (Machine.fresh run.limit).active = _ :=
    (Machine.fresh_standing run.limit).nested.outer
  have blank := Store.localVariable?_of_frames (Machine.frames_fresh run.limit)
  have empty := Store.localFunction?_of_frames (Machine.frames_fresh run.limit) 1
  have unbound : ∀ pair ∈ pairedScopes .fresh (.fresh run.limit), ∀ name,
      Analyzer.fresh.store.localVariable? pair.1 name = none ∧
        (Machine.fresh run.limit).store.localVariable? pair.2 name = none :=
    fun pair _ name => ⟨Store.localVariable?_of_frames Analyzer.frames_fresh pair.1 name,
      blank pair.2 name⟩
  refine ⟨⟨Analyzer.fresh_standing, Machine.fresh_standing run.limit, ?_,
    fun pair member name => ?_, .inl ⟨Analyzer.fresh_blank.functions, empty⟩⟩, empty,
    fun pair member name bound => ?_⟩
  · rw [known, bound]
    rfl
  · rw [(unbound pair member name).1, (unbound pair member name).2]
    exact .none
  · rw [(unbound pair member name).2] at bound
    contradiction

/-- The states meet after an expression. -/
theorem evaluate (meets : run.Meets loaded analyzer machine) {source tree : Expr} {type : Ty}
    {value : Value} (types : analyzer.Types source tree type)
    (evaluated : evaluate fuel tree machine = .done value after) :
    run.accepted.Admits type value ∧ run.Meets loaded analyzer after := by
  obtain ⟨admits, agrees⟩ :=
    (soundWithin run.accepted fuel).expression types meets.agrees evaluated
  have kept := (runsWithin machine.Outer fuel).expression tree machine meets.agrees.confined
  rw [evaluated] at kept
  exact ⟨admits, meets.keep kept agrees⟩

/-- The states meet after expressions. -/
theorem evaluateAll (meets : run.Meets loaded analyzer machine) {sources trees : List Expr}
    {types : List Ty} {values : List Value} (typesAll : analyzer.TypesAll sources trees types)
    (evaluated : evaluateAll fuel trees machine = .done values after) :
    run.accepted.AdmitsAll types values ∧ run.Meets loaded analyzer after := by
  obtain ⟨admits, agrees⟩ :=
    (soundWithin run.accepted fuel).expressions typesAll meets.agrees evaluated
  have kept := (runsWithin machine.Outer fuel).expressions trees machine meets.agrees.confined
  rw [evaluated] at kept
  exact ⟨admits, meets.keep kept agrees⟩

/-- The states meet after an optional expression. -/
theorem evaluateOption (meets : run.Meets loaded analyzer machine) {source tree : Option Expr}
    {type : Option Ty} {value : Value} (types : analyzer.TypesOption source tree type)
    (evaluated : evaluateOption fuel tree machine = .done value after) :
    (∀ target, (∀ found, type = some found → target.isAssignable found) →
      run.accepted.Admits target value) ∧ run.Meets loaded analyzer after := by
  obtain ⟨admits, agrees⟩ :=
    (soundWithin run.accepted fuel).optional types meets.agrees evaluated
  have kept := (runsWithin machine.Outer fuel).optional tree machine meets.agrees.confined
  rw [evaluated] at kept
  exact ⟨admits, meets.keep kept agrees⟩

/-- The states meet after a statement, if what it declares has one origin. -/
theorem execute (meets : run.Meets loaded analyzer machine) {source tree : Stmt} {flow : Flow}
    (accepts : analyzer.Accepts source tree last) (apart : analyzer.active ≠ analyzer.globals)
    (executed : execute fuel tree machine = .done flow after)
    (new : ∀ name ∈ tree.declared, run.Origin analyzer.active machine.active name) :
    run.Meets loaded last after := by
  obtain ⟨_, agrees⟩ :=
    (soundWithin run.accepted fuel).statement accepts apart meets.agrees executed
  have kept := (runsWithin machine.Outer fuel).statement tree machine meets.agrees.confined
  rw [executed] at kept
  have grown := (Analyzer.Accepts.grows meets.agrees.standing.bare tree accepts).1
  exact meets.pass grown kept agrees new

/-- The states meet after statements in a scope of their own. -/
theorem executeBlock (meets : run.Meets loaded analyzer machine) {sources trees : List Stmt}
    {flow : Flow} (accepts : analyzer.AcceptsBlock sources trees last)
    (executed : executeBlock fuel trees machine = .done flow after) :
    run.Meets loaded analyzer after := by
  obtain ⟨_, agrees⟩ := (soundWithin run.accepted fuel).block accepts meets.agrees executed
  have kept := (runsWithin machine.Outer fuel).block trees machine meets.agrees.confined
  rw [executed] at kept
  exact meets.keep kept agrees

/-- The states meet after both have added a variable that has one origin. -/
theorem define (meets : run.Meets loaded analyzer machine) {entry : Variable} {value : Value}
    (defined : analyzer.define entry = (.ok (), later))
    (bound : machine.define entry.name value = (true, after))
    (agrees : run.accepted.Agrees later after)
    (new : run.Origin analyzer.active machine.active entry.name) :
    run.Meets loaded later after := by
  have becomes : machine.Becomes machine.Outer [entry.name] after := Machine.Becomes.ofDefine bound
  exact meets.pass (Analyzer.Grows.ofDefine defined) becomes agrees fun _ listed =>
    List.mem_singleton.mp listed ▸ new

/-- Once the methods are loaded, the machine has them. -/
theorem loads (meets : run.Meets true analyzer machine) : machine.Loads run.accepted :=
  meets.functions

/-- Where the machine has the methods, they are loaded. -/
theorem loaded_eq (meets : run.Meets loaded analyzer machine) (loads : machine.Loads run.accepted) :
    loaded = true := by
  obtain ⟨declared, member, answers⟩ := run.accepted.exists_main
  have function := loads "main" 0
  rw [meets.functions, run.accepted.method?_eq_some_iff.mpr ⟨member, answers⟩] at function
  cases loaded with
  | true => rfl
  | false => contradiction

/-- A method is called where the states meet in the global scope. -/
theorem callee (meets : run.Meets true analyzer machine) {resting : Analyzer}
    (rests : resting.Rests run.accepted) : run.Meets true resting machine.atGlobals := by
  have knows := meets.agrees.knows meets.loads
  refine ⟨meets.agrees.callee knows meets.loads rests, meets.functions,
    fun pair member name bound => ?_⟩
  have both : pairedScopes resting machine.atGlobals =
      [(resting.globals, machine.globals), (resting.base, machine.base)] := by
    have first := rests.standing.nested.outer
    have second : machine.atGlobals.store.ancestors machine.atGlobals.active =
      [machine.globals, machine.base] := meets.agrees.running.nested.outer
    rw [pairedScopes, rests.resting, first, second]
    rfl
  rw [both, List.mem_cons, List.mem_singleton] at member
  rcases member with rfl | rfl
  · obtain ⟨inner, pairs, _⟩ := meets.agrees.pairedScopes_eq
    have globals : resting.globals = analyzer.globals :=
      rests.knows.globals.trans knows.globals.symm
    rw [globals]
    exact meets.sited (analyzer.globals, machine.globals)
      (pairs ▸ List.mem_append_right _ List.mem_cons_self) name bound
  · have unbound : machine.atGlobals.store.localVariable? machine.base name = none :=
      meets.agrees.running.locals name
    rw [unbound] at bound
    contradiction

/-- The states meet in the scope of a method. -/
theorem enterMethod (meets : run.Meets loaded analyzer machine.atGlobals) :
    run.Meets loaded analyzer.enter (machine.enterMethod machine.globals) := by
  have live : machine.store.isLive machine.globals := meets.agrees.running.nested.liveGlobals
  have retained : run.Meets loaded analyzer machine.retainGlobals := by
    refine ⟨meets.agrees.retainGlobals,
      fun name arity => (Store.localFunction?_retain name arity).trans (meets.functions name arity),
      fun pair member name bound => ?_⟩
    replace bound : ((machine.store.retain machine.globals).localVariable? pair.2 name).isSome :=
      bound
    rw [pairedScopes_retainGlobals live] at member
    rw [Store.localVariable?_retain] at bound
    exact meets.sited pair member name bound
  rw [Machine.enterMethod_globals]
  exact retained.enter

/-- The states meet where the body of a method begins, if its parameters have one origin. -/
theorem exists_body {source declared : Method} {before ended : Analyzer} {arguments : List Value}
    {method : source.Accepted declared before ended}
    (meets : run.Meets loaded method.named machine.atGlobals)
    (admitted : run.accepted.AdmitsAll method.signature.parameters arguments)
    (new : ∀ name ∈ declared.parameters.map Parameter.name,
      run.Origin method.named.enter.active (machine.enterMethod machine.globals).active name) :
    ∃ between, (machine.enterMethod machine.globals).defineAll
        ((declared.parameters.map Parameter.name).zip arguments) = (none, between) ∧
      run.Meets loaded { method.entered with returns := some method.signature.returns } between ∧
      method.entered.active ≠ method.entered.globals := by
  obtain ⟨between, defined, agrees, apart⟩ := meets.agrees.exists_body admitted
  have entered := meets.enterMethod
  obtain ⟨names, listed, becomes⟩ : ∃ names ⊆
      ((declared.parameters.map Parameter.name).zip arguments).map Prod.fst,
      (machine.enterMethod machine.globals).Becomes machine.Outer names between :=
    Machine.Becomes.ofDefineAll entered.agrees.confined defined
  have body := entered.pass (Analyzer.Grows.ofDefineAll method.distinct) becomes
    (agrees.returns method.entered.returns) fun name member => new name ?_
  · exact ⟨between, defined, body.returns _, apart⟩
  · obtain ⟨pair, inside, rfl⟩ := List.mem_map.mp (listed member)
    exact (List.of_mem_zip inside).1

end Meets

end AcceptedRun

end LetDef
