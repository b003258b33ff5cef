import LetDef.Machine.Evaluation

/-!
# What runs do to a machine

A run changes a machine in few ways: it defines and assigns variables of the active scope, it lets
functions of the host act, and it works in a new scope, which it gives up again. Whatever these
changes do, and changes one after the other, every run does, for all expressions, statements and
calls and however it ends. `Effect` collects these laws for one kind of change, and
`Effect.runsWithin` is the induction on the fuel that every such fact about runs comes from.
-/
namespace LetDef

namespace Machine

/-- Adding a variable binds its name in the active scope, if that does not bind it yet. -/
theorem define_eq (machine : Machine) (name : String) (value : Value) :
    machine.define name value =
      if (machine.store.localVariable? machine.active name).isSome then (false, machine)
      else (true, { machine with
        store := machine.store.bindVariable machine.active name value }) := by
  by_cases bound : (machine.store.localVariable? machine.active name).isSome <;>
    simp only [define, onStore, Store.defineVariable, bound, if_true,
      Bool.false_eq_true, if_false]

/-- Overwriting a variable binds its name in the scope that binds it. -/
theorem assign_eq (machine : Machine) (name : String) (value : Value) :
    machine.assign name value =
      match machine.store.binder? machine.active name with
      | none => (false, machine)
      | some binder =>
        (true, { machine with store := machine.store.bindVariable binder name value }) := by
  cases found : machine.store.binder? machine.active name <;>
    simp only [assign, onStore, Store.assignVariable, found]

/-- A definition that fails changes nothing. -/
theorem eq_of_define_false {machine after : Machine} {name : String} {value : Value}
    (refused : machine.define name value = (false, after)) : after = machine := by
  rw [define_eq] at refused
  split at refused
  · injection refused with _ same
    exact same.symm
  · cases refused

end Machine

/-- The name that a statement adds to the scope in which it stands. -/
def Stmt.declared : Stmt → List String
  | .declaration declared => [declared.name]
  | _ => []

section Outcomes

variable {α β : Type} {change : List String → Machine → Machine → Prop} {machine : Machine}

/-- Whichever way an outcome ends within its fuel, its state is one of these. -/
def Outcome.Leaves (outcome : Outcome α) (done failed : Machine → Prop) : Prop :=
  match outcome with
  | .done _ machine => done machine
  | .failed _ machine => failed machine
  | .exhausted => True

/-- However it ends, a run that began in `machine` has changed it and added no name to the active
scope. -/
def Outcome.Keeps (outcome : Outcome α) (change : List String → Machine → Machine → Prop)
    (machine : Machine) : Prop :=
  outcome.Leaves (change [] machine) (change [] machine)

/-- However it ends, a run that began in `machine` has changed it and may have added names to the
active scope. -/
def Outcome.Grows (outcome : Outcome α) (change : List String → Machine → Machine → Prop)
    (machine : Machine) : Prop :=
  outcome.Leaves (fun after => ∃ names, change names machine after)
    fun after => ∃ names, change names machine after

/-- The state at the end of a run that ends within its fuel, with a result or with an error. -/
def Outcome.state? : Outcome α → Option Machine
  | .done _ machine | .failed _ machine => some machine
  | .exhausted => none

/-- What holds of the state of an outcome, however it ends, holds of the state at its end. -/
theorem Outcome.Leaves.state {outcome : Outcome α} {holds : Machine → Prop} {after : Machine}
    (leaves : outcome.Leaves holds holds) (ended : outcome.state? = some after) : holds after := by
  cases outcome with
  | done value machine => exact Option.some.inj ended ▸ leaves
  | failed error machine => exact Option.some.inj ended ▸ leaves
  | exhausted => cases ended

/-- What holds of the state of an outcome with a result holds at its end. -/
theorem Outcome.Leaves.of_done {outcome : Outcome α} {done failed : Machine → Prop} {value : α}
    {after : Machine} (leaves : outcome.Leaves done failed)
    (ended : outcome = .done value after) : done after := by
  rw [ended] at leaves
  exact leaves

/-- What goes on after an outcome has its state or that of what follows. -/
theorem Outcome.Leaves.andThen {outcome : Outcome α} {go : α → Machine → Outcome β}
    {between done failed : Machine → Prop} (first : outcome.Leaves between failed)
    (second : ∀ value after, between after → (go value after).Leaves done failed) :
    (outcome.andThen go).Leaves done failed := by
  cases outcome with
  | done value after => exact second value after first
  | failed error after => exact first
  | exhausted => trivial

/-- What has added no name has added some names at most. -/
theorem Outcome.Keeps.grows {outcome : Outcome α} (keeps : outcome.Keeps change machine) :
    outcome.Grows change machine := by
  cases outcome with
  | done value after => exact ⟨[], keeps⟩
  | failed error after => exact ⟨[], keeps⟩
  | exhausted => trivial

end Outcomes

/-- The laws of a kind of change, `change names before after`, in which the active scope gains
`names`: in machines that are ready for it, and with calls that they permit, the steps of runs are
such changes. -/
structure Effect (ready : Machine → Prop) (permits : Machine → Callable → Prop)
    (change : List String → Machine → Machine → Prop) : Prop where
  /-- A change leaves a machine ready. -/
  carry : ∀ {names before after}, ready before → change names before after → ready after
  /-- Two changes one after the other are one change. -/
  trans : ∀ {names more before middle after}, ready before → change names before middle →
    change more middle after → change (names ++ more) before after
  /-- Nothing need change. -/
  refl : ∀ {machine}, change [] machine machine
  /-- A function of the host that may be called may act. -/
  native : ∀ {machine run arguments result host}, ready machine → permits machine (.native run) →
    run machine.host arguments = (result, host) → change [] machine { machine with host }
  /-- A field of an object may be assigned. -/
  field : ∀ {machine id name value success host},
    machine.host.assign id name value = (success, host) → change [] machine { machine with host }
  /-- A variable may be defined. -/
  define : ∀ {machine after name value}, machine.define name value = (true, after) →
    change [name] machine after
  /-- A variable may be assigned. -/
  assign : ∀ {machine after name value success}, machine.assign name value = (success, after) →
    change [] machine after
  /-- A new scope inside the active one may be entered. -/
  enter : ∀ {machine}, ready machine → ready machine.enter
  /-- A new scope inside the active one may be left. -/
  leave : ∀ {names machine after}, change names machine.enter after →
    change [] machine (after.leave machine.active)
  /-- The scope of a method may be entered. -/
  enterMethod : ∀ {machine declared closure}, ready machine →
    permits machine (.method declared closure) → machine.store.isLive closure →
    ready (machine.enterMethod closure)
  /-- The scope of a method may be left. -/
  leaveMethod : ∀ {names machine after declared closure},
    permits machine (.method declared closure) → machine.store.isLive closure →
    change names (machine.enterMethod closure) after →
    change [] machine (after.leaveMethod closure machine.active)
  /-- The functions that are found may be called. -/
  function : ∀ {machine name arity callable}, ready machine →
    machine.findFunction? name arity = some callable → permits machine callable
  /-- The methods of objects may be called. -/
  method : ∀ {machine owner name arity callable}, ready machine →
    machine.method owner name arity = .ok callable → permits machine callable

/-- With this fuel, every run that begins in a ready machine changes it so. -/
structure RunsWithin (ready : Machine → Prop) (permits : Machine → Callable → Prop)
    (change : List String → Machine → Machine → Prop) (fuel : Nat) : Prop where
  /-- Evaluating an expression adds no name. -/
  expression : ∀ value machine, ready machine → (evaluate fuel value machine).Keeps change machine
  /-- Evaluating expressions adds no name. -/
  expressions : ∀ values machine, ready machine →
    (evaluateAll fuel values machine).Keeps change machine
  /-- Evaluating an optional expression adds no name. -/
  optional : ∀ value machine, ready machine →
    (evaluateOption fuel value machine).Keeps change machine
  /-- A call adds no name. -/
  call : ∀ callable arguments machine, ready machine → permits machine callable →
    (invoke fuel callable arguments machine).Keeps change machine
  /-- Statements add names to the active scope alone. -/
  statements : ∀ body machine, ready machine →
    (executeAll fuel body machine).Grows change machine
  /-- Statements in a scope of their own add no name. -/
  block : ∀ body machine, ready machine → (executeBlock fuel body machine).Keeps change machine
  /-- A statement adds the name that it declares, unless it fails. -/
  statement : ∀ statement machine, ready machine →
    (execute fuel statement machine).Leaves
      (change statement.declared machine) (change [] machine)
  /-- The rounds of a loop add no name. -/
  items : ∀ name items body machine, ready machine →
    (iterate fuel name items body machine).Keeps change machine
  /-- The rounds of a loop with a condition add no name. -/
  rounds : ∀ condition body machine, ready machine →
    (repetition fuel condition body machine).Keeps change machine

namespace Effect

variable {ready : Machine → Prop} {permits : Machine → Callable → Prop}
variable {change : List String → Machine → Machine → Prop}
variable {α β : Type} {machine between after : Machine} {names : List String} {fuel : Nat}

/-- A result without a change. -/
theorem keeps_done (effect : Effect ready permits change) (value : α) :
    (Outcome.done value machine).Keeps change machine :=
  effect.refl

/-- An error without a change. -/
theorem keeps_failed (effect : Effect ready permits change) (error : RuntimeError) :
    (Outcome.failed (α := α) error machine).Keeps change machine :=
  effect.refl

/-- A result or an error without a change. -/
theorem keeps_ofExcept (effect : Effect ready permits change) (result : Except RuntimeError α) :
    (Outcome.ofExcept result machine).Keeps change machine := by
  cases result <;> exact effect.refl

/-- A run that adds no name may be followed by one that adds none. -/
theorem andThen (effect : Effect ready permits change) {outcome : Outcome α}
    {go : α → Machine → Outcome β} (begins : ready machine) (first : outcome.Keeps change machine)
    (second : ∀ value after, ready after → (go value after).Keeps change after) :
    (outcome.andThen go).Keeps change machine := by
  refine Outcome.Leaves.andThen first fun value between begun => ?_
  have later := second value between (effect.carry begins begun)
  cases followed : go value between with
  | done result after =>
    rw [followed] at later
    exact effect.trans begins begun later
  | failed error after =>
    rw [followed] at later
    exact effect.trans begins begun later
  | exhausted => trivial

/-- What follows a change adds names to the same scope. -/
theorem follow (effect : Effect ready permits change) {outcome : Outcome α} (begins : ready machine)
    (begun : change names machine between) (ended : outcome.Grows change between) :
    outcome.Grows change machine := by
  cases outcome with
  | done value after =>
    obtain ⟨more, changed⟩ := ended
    exact ⟨names ++ more, effect.trans begins begun changed⟩
  | failed error after =>
    obtain ⟨more, changed⟩ := ended
    exact ⟨names ++ more, effect.trans begins begun changed⟩
  | exhausted => trivial

/-- What happens in a new scope inside the active one adds no name outside. -/
theorem leaving (effect : Effect ready permits change) {outcome : Outcome α}
    (inner : outcome.Grows change machine.enter) :
    (outcome.leaving (·.leave machine.active)).Keeps change machine := by
  cases outcome with
  | done value after =>
    obtain ⟨names, changed⟩ := inner
    exact effect.leave changed
  | failed error after =>
    obtain ⟨names, changed⟩ := inner
    exact effect.leave changed
  | exhausted => trivial

/-- What happens in the scope of a method adds no name outside. -/
theorem leavingMethod (effect : Effect ready permits change) {outcome : Outcome α}
    {declared : Method} {closure : FrameId} (permitted : permits machine (.method declared closure))
    (live : machine.store.isLive closure)
    (inner : outcome.Grows change (machine.enterMethod closure)) :
    (outcome.leaving (·.leaveMethod closure machine.active)).Keeps change machine := by
  cases outcome with
  | done value after =>
    obtain ⟨names, changed⟩ := inner
    exact effect.leaveMethod permitted live changed
  | failed error after =>
    obtain ⟨names, changed⟩ := inner
    exact effect.leaveMethod permitted live changed
  | exhausted => trivial

/-- Definitions add their names to the active scope, or some of them if they do not all succeed. -/
theorem defineAll (effect : Effect ready permits change) {pairs : List (String × Value)}
    {refused : Option String} (begins : ready machine)
    (defined : machine.defineAll pairs = (refused, after)) :
    ∃ names ⊆ pairs.map Prod.fst, change names machine after := by
  induction pairs generalizing machine with
  | nil =>
    injection defined with _ same
    exact ⟨[], List.nil_subset _, same ▸ effect.refl⟩
  | cons pair rest ih =>
    obtain ⟨name, value⟩ := pair
    cases first : machine.define name value with
    | mk success between =>
      simp only [Machine.defineAll, first] at defined
      cases success with
      | false =>
        injection defined with _ same
        exact ⟨[], List.nil_subset _, same ▸ Machine.eq_of_define_false first ▸ effect.refl⟩
      | true =>
        have begun := effect.define first
        obtain ⟨names, listed, ended⟩ := ih (effect.carry begins begun) defined
        exact ⟨name :: names, List.cons_subset_cons name listed, effect.trans begins begun ended⟩

/-- Expressions add no name with one more unit of fuel. -/
theorem evaluate_succ (effect : Effect ready permits change)
    (runs : RunsWithin ready permits change fuel) (value : Expr) (begins : ready machine) :
    (evaluate (fuel + 1) value machine).Keeps change machine := by
  cases value with
  | literal value type => exact effect.keeps_done _
  | group inner type => exact runs.expression inner machine begins
  | binary operator left right type =>
    refine effect.andThen begins (runs.expression left machine begins) fun left between begins => ?_
    split
    · refine effect.andThen begins (effect.keeps_ofExcept _) fun condition between begins => ?_
      split
      · exact effect.keeps_done _
      · refine effect.andThen begins (runs.expression right between begins)
          fun right after begins => ?_
        exact effect.andThen begins (effect.keeps_ofExcept _) fun _ _ _ => effect.keeps_done _
    · exact effect.andThen begins (runs.expression right between begins)
        fun _ _ _ => effect.keeps_ofExcept _
  | «variable» name slot type =>
    rw [evaluate]
    split
    · exact effect.keeps_done _
    · exact effect.keeps_failed _
  | member receiver name slot type =>
    exact effect.andThen begins (runs.expression receiver machine begins)
      fun _ _ _ => effect.keeps_ofExcept _
  | call name arguments slot type =>
    refine effect.andThen begins (runs.expressions arguments machine begins)
      fun values between begins => ?_
    split
    next callable found =>
      exact runs.call callable values between begins (effect.function begins found)
    next => exact effect.keeps_failed _
  | memberCall receiver name arguments slot type =>
    refine effect.andThen begins (runs.expression receiver machine begins)
      fun owner between begins => ?_
    refine effect.andThen begins (runs.expressions arguments between begins)
      fun values after begins => ?_
    cases found : after.method owner name values.length with
    | error error => exact effect.keeps_failed _
    | ok callable =>
      exact runs.call callable (owner :: values) after begins (effect.method begins found)

/-- Calls add no name with one more unit of fuel. -/
theorem invoke_succ (effect : Effect ready permits change)
    (runs : RunsWithin ready permits change fuel) (callable : Callable) (arguments : List Value)
    (begins : ready machine) (permitted : permits machine callable) :
    (invoke (fuel + 1) callable arguments machine).Keeps change machine := by
  cases callable with
  | native run =>
    show (Outcome.ofPair (machine.onHost (run · arguments))).Keeps change machine
    cases acted : run machine.host arguments with
    | mk result host =>
      simp only [Machine.onHost, acted]
      cases result <;> exact effect.native begins permitted acted
  | method declared closure =>
    rw [invoke]
    split
    next live =>
      have entered := effect.enterMethod begins permitted live
      cases defined : (machine.enterMethod closure).defineAll
          ((declared.parameters.map Parameter.name).zip arguments) with
      | mk refused between =>
        obtain ⟨names, _, begun⟩ := effect.defineAll entered defined
        simp only [defined]
        cases refused with
        | some name => exact effect.leaveMethod permitted live begun
        | none =>
          have executed := runs.statements declared.body between (effect.carry entered begun)
          have left := effect.leavingMethod permitted live (effect.follow entered begun executed)
          exact Outcome.Leaves.andThen left fun _ _ kept => kept
    next => exact effect.keeps_failed _

/-- Statements one after the other add names to the active scope alone with one more unit of
fuel. -/
theorem executeAll_succ (effect : Effect ready permits change)
    (runs : RunsWithin ready permits change fuel) (body : List Stmt) (begins : ready machine) :
    (executeAll (fuel + 1) body machine).Grows change machine := by
  cases body with
  | nil => exact ⟨[], effect.refl⟩
  | cons first rest =>
    have begun := runs.statement first machine begins
    rw [executeAll]
    cases executed : execute fuel first machine with
    | failed error after =>
      rw [executed] at begun
      exact ⟨[], begun⟩
    | exhausted => trivial
    | done flow between =>
      rw [executed] at begun
      cases flow with
      | returned value => exact ⟨first.declared, begun⟩
      | normal =>
        exact effect.follow begins begun (runs.statements rest between (effect.carry begins begun))

/-- A statement adds the name that it declares with one more unit of fuel. -/
theorem execute_succ (effect : Effect ready permits change)
    (runs : RunsWithin ready permits change fuel) (statement : Stmt) (begins : ready machine) :
    (execute (fuel + 1) statement machine).Leaves
      (change statement.declared machine) (change [] machine) := by
  cases statement with
  | expression value =>
    exact effect.andThen begins (runs.expression value machine begins)
      fun _ _ _ => effect.keeps_done _
  | declaration declared =>
    refine Outcome.Leaves.andThen (runs.optional declared.value machine begins)
      fun value between begun => ?_
    cases defined : between.define declared.name value with
    | mk success after =>
      cases success with
      | true => exact effect.trans begins begun (effect.define defined)
      | false => exact Machine.eq_of_define_false defined ▸ begun
  | assignment target value =>
    cases target with
    | «variable» name slot type =>
      refine effect.andThen begins (runs.expression value machine begins)
        fun value between begins => ?_
      cases assigned : between.assign name value with
      | mk success after =>
        cases success <;> exact effect.assign assigned
    | member receiver name slot type =>
      refine effect.andThen begins (runs.expression receiver machine begins)
        fun owner between begins => ?_
      refine effect.andThen begins (runs.expression value between begins)
        fun value after begins => ?_
      cases owner with
      | object typeName id =>
        cases assigned : after.host.assign id name value with
        | mk success host =>
          simp only [Machine.assignField, Machine.onHost, assigned]
          cases success <;> exact effect.field assigned
      | _ => exact effect.refl
    | _ => exact effect.refl
  | conditional condition accepted rejected =>
    refine effect.andThen begins (runs.expression condition machine begins)
      fun value between begins => ?_
    refine effect.andThen begins (effect.keeps_ofExcept _) fun holds after begins => ?_
    exact runs.block _ after begins
  | iteration name value body =>
    refine effect.andThen begins (runs.expression value machine begins)
      fun value between begins => ?_
    split
    next items => exact runs.items name items body between begins
    next => exact effect.keeps_failed _
  | repetition condition body => exact runs.rounds condition body machine begins
  | result value =>
    exact effect.andThen begins (runs.expression value machine begins)
      fun _ _ _ => effect.keeps_done _

/-- The rounds of a loop add no name with one more unit of fuel. -/
theorem iterate_succ (effect : Effect ready permits change)
    (runs : RunsWithin ready permits change fuel) (name : String) (items : List Value)
    (body : List Stmt) (begins : ready machine) :
    (iterate (fuel + 1) name items body machine).Keeps change machine := by
  cases items with
  | nil => exact effect.keeps_done _
  | cons item items =>
    rw [iterate]
    cases defined : machine.enter.define name item with
    | mk success between =>
      cases success with
      | false =>
        rw [Machine.eq_of_define_false defined]
        exact effect.leave effect.refl
      | true =>
        have entered := effect.enter begins
        have begun := effect.define defined
        have executed := runs.statements body between (effect.carry entered begun)
        refine effect.andThen begins (effect.leaving (effect.follow entered begun executed))
          fun flow after begins => ?_
        cases flow with
        | normal => exact runs.items name items body after begins
        | returned value => exact effect.keeps_done _

/-- The rounds of a loop with a condition add no name with one more unit of fuel. -/
theorem repetition_succ (effect : Effect ready permits change)
    (runs : RunsWithin ready permits change fuel) (condition : Expr) (body : List Stmt)
    (begins : ready machine) :
    (repetition (fuel + 1) condition body machine).Keeps change machine := by
  refine effect.andThen begins (runs.expression condition machine begins)
    fun value between begins => ?_
  refine effect.andThen begins (effect.keeps_ofExcept _) fun holds between begins => ?_
  split
  · refine effect.andThen begins (runs.block body between begins) fun flow after begins => ?_
    cases flow with
    | normal => exact runs.rounds condition body after begins
    | returned value => exact effect.keeps_done _
  · exact effect.keeps_done _

/-- One more unit of fuel lets every run change a machine as it may. -/
theorem succ (effect : Effect ready permits change) (runs : RunsWithin ready permits change fuel) :
    RunsWithin ready permits change (fuel + 1) where
  expression value _ begins := effect.evaluate_succ runs value begins
  expressions values machine begins := by
    cases values with
    | nil => exact effect.keeps_done _
    | cons first rest =>
      refine effect.andThen begins (runs.expression first machine begins)
        fun value between begins => ?_
      exact effect.andThen begins (runs.expressions rest between begins)
        fun _ _ _ => effect.keeps_done _
  optional value machine begins := by
    cases value with
    | none => exact effect.keeps_done _
    | some value => exact runs.expression value machine begins
  call callable arguments _ begins permitted :=
    effect.invoke_succ runs callable arguments begins permitted
  statements body _ begins := effect.executeAll_succ runs body begins
  block body machine begins :=
    effect.leaving (runs.statements body machine.enter (effect.enter begins))
  statement statement _ begins := effect.execute_succ runs statement begins
  items name items body _ begins := effect.iterate_succ runs name items body begins
  rounds condition body _ begins := effect.repetition_succ runs condition body begins

/-- With any fuel, every run changes a machine as it may. -/
theorem runsWithin (effect : Effect ready permits change) (fuel : Nat) :
    RunsWithin ready permits change fuel := by
  induction fuel with
  | zero => refine ⟨?_, ?_, ?_, ?_, ?_, ?_, ?_, ?_, ?_⟩ <;> intros <;> trivial
  | succ fuel ih => exact effect.succ ih

/-- Defining fields adds their names to the active scope, or those of the first fields if it
fails. -/
theorem defineFields_leaves (effect : Effect ready permits change) (fuel : Nat)
    (fields : List Field) (begins : ready machine) :
    (Machine.defineFields fuel fields machine).Leaves (change (fields.map Field.name) machine)
      fun after => ∃ defined, defined <+: fields ∧
        change (defined.map Field.name) machine after := by
  induction fields generalizing machine with
  | nil => exact effect.refl
  | cons first rest ih =>
    have evaluated := (effect.runsWithin fuel).optional first.value machine begins
    rw [Machine.defineFields]
    cases began : evaluateOption fuel first.value machine with
    | exhausted => trivial
    | failed error after =>
      rw [began] at evaluated
      exact ⟨[], List.nil_prefix, evaluated⟩
    | done value between =>
      rw [began] at evaluated
      cases defined : between.define first.name value with
      | mk success middle =>
        simp only [Outcome.andThen, defined]
        cases success with
        | false =>
          rw [Machine.eq_of_define_false defined]
          exact ⟨[], List.nil_prefix, evaluated⟩
        | true =>
          have begun : change [first.name] machine middle :=
            effect.trans begins evaluated (effect.define defined)
          have later := ih (effect.carry begins begun)
          simp only [Outcome.require]
          cases others : Machine.defineFields fuel rest middle with
          | exhausted => trivial
          | done value after =>
            rw [others] at later
            exact effect.trans begins begun later
          | failed error after =>
            rw [others] at later
            obtain ⟨more, before, changed⟩ := later
            exact ⟨first :: more, List.cons_prefix_cons.mpr ⟨rfl, before⟩,
              effect.trans begins begun changed⟩

/-- Defining fields changes a machine as runs do. -/
theorem defineFields (effect : Effect ready permits change) (fuel : Nat) (fields : List Field)
    (begins : ready machine) : (Machine.defineFields fuel fields machine).Grows change machine := by
  have leaves := effect.defineFields_leaves fuel fields begins
  cases ended : Machine.defineFields fuel fields machine with
  | exhausted => trivial
  | done value after =>
    rw [ended] at leaves
    exact ⟨_, leaves⟩
  | failed error after =>
    rw [ended] at leaves
    obtain ⟨_, _, changed⟩ := leaves
    exact ⟨_, changed⟩

end Effect

end LetDef
