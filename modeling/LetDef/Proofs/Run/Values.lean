import LetDef.Proofs.Run.Outcome
import LetDef.Proofs.Run.Shelter

/-!
# What the values of a run have in common

The values of a run are made by literals, by operators and by functions of the host. Variables,
fields of objects, arguments and results only pass them on. A property of values that is kept where
values are made (`Inheritance`) is therefore one of every value that a run computes and of every
value that its machine holds, in each state and however the run ends. `Inheritance.ends` says so of
a task that begins with such values, by induction on how much it has left to do;
`Inheritance.begins` says it of the tasks that it starts, and `Inheritance.reaches` of all that a
run comes to.
-/
namespace LetDef

/-- A field of an object after an assignment was there before or has the new value. -/
theorem Host.field?_of_assign {host after : Host} {id other : Nat} {name own : String}
    {value found : Value} {success : Bool} (assigned : host.assign id name value = (success, after))
    (held : after.field? other own = some found) :
    host.field? other own = some found ∨ found = value := by
  unfold assign at assigned
  split at assigned
  · cases assigned
    rw [field?, Array.getElem?_modify] at held
    split at held
    next same =>
      subst same
      obtain ⟨changed, fields, stored⟩ := Option.bind_eq_some_iff.mp held
      obtain ⟨before, there, rfl⟩ := Option.map_eq_some_iff.mp fields
      rw [Bindings.get?_bind] at stored
      split at stored
      · exact .inr (Option.some.inj stored).symm
      · exact .inl (Option.bind_eq_some_iff.mpr ⟨before, there, stored⟩)
    next => exact .inl held
  · cases assigned
    exact .inl held

/-- The machine holds such values alone. -/
structure Machine.Holds (machine : Machine) (suits : Value → Prop) : Prop where
  /-- The variables of its scopes have such values. -/
  locals : ∀ id name value, machine.store.localVariable? id name = some value → suits value
  /-- The fields of its objects have such values. -/
  fields : ∀ id name value, machine.host.field? id name = some value → suits value

namespace Machine.Holds

variable {suits : Value → Prop} {machine after : Machine} {name : String} {value : Value}

/-- At the beginning of a run without a host there are no values. -/
theorem fresh (suits : Value → Prop) (limit : Option Nat) : (Machine.fresh limit).Holds suits where
  locals id name value found := by
    rw [Store.localVariable?_of_frames rfl] at found
    cases found
  fields id name value found := by cases found

/-- A variable that is found has such a value. -/
theorem of_findVariable? (holds : machine.Holds suits)
    (found : machine.findVariable? name = some value) : suits value := by
  obtain ⟨id, _, bound⟩ := List.exists_of_findSome?_eq_some found
  exact holds.locals id name value bound

/-- A field that is found has such a value. -/
theorem of_field (holds : machine.Holds suits) {owner : Value}
    (found : machine.field owner name = .ok value) : suits value := by
  unfold Machine.field at found
  split at found
  · split at found
    next content stored =>
      obtain rfl := Except.ok.inj found
      exact holds.fields _ name content stored
    next => cases found
  · cases found

/-- A machine with the same variables and fields holds such values as well. -/
theorem congr (holds : machine.Holds suits)
    (locals : ∀ id name value, after.store.localVariable? id name = some value →
      machine.store.localVariable? id name = some value)
    (host : after.host = machine.host) : after.Holds suits where
  locals id name value found := holds.locals id name value (locals id name value found)
  fields id name value found := holds.fields id name value (host ▸ found)

/-- A variable may be bound to such a value. -/
theorem bindVariable (holds : machine.Holds suits) (suitable : suits value) (id : FrameId) :
    ({ machine with store := machine.store.bindVariable id name value } : Machine).Holds suits where
  locals other own found bound := by
    rcases Store.localVariable?_of_bindVariable bound with before | rfl
    · exact holds.locals other own found before
    · exact suitable
  fields := holds.fields

/-- A variable may be defined with such a value. -/
theorem define (holds : machine.Holds suits) (suitable : suits value) {success : Bool}
    (defined : machine.define name value = (success, after)) : after.Holds suits := by
  rw [Machine.define_eq] at defined
  split at defined
  · cases defined
    exact holds
  · cases defined
    exact holds.bindVariable suitable machine.active

/-- A variable may be overwritten with such a value. -/
theorem assign (holds : machine.Holds suits) (suitable : suits value) {success : Bool}
    (assigned : machine.assign name value = (success, after)) : after.Holds suits := by
  rw [Machine.assign_eq] at assigned
  split at assigned
  · cases assigned
    exact holds
  next binder _ =>
    cases assigned
    exact holds.bindVariable suitable binder

/-- A field may be overwritten with such a value. -/
theorem assignField (holds : machine.Holds suits) (suitable : suits value) (owner : Value) :
    (machine.assignField owner name value).2.Holds suits := by
  cases owner with
  | object typeName id =>
    rcases assigned : machine.host.assign id name value with ⟨success, host⟩
    have changed : ({ machine with host } : Machine).Holds suits := by
      refine ⟨holds.locals, fun other own found held => ?_⟩
      rcases Host.field?_of_assign assigned held with before | rfl
      · exact holds.fields other own found before
      · exact suitable
    simp only [Machine.assignField, Machine.onHost, assigned]
    cases success <;> exact changed
  | _ => exact holds

/-- Variables may be defined with such values, one after the other. -/
theorem defineAll {pairs : List (String × Value)} (holds : machine.Holds suits)
    (suitable : ∀ pair ∈ pairs, suits pair.2) {refused : Option String}
    (defined : machine.defineAll pairs = (refused, after)) : after.Holds suits := by
  induction pairs generalizing machine with
  | nil =>
    cases defined
    exact holds
  | cons pair rest ih =>
    obtain ⟨name, value⟩ := pair
    rcases first : machine.define name value with ⟨success, between⟩
    have begun := holds.define (suitable _ List.mem_cons_self) first
    simp only [Machine.defineAll, first] at defined
    cases success with
    | false =>
      cases defined
      exact begun
    | true =>
      have others : ∀ pair ∈ rest, suits pair.2 := fun pair listed =>
        suitable pair (List.mem_cons_of_mem _ listed)
      exact ih begun others defined

/-- Parameters may be defined with such arguments. -/
theorem defineParameters {names : List String} {arguments : List Value}
    {refused : Option String} (holds : machine.Holds suits)
    (suitable : ∀ argument ∈ arguments, suits argument)
    (defined : machine.defineAll (names.zip arguments) = (refused, after)) : after.Holds suits :=
  holds.defineAll (fun pair listed => suitable pair.2 (List.of_mem_zip listed).2) defined

/-- A new scope holds no values. -/
theorem enter (holds : machine.Holds suits) : machine.enter.Holds suits := by
  refine holds.congr (fun id name value found => ?_) rfl
  rw [Machine.enter, Store.localVariable?_child] at found
  split at found
  · cases found
  · exact found

/-- The scope of a method holds no values. -/
theorem enterMethod (holds : machine.Holds suits) (closure : FrameId) :
    (machine.enterMethod closure).Holds suits := by
  refine holds.congr (fun id name value found => ?_) rfl
  rw [Machine.enterMethod, Store.localVariable?_child] at found
  split at found
  · cases found
  · rwa [Store.localVariable?_retain] at found

/-- Nothing is added where a scope is left. -/
theorem leave (holds : machine.Holds suits) (scope : FrameId) :
    (machine.leave scope).Holds suits :=
  holds.congr (fun id name value found => by
    rwa [Machine.leave, Store.localVariable?_release] at found) rfl

/-- Nothing is added where the scope of a method is left. -/
theorem leaveMethod (holds : machine.Holds suits) (closure scope : FrameId) :
    (machine.leaveMethod closure scope).Holds suits :=
  (holds.leave scope).congr (fun id name value found => by
    rwa [Machine.leaveMethod, Store.localVariable?_release] at found) rfl

/-- A new method is no value. -/
theorem defineMethod (holds : machine.Holds suits) (declared : Method) :
    (machine.defineMethod declared).2.Holds suits := by
  simp only [Machine.defineMethod, Machine.onStore, Store.defineFunction]
  split
  · exact holds
  · exact holds.congr (fun id name value found => by
      rwa [Store.localVariable?_bindFunction] at found) rfl

end Machine.Holds

section Outcomes

variable {α β : Type} {suits : Value → Prop} {machine : Machine}

/-- However the outcome ends, its machine holds such values alone; and a result is as it should
be. -/
def Outcome.Yields (outcome : Outcome α) (good : α → Prop) (suits : Value → Prop) : Prop :=
  match outcome with
  | .done value machine => good value ∧ machine.Holds suits
  | .failed _ machine => machine.Holds suits
  | .exhausted => True

namespace Outcome.Yields

variable {outcome : Outcome α} {go : α → Machine → Outcome β} {good : α → Prop} {fine : β → Prop}

/-- What an outcome gives, if it gives something. -/
theorem of_done (yields : outcome.Yields good suits) {value : α} {after : Machine}
    (ended : outcome = .done value after) : good value ∧ after.Holds suits := by
  rw [ended] at yields
  exact yields

/-- What an outcome leaves behind, however it ends. -/
theorem state (yields : outcome.Yields good suits) {after : Machine}
    (ended : outcome.state? = some after) : after.Holds suits := by
  cases outcome with
  | done value machine => exact Option.some.inj ended ▸ yields.2
  | failed error machine => exact Option.some.inj ended ▸ yields
  | exhausted => cases ended

/-- What goes on after an outcome ends with such values if both do. -/
theorem andThen (first : outcome.Yields good suits)
    (second : ∀ value after, outcome = .done value after → good value → after.Holds suits →
      (go value after).Yields fine suits) : (outcome.andThen go).Yields fine suits := by
  cases outcome with
  | done value after => exact second value after rfl first.1 first.2
  | failed error after => exact first
  | exhausted => trivial

/-- Leaving a scope adds no values. -/
theorem leaving {change : Machine → Machine} (yields : outcome.Yields good suits)
    (keeps : ∀ inner, inner.Holds suits → (change inner).Holds suits) :
    (outcome.leaving change).Yields good suits := by
  cases outcome with
  | done value inner => exact ⟨yields.1, keeps inner yields.2⟩
  | failed error inner => exact keeps inner yields
  | exhausted => trivial

/-- A computation that leaves the state alone ends with such values if it computes them. -/
theorem ofExcept {result : Except RuntimeError α} (holds : machine.Holds suits)
    (computes : ∀ value, result = .ok value → good value) :
    (Outcome.ofExcept result machine).Yields good suits := by
  cases result with
  | ok value => exact ⟨computes value rfl, holds⟩
  | error error => exact holds

/-- A change of the state that may fail ends with such values if the state after it has them. -/
theorem require {result : Bool × Machine} {error : RuntimeError} (holds : result.2.Holds suits) :
    (Outcome.require result error).Yields (fun _ => True) suits := by
  obtain ⟨success, after⟩ := result
  cases success with
  | true => exact ⟨trivial, holds⟩
  | false => exact holds

/-- A result with a state ends with such values if both have them. -/
theorem ofPair {result : Except RuntimeError α × Machine} (holds : result.2.Holds suits)
    (computes : ∀ value, result.1 = .ok value → good value) :
    (Outcome.ofPair result).Yields good suits := by
  obtain ⟨computed, after⟩ := result
  cases computed with
  | ok value => exact ⟨computes value rfl, holds⟩
  | error error => exact holds

end Outcome.Yields

/-- Methods are no values. -/
theorem Machine.Holds.defineMethods {methods : List Method} (holds : machine.Holds suits) :
    (Machine.defineMethods methods machine).Yields (fun _ => True) suits := by
  induction methods generalizing machine with
  | nil => exact ⟨trivial, holds⟩
  | cons first rest ih =>
    exact Outcome.Yields.andThen (.require (holds.defineMethod first)) fun _ _ _ _ holds => ih holds

end Outcomes

namespace Task

/-- The values that a task is given besides those that its machine holds. -/
def given : Task → List Value
  | .call _ _ arguments _ => arguments
  | .items _ _ remaining _ _ => remaining
  | _ => []

/-- The task begins with such values alone. -/
structure Begins (suits : Value → Prop) (task : Task) : Prop where
  /-- Its machine holds such values. -/
  holds : task.machine.Holds suits
  /-- It is given such values. -/
  given : ∀ value ∈ task.given, suits value

/-- The task ends with such values alone: however it ends, its machine holds such values then, and
what it computes is such. -/
def Ends (suits : Value → Prop) : Task → Prop
  | .program fuel whole machine => (Machine.interpret fuel whole machine).Yields suits suits
  | .fields fuel remaining machine =>
    (Machine.defineFields fuel remaining machine).Yields (fun _ => True) suits
  | .expression fuel value machine => (evaluate fuel value machine).Yields suits suits
  | .expressions fuel values machine =>
    (evaluateAll fuel values machine).Yields (fun values => ∀ value ∈ values, suits value) suits
  | .optional fuel value machine => (evaluateOption fuel value machine).Yields suits suits
  | .call fuel callable arguments machine =>
    (invoke fuel callable arguments machine).Yields suits suits
  | .statements fuel body machine =>
    (executeAll fuel body machine).Yields (fun flow => suits flow.result) suits
  | .block fuel body machine =>
    (executeBlock fuel body machine).Yields (fun flow => suits flow.result) suits
  | .statement fuel executed machine =>
    (execute fuel executed machine).Yields (fun flow => suits flow.result) suits
  | .items fuel name remaining body machine =>
    (iterate fuel name remaining body machine).Yields (fun flow => suits flow.result) suits
  | .rounds fuel condition body machine =>
    (repetition fuel condition body machine).Yields (fun flow => suits flow.result) suits

end Task

/-- The laws of a property of values that the tasks of some kind keep. -/
structure Inheritance (visits : Task → Prop) (suits : Value → Prop) : Prop where
  /-- What such a task starts is such a task. -/
  closed : ∀ {task move part}, visits task → task.Starts move part → visits part
  /-- `NIL` has the property. -/
  nil : suits .nil
  /-- Truth values have the property. -/
  boolean : ∀ condition, suits (.boolean condition)
  /-- The items of a list have the property if the list does. -/
  item : ∀ {items item}, suits (.iterable items) → item ∈ items → suits item
  /-- The literals that are visited have the property. -/
  literal : ∀ {fuel value slot machine},
    visits (.expression (fuel + 1) (.literal value slot) machine) → suits (.ofLiteral value)
  /-- The results of operators that are visited have the property if their operands do. -/
  operator : ∀ {fuel operator left right slot machine first between second after value},
    visits (.expression (fuel + 1) (.binary operator left right slot) machine) →
    evaluate fuel left machine = .done first between →
    evaluate fuel right between = .done second after → suits first → suits second →
    Value.binary operator first second = .ok value → suits value
  /-- What functions of the host that are visited make of such values has the property. -/
  native : ∀ {fuel run arguments machine result host},
    visits (.call (fuel + 1) (.native run) arguments machine) → machine.Holds suits →
    (∀ argument ∈ arguments, suits argument) → run machine.host arguments = (result, host) →
    ({ machine with host } : Machine).Holds suits ∧ ∀ value, result = .ok value → suits value

namespace Task

variable {visits : Task → Prop} {suits : Value → Prop} {task part : Task} {move : Move}
variable {fuel : Nat} {machine : Machine}

/-- What a task starts begins with such values if the task does and whatever it starts ends with
them. -/
theorem Starts.begins (inherits : Inheritance visits suits) (starts : task.Starts move part)
    (parts : ∀ move other, task.Starts move other → other.Begins suits → other.Ends suits)
    (begins : task.Begins suits) : part.Begins suits := by
  cases starts with
  | main fields methods _ =>
    have defined := (parts _ _ .fields ⟨begins.holds, nofun⟩).of_done fields
    have loaded := defined.2.defineMethods.of_done methods
    exact ⟨loaded.2, nofun⟩
  | fieldsRest evaluated defined =>
    have content := (parts _ _ .fieldValue ⟨begins.holds, nofun⟩).of_done evaluated
    exact ⟨content.2.define content.1 defined, nofun⟩
  | right evaluated _ =>
    have first := (parts _ _ .left ⟨begins.holds, nofun⟩).of_done evaluated
    exact ⟨first.2, nofun⟩
  | invocation evaluated _ =>
    have values := (parts _ _ .arguments ⟨begins.holds, nofun⟩).of_done evaluated
    exact ⟨values.2, values.1⟩
  | memberArguments evaluated =>
    have owner := (parts _ _ .callReceiver ⟨begins.holds, nofun⟩).of_done evaluated
    exact ⟨owner.2, nofun⟩
  | memberInvocation evaluated evaluatedAll _ =>
    have owner := (parts _ _ .callReceiver ⟨begins.holds, nofun⟩).of_done evaluated
    have values :=
      (parts _ _ (.memberArguments evaluated) ⟨owner.2, nofun⟩).of_done evaluatedAll
    exact ⟨values.2, List.forall_mem_cons.mpr ⟨owner.1, values.1⟩⟩
  | restValues evaluated =>
    have first := (parts _ _ .firstValue ⟨begins.holds, nofun⟩).of_done evaluated
    exact ⟨first.2, nofun⟩
  | methodBody _ defined =>
    exact ⟨(begins.holds.enterMethod _).defineParameters begins.given defined, nofun⟩
  | restStatements executed =>
    have first := (parts _ _ .firstStatement ⟨begins.holds, nofun⟩).of_done executed
    exact ⟨first.2, nofun⟩
  | blockBody => exact ⟨begins.holds.enter, nofun⟩
  | newField evaluated =>
    have owner := (parts _ _ .targetReceiver ⟨begins.holds, nofun⟩).of_done evaluated
    exact ⟨owner.2, nofun⟩
  | branch evaluated _ =>
    have condition := (parts _ _ .choice ⟨begins.holds, nofun⟩).of_done evaluated
    exact ⟨condition.2, nofun⟩
  | items evaluated =>
    have list := (parts _ _ .range ⟨begins.holds, nofun⟩).of_done evaluated
    exact ⟨list.2, fun item => inherits.item list.1⟩
  | itemBody defined =>
    exact ⟨begins.holds.enter.define (begins.given _ List.mem_cons_self) defined, nofun⟩
  | restItems defined executed =>
    have entered := begins.holds.enter.define (begins.given _ List.mem_cons_self) defined
    have round := (parts _ _ (.itemBody defined) ⟨entered, nofun⟩).of_done executed
    exact ⟨round.2.leave _, fun item listed => begins.given item (List.mem_cons_of_mem _ listed)⟩
  | roundBody evaluated _ =>
    have condition := (parts _ _ .roundCondition ⟨begins.holds, nofun⟩).of_done evaluated
    exact ⟨condition.2, nofun⟩
  | restRounds evaluated decided executed =>
    have condition := (parts _ _ .roundCondition ⟨begins.holds, nofun⟩).of_done evaluated
    have round :=
      (parts _ _ (.roundBody evaluated decided) ⟨condition.2, nofun⟩).of_done executed
    exact ⟨round.2, nofun⟩
  -- The other tasks begin in the state of the task that starts them and are given nothing.
  | _ => exact ⟨begins.holds, nofun⟩

/-- The task has such values from all sides: it begins with them, and what it starts ends with
them. -/
structure Inherits (visits : Task → Prop) (suits : Value → Prop) (task : Task) : Prop where
  /-- The task is visited. -/
  visited : visits task
  /-- It begins with such values. -/
  begins : task.Begins suits
  /-- What it starts ends with such values. -/
  parts : ∀ move part, task.Starts move part → part.Ends suits

/-- An expression with an operator ends with such values. -/
theorem ends_binary (inherits : Inheritance visits suits) {operator : BinaryOp}
    {left right : Expr} {slot : Option Ty}
    (inherited : (expression (fuel + 1) (.binary operator left right slot) machine).Inherits visits
      suits) : (expression (fuel + 1) (.binary operator left right slot) machine).Ends suits := by
  obtain ⟨visited, -, parts⟩ := inherited
  refine Outcome.Yields.andThen (parts _ _ .left)
    fun first between evaluated suitable holds => ?_
  split
  next =>
    refine .andThen (.ofExcept holds fun _ _ => trivial)
      fun condition after tested _ holds => ?_
    obtain ⟨decided, rfl⟩ := Outcome.ofExcept_eq_done.mp tested
    split
    next => exact ⟨inherits.boolean condition, holds⟩
    next other =>
      have continues : operator.Continues first := fun _ => ⟨condition, decided, other⟩
      refine .andThen (parts _ _ (.right evaluated continues)) fun second after _ _ holds => ?_
      exact .andThen (.ofExcept holds fun _ _ => trivial)
        fun condition last _ _ holds => ⟨inherits.boolean condition, holds⟩
  next arithmetic =>
    have continues : operator.Continues first := fun logical => absurd logical arithmetic
    refine .andThen (parts _ _ (.right evaluated continues))
      fun second after evaluatedRight suitableRight holds => ?_
    exact .ofExcept holds fun value computed =>
      inherits.operator visited evaluated evaluatedRight suitable suitableRight computed

/-- An expression ends with such values. -/
theorem ends_expression (inherits : Inheritance visits suits) {value : Expr}
    (inherited : (expression fuel value machine).Inherits visits suits) :
    (expression fuel value machine).Ends suits := by
  have parts := inherited.parts
  have holds : machine.Holds suits := inherited.begins.holds
  cases fuel with
  | zero => trivial
  | succ fuel =>
    cases value with
    | literal value slot => exact ⟨inherits.literal inherited.visited, holds⟩
    | group inner slot => exact parts _ (.expression fuel inner machine) .inner
    | binary operator left right slot => exact ends_binary inherits inherited
    | «variable» name slot type =>
      show (evaluate (fuel + 1) (.variable name slot type) machine).Yields suits suits
      rw [evaluate]
      split
      next value found => exact ⟨holds.of_findVariable? found, holds⟩
      next => exact holds
    | member receiver name slot type =>
      refine Outcome.Yields.andThen (parts _ _ .memberReceiver) fun owner after _ _ holds => ?_
      exact .ofExcept holds fun value found => holds.of_field found
    | call name arguments slot type =>
      refine Outcome.Yields.andThen (parts _ _ .arguments) fun values after evaluated _ holds => ?_
      split
      next callable found => exact parts _ _ (.invocation evaluated found)
      next => exact holds
    | memberCall receiver name arguments slot type =>
      refine Outcome.Yields.andThen (parts _ _ .callReceiver) fun owner between evaluated _ _ => ?_
      refine .andThen (parts _ _ (.memberArguments evaluated))
        fun values after evaluatedAll _ holds => ?_
      refine .andThen (.ofExcept holds fun _ _ => trivial) fun callable last sought _ _ => ?_
      obtain ⟨found, rfl⟩ := Outcome.ofExcept_eq_done.mp sought
      exact parts _ _ (.memberInvocation evaluated evaluatedAll found)

/-- Expressions end with such values. -/
theorem ends_expressions {values : List Expr}
    (inherited : (expressions fuel values machine).Inherits visits suits) :
    (expressions fuel values machine).Ends suits := by
  obtain ⟨-, ⟨holds, -⟩, parts⟩ := inherited
  cases fuel with
  | zero => trivial
  | succ fuel =>
    cases values with
    | nil => exact ⟨nofun, holds⟩
    | cons first rest =>
      refine Outcome.Yields.andThen (parts _ _ .firstValue)
        fun value between evaluated suitable _ => ?_
      exact .andThen (parts _ _ (.restValues evaluated)) fun values after _ others holds =>
        ⟨List.forall_mem_cons.mpr ⟨suitable, others⟩, holds⟩

/-- A call ends with such values. -/
theorem ends_call (inherits : Inheritance visits suits) {callable : Callable}
    {arguments : List Value}
    (inherited : (call fuel callable arguments machine).Inherits visits suits) :
    (call fuel callable arguments machine).Ends suits := by
  obtain ⟨visited, ⟨holds, given⟩, parts⟩ := inherited
  cases fuel with
  | zero => trivial
  | succ fuel =>
    cases callable with
    | native run =>
      obtain ⟨held, suitable⟩ := inherits.native visited holds given rfl
      exact .ofPair held suitable
    | method declared closure =>
      show (invoke (fuel + 1) (.method declared closure) arguments machine).Yields suits suits
      rw [invoke]
      split
      next live =>
        rcases defined : (machine.enterMethod closure).defineAll
          ((declared.parameters.map Parameter.name).zip arguments) with ⟨refused, between⟩
        simp only [defined]
        cases refused with
        | some name =>
          exact ((holds.enterMethod closure).defineParameters given defined).leaveMethod _ _
        | none =>
          have body : (executeAll fuel declared.body between).Yields _ suits :=
            parts _ _ (.methodBody live defined)
          have left := body.leaving fun inner holds => holds.leaveMethod closure machine.active
          exact left.andThen fun flow after _ suitable holds => ⟨suitable, holds⟩
      next => exact holds

/-- Statements end with such values. -/
theorem ends_statements (inherits : Inheritance visits suits) {body : List Stmt}
    (inherited : (statements fuel body machine).Inherits visits suits) :
    (statements fuel body machine).Ends suits := by
  obtain ⟨-, ⟨holds, -⟩, parts⟩ := inherited
  cases fuel with
  | zero => trivial
  | succ fuel =>
    cases body with
    | nil => exact ⟨inherits.nil, holds⟩
    | cons first rest =>
      refine Outcome.Yields.andThen (parts _ _ .firstStatement)
        fun flow after executed suitable holds => ?_
      cases flow with
      | normal => exact parts _ _ (.restStatements executed)
      | returned value => exact ⟨suitable, holds⟩

/-- An assignment ends with such values. -/
theorem ends_assignment (inherits : Inheritance visits suits) {target value : Expr}
    (inherited : (statement (fuel + 1) (.assignment target value) machine).Inherits visits suits) :
    (statement (fuel + 1) (.assignment target value) machine).Ends suits := by
  obtain ⟨-, ⟨holds, -⟩, parts⟩ := inherited
  cases target with
  | «variable» name slot type =>
    refine Outcome.Yields.andThen (parts _ _ .newContent) fun content between _ suitable holds => ?_
    exact .andThen (.require (holds.assign suitable rfl))
      fun _ _ _ _ holds => ⟨inherits.nil, holds⟩
  | member receiver name slot type =>
    refine Outcome.Yields.andThen (parts _ _ .targetReceiver) fun owner between evaluated _ _ => ?_
    refine .andThen (parts _ _ (.newField evaluated)) fun content after _ suitable holds => ?_
    exact .andThen (.ofPair (holds.assignField suitable owner) fun _ _ => trivial)
      fun _ _ _ _ holds => ⟨inherits.nil, holds⟩
  | _ => exact holds

/-- A statement ends with such values. -/
theorem ends_statement (inherits : Inheritance visits suits) {executed : Stmt}
    (inherited : (statement fuel executed machine).Inherits visits suits) :
    (statement fuel executed machine).Ends suits := by
  have parts := inherited.parts
  have holds : machine.Holds suits := inherited.begins.holds
  cases fuel with
  | zero => trivial
  | succ fuel =>
    cases executed with
    | expression value =>
      exact Outcome.Yields.andThen (parts _ _ .effect) fun _ _ _ _ holds => ⟨inherits.nil, holds⟩
    | declaration declared =>
      refine Outcome.Yields.andThen (parts _ _ .firstContent)
        fun value between _ suitable holds => ?_
      exact .andThen (.require (holds.define suitable rfl))
        fun _ _ _ _ holds => ⟨inherits.nil, holds⟩
    | assignment target value => exact ends_assignment inherits inherited
    | conditional condition accepted rejected =>
      refine Outcome.Yields.andThen (parts _ _ .choice) fun value between evaluated _ holds => ?_
      refine .andThen (.ofExcept holds fun _ _ => trivial) fun truth after tested _ _ => ?_
      obtain ⟨decided, rfl⟩ := Outcome.ofExcept_eq_done.mp tested
      exact parts _ _ (.branch evaluated decided)
    | iteration name range body =>
      refine Outcome.Yields.andThen (parts _ _ .range) fun value between evaluated _ holds => ?_
      cases value with
      | iterable items => exact parts _ _ (.items evaluated)
      | _ => exact holds
    | repetition condition body => exact parts _ (.rounds fuel condition body machine) .rounds
    | result value =>
      exact Outcome.Yields.andThen (parts _ _ .answer) fun _ _ _ suitable holds => ⟨suitable, holds⟩

/-- The rounds of a loop end with such values. -/
theorem ends_items (inherits : Inheritance visits suits) {name : String} {remaining : List Value}
    {body : List Stmt}
    (inherited : (items fuel name remaining body machine).Inherits visits suits) :
    (items fuel name remaining body machine).Ends suits := by
  obtain ⟨-, ⟨holds, given⟩, parts⟩ := inherited
  cases fuel with
  | zero => trivial
  | succ fuel =>
    cases remaining with
    | nil => exact ⟨inherits.nil, holds⟩
    | cons item remaining =>
      show (iterate (fuel + 1) name (item :: remaining) body machine).Yields _ suits
      rcases defined : machine.enter.define name item with ⟨success, between⟩
      simp only [iterate, defined]
      cases success with
      | false =>
        exact (holds.enter.define (given item List.mem_cons_self) defined).leave machine.active
      | true =>
        have round : (executeAll fuel body between).Yields _ suits :=
          parts _ _ (.itemBody defined)
        have left := round.leaving fun inner holds => holds.leave machine.active
        refine left.andThen fun flow after went suitable holds => ?_
        obtain ⟨inner, executed, rfl⟩ := Outcome.leaving_eq_done.mp went
        cases flow with
        | normal => exact parts _ _ (.restItems defined executed)
        | returned value => exact ⟨suitable, holds⟩

/-- The rounds of a loop with a condition end with such values. -/
theorem ends_rounds (inherits : Inheritance visits suits) {condition : Expr} {body : List Stmt}
    (inherited : (rounds fuel condition body machine).Inherits visits suits) :
    (rounds fuel condition body machine).Ends suits := by
  obtain ⟨-, -, parts⟩ := inherited
  cases fuel with
  | zero => trivial
  | succ fuel =>
    refine Outcome.Yields.andThen (parts _ _ .roundCondition)
      fun value between evaluated _ holds => ?_
    refine .andThen (.ofExcept holds fun _ _ => trivial) fun truth after tested _ holds => ?_
    obtain ⟨decided, rfl⟩ := Outcome.ofExcept_eq_done.mp tested
    cases truth with
    | false => exact ⟨inherits.nil, holds⟩
    | true =>
      refine Outcome.Yields.andThen (parts _ _ (.roundBody evaluated decided))
        fun flow last executed suitable holds => ?_
      cases flow with
      | normal => exact parts _ _ (.restRounds evaluated decided executed)
      | returned value => exact ⟨suitable, holds⟩

/-- Fields end with such values. -/
theorem ends_fields {remaining : List Field}
    (inherited : (fields fuel remaining machine).Inherits visits suits) :
    (fields fuel remaining machine).Ends suits := by
  obtain ⟨-, ⟨holds, -⟩, parts⟩ := inherited
  cases remaining with
  | nil => exact ⟨trivial, holds⟩
  | cons first rest =>
    refine Outcome.Yields.andThen (parts _ _ .fieldValue)
      fun value between evaluated suitable holds => ?_
    refine .andThen (.require (holds.define suitable rfl)) fun _ after defined _ _ => ?_
    exact parts _ _ (.fieldsRest evaluated (Outcome.require_eq_done.mp defined))

/-- A program ends with such values. -/
theorem ends_program {whole : Program}
    (inherited : (program fuel whole machine).Inherits visits suits) :
    (program fuel whole machine).Ends suits := by
  obtain ⟨-, -, parts⟩ := inherited
  refine Outcome.Yields.andThen (parts _ _ .fields) fun _ between fields _ holds => ?_
  refine .andThen holds.defineMethods fun _ after methods _ holds => ?_
  split
  next main found => exact parts _ _ (.main fields methods found)
  next => exact holds

/-- A task ends with such values if it begins with such values and what it starts ends with them. -/
theorem Inherits.ends (inherits : Inheritance visits suits)
    (inherited : task.Inherits visits suits) : task.Ends suits := by
  cases task with
  | program => exact ends_program inherited
  | fields => exact ends_fields inherited
  | expression => exact ends_expression inherits inherited
  | expressions => exact ends_expressions inherited
  | optional fuel value machine =>
    cases fuel with
    | zero => trivial
    | succ fuel =>
      cases value with
      | none => exact ⟨inherits.nil, inherited.begins.holds⟩
      | some value => exact inherited.parts _ (.expression fuel value machine) .someValue
  | call => exact ends_call inherits inherited
  | statements => exact ends_statements inherits inherited
  | block fuel body machine =>
    cases fuel with
    | zero => trivial
    | succ fuel =>
      have inner : (executeAll fuel body machine.enter).Yields _ suits :=
        inherited.parts _ _ .blockBody
      exact inner.leaving fun inner holds => holds.leave machine.active
  | statement => exact ends_statement inherits inherited
  | items => exact ends_items inherits inherited
  | rounds => exact ends_rounds inherits inherited

end Task

namespace Inheritance

variable {visits : Task → Prop} {suits : Value → Prop} {task part : Task} {move : Move}

/-- A task that begins with such values ends with such values. -/
theorem ends (inherits : Inheritance visits suits) (visited : visits task)
    (begins : task.Begins suits) : task.Ends suits := by
  induction weighs : task.weight using Nat.strongRecOn generalizing task with
  | ind size ih =>
    -- What the task starts has less left to do, but begins with such values only once what was
    -- started before it has ended with them.
    have parts : ∀ move part, task.Starts move part → part.Begins suits → part.Ends suits :=
      fun move part starts begins =>
        ih part.weight (weighs ▸ starts.weight_lt) (inherits.closed visited starts) begins rfl
    refine Task.Inherits.ends inherits ⟨visited, begins, fun move part starts => ?_⟩
    exact parts move part starts (starts.begins inherits parts begins)

/-- What a task that begins with such values starts begins with such values. -/
theorem begins (inherits : Inheritance visits suits) (visited : visits task)
    (begins : task.Begins suits) (starts : task.Starts move part) : part.Begins suits :=
  starts.begins inherits (fun _ _ started begins =>
    inherits.ends (inherits.closed visited started) begins) begins

/-- Whatever a run comes to begins and ends with such values if the run begins with them. -/
theorem reaches {program : Program} {fuel : Nat} {machine : Machine} {address : Address}
    (inherits : Inheritance visits suits) (visited : visits (.program fuel program machine))
    (holds : machine.Holds suits) (reached : program.Reaches fuel machine address task) :
    task.Begins suits ∧ task.Ends suits := by
  have arrives : visits task ∧ task.Begins suits := by
    induction reached with
    | start => exact ⟨visited, holds, nofun⟩
    | step _ starts ih => exact ⟨inherits.closed ih.1 starts, inherits.begins ih.1 ih.2 starts⟩
  exact ⟨arrives.2, inherits.ends arrives.1 arrives.2⟩

end Inheritance

end LetDef
