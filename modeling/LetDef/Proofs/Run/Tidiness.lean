import LetDef.Embedding.Functions
import LetDef.Proofs.Program.Address
import LetDef.Proofs.Run.Truncation

/-!
# Runs bind no stray names

However a run ends, no frame that existed before has gained or lost a name of a variable or a
function, and no object a field or a method, except that a statement adds the name which it declares
to the scope in which it stands (`Machine.Binds`). What changes besides are values of variables and
fields that were there. Running a program adds its fields and methods to the global scope and no
name to any other frame (`Machine.Gains`). Functions of the host are taken to add no fields to
objects (`HostFunction.Tame`), which those that a host gives to programs do not
(`HostFunction.tame_named`).
-/
namespace LetDef

open Store (Evolves)
open Bindings (Adds)

/-- All objects are still there, and each has fields of the same names. -/
structure Host.Keeps (before after : Host) : Prop where
  /-- No object is lost. -/
  size_le : before.fields.size ≤ after.fields.size
  /-- Every object has a field of a name if it had one. -/
  named : ∀ id < before.fields.size, ∀ name,
    (after.field? id name).isSome = (before.field? id name).isSome

namespace Host.Keeps

variable {host before middle after : Host}

/-- Nothing need change. -/
theorem refl (host : Host) : host.Keeps host :=
  ⟨Nat.le_refl _, fun _ _ _ => rfl⟩

/-- What two steps keep, both together keep. -/
theorem trans (first : before.Keeps middle) (second : middle.Keeps after) : before.Keeps after :=
  ⟨Nat.le_trans first.size_le second.size_le, fun id old name =>
    (second.named id (Nat.lt_of_lt_of_le old first.size_le) name).trans (first.named id old name)⟩

/-- What is written is kept apart from fields. -/
theorem ofOutput (host : Host) (output : Output) : host.Keeps { host with output } :=
  ⟨Nat.le_refl _, fun _ _ _ => rfl⟩

/-- A field is assigned only if it is there. -/
theorem ofAssign {id : Nat} {name : String} {value : Value} {success : Bool}
    (assigned : host.assign id name value = (success, after)) : host.Keeps after := by
  unfold Host.assign at assigned
  split at assigned
  next bound =>
    cases assigned
    refine ⟨by simp, fun other old own => ?_⟩
    simp only [field?, Array.getElem?_modify] at bound ⊢
    by_cases same : id = other
    · subst same
      rw [if_pos rfl]
      rw [Array.getElem?_eq_getElem old] at bound ⊢
      simp only [Option.map_some, Option.bind_some, Bindings.get?_bind] at bound ⊢
      split
      next equal => rw [equal, bound, Option.isSome_some]
      next => rfl
    · rw [if_neg same]
  next =>
    cases assigned
    exact refl host

end Host.Keeps

/-- The function gives no object a field and takes none away. -/
def HostFunction.Tame (run : HostFunction) : Prop :=
  ∀ (host : Host) (arguments : List Value), host.Keeps (run host arguments).2

namespace HostFunction

/-- What a tame function does keeps the fields of objects. -/
theorem Tame.acts {run : HostFunction} (tame : Tame run) {host after : Host}
    {arguments : List Value} {result : Except RuntimeError Value}
    (acted : run host arguments = (result, after)) : host.Keeps after := by
  have keeps := tame host arguments
  rwa [acted] at keeps

/-- Writing gives no object a field. -/
theorem tame_print : Tame Host.print := by
  intro host arguments
  induction arguments generalizing host with
  | nil => exact .refl host
  | cons first rest ih =>
    rw [Host.print]
    split
    next output written => exact (Host.Keeps.ofOutput host output).trans (ih _)
    next output written => exact .ofOutput host output

/-- A function that acts on its arguments alone gives no object a field. -/
theorem tame_pure (run : List Value → Except RuntimeError Value) : Tame (pure run) :=
  fun host _ => .refl host

/-- Writing on one line gives no object a field. -/
theorem tame_echo : Tame echo := by
  rintro ⟨output, fields⟩ arguments
  simp only [echo]
  split <;> exact .ofOutput ⟨output, fields⟩ _

/-- Reading a field gives no object one. -/
theorem tame_get : Tame get := by
  intro host arguments
  unfold get
  split <;> exact .refl host

/-- Overwriting a field gives no object one. -/
theorem tame_set : Tame set := by
  intro host arguments
  unfold set
  split
  · exact .ofAssign rfl
  · exact .refl host

/-- The functions that a host can give to programs give no object a field. -/
theorem tame_named (name : String) : Tame (named name) := by
  unfold named
  split
  · exact tame_pure _
  · exact tame_pure _
  · exact tame_pure _
  · exact tame_pure _
  · exact tame_pure _
  · exact tame_echo
  · exact tame_get
  · exact tame_set
  · exact tame_pure _

end HostFunction

/-- If it is a function of the host, then it gives no object a field. -/
def Callable.Tame : Callable → Prop
  | .native run => HostFunction.Tame run
  | .method _ _ => True

namespace Machine

variable {names more : List String} {machine before middle after : Machine}

/-- What a run may do to the names that are bound: the active scope gains `names`, and besides them
every frame and every object binds the same names and functions. -/
structure Binds (names : List String) (before after : Machine) : Prop where
  /-- The base scope stays. -/
  base : after.base = before.base
  /-- The global scope stays. -/
  globals : after.globals = before.globals
  /-- The active scope is the same. -/
  active : after.active = before.active
  /-- Objects keep their methods. -/
  methods : after.methods = before.methods
  /-- Objects keep their fields. -/
  fields : before.host.Keeps after.host
  /-- Frames keep their functions and their variables, and the active one gains `names`. -/
  store : before.store.Evolves (fun id => Adds (if id = before.active then names else []))
    after.store

/-- Where only the host has changed, it must keep the fields of objects. -/
theorem Binds.ofHost {host : Host} (keeps : machine.host.Keeps host) :
    machine.Binds [] { machine with host } where
  base := rfl
  globals := rfl
  active := rfl
  methods := rfl
  fields := keeps
  store := by
    refine Evolves.refl (fun id own => ?_) machine.store
    rw [ite_self]
    exact Adds.refl own

/-- Nothing need change. -/
theorem Binds.refl (machine : Machine) : machine.Binds [] machine :=
  Binds.ofHost (.refl machine.host)

/-- Two changes one after the other are one change. -/
theorem Binds.trans (first : before.Binds names middle) (second : middle.Binds more after) :
    before.Binds (names ++ more) after where
  base := second.base.trans first.base
  globals := second.globals.trans first.globals
  active := second.active.trans first.active
  methods := second.methods.trans first.methods
  fields := first.fields.trans second.fields
  store := by
    refine first.store.trans second.store fun id _ one two three changed later => ?_
    rw [first.active] at later
    have added := changed.trans later
    by_cases own : id = before.active
    · simpa only [if_pos own] using added
    · simpa only [if_neg own, List.append_nil] using added

/-- A definition adds its name to the active scope. -/
theorem Binds.ofDefine {name : String} {value : Value}
    (defined : machine.define name value = (true, after)) : machine.Binds [name] after := by
  rw [define_eq] at defined
  split at defined
  · cases defined
  · cases defined
    refine ⟨rfl, rfl, rfl, rfl, .refl _, Store.evolves_bindVariable _ _ _ _ ?_ ?_⟩
    · intro other own inactive
      rw [if_neg inactive]
      exact Adds.refl own
    · intro frame _
      rw [if_pos rfl]
      exact Bindings.adds_bind frame.values name value

/-- An assignment adds no name. -/
theorem Binds.ofAssign {name : String} {value : Value} {success : Bool}
    (assigned : machine.assign name value = (success, after)) : machine.Binds [] after := by
  rw [assign_eq] at assigned
  split at assigned
  · cases assigned
    exact Binds.refl machine
  · next binder found =>
    cases assigned
    have bound := List.find?_some found
    refine ⟨rfl, rfl, rfl, rfl, .refl _, Store.evolves_bindVariable _ _ _ _ ?_ ?_⟩
    · intro other own _
      rw [ite_self]
      exact Adds.refl own
    · intro frame held
      rw [ite_self]
      rw [Store.localVariable?, held] at bound
      exact Bindings.adds_rebind value bound

/-- Work in a new scope inside the active one, which is given up at the end. -/
theorem Binds.ofEntered (inner : machine.enter.Binds names after) :
    machine.Binds [] (after.leave machine.active) where
  base := inner.base
  globals := inner.globals
  active := rfl
  methods := inner.methods
  fields := inner.fields
  store := by
    show machine.store.Evolves _ (after.store.release after.active)
    have entered : after.active = machine.store.frames.size := inner.active
    rw [entered]
    refine inner.store.ofChild fun id old one two changed => ?_
    have other : id ≠ machine.enter.active := Nat.ne_of_lt old
    rw [ite_self]
    rwa [if_neg other] at changed

/-- Work in a new scope inside the one that a method was defined in, which are both given up at the
end. -/
theorem Binds.ofEnteredMethod {closure : FrameId}
    (inner : (machine.enterMethod closure).Binds names after) :
    machine.Binds [] (after.leaveMethod closure machine.active) where
  base := inner.base
  globals := inner.globals
  active := rfl
  methods := inner.methods
  fields := inner.fields
  store := by
    show machine.store.Evolves _ ((after.store.release after.active).release closure)
    have entered : after.active = (machine.store.retain closure).frames.size := inner.active
    rw [entered]
    refine Evolves.ofRetained (inner.store.ofChild fun id old one two changed => ?_)
    have other : id ≠ (machine.enterMethod closure).active := Nat.ne_of_lt old
    rw [ite_self]
    rwa [if_neg other] at changed

end Machine

/-- Where all functions of the host are tame, runs bind no names but those that are declared. -/
theorem effect_binds : Effect (·.Knows Callable.Tame) (fun _ callable => callable.Tame)
    Machine.Binds where
  carry knows binds := knows.carry binds.store.localFunction?_eq binds.methods
  trans _ first second := first.trans second
  refl := Machine.Binds.refl _
  native _ tame acted := Machine.Binds.ofHost (HostFunction.Tame.acts tame acted)
  field assigned := Machine.Binds.ofHost (.ofAssign assigned)
  define := Machine.Binds.ofDefine
  assign := Machine.Binds.ofAssign
  enter knows := knows.enter
  leave := Machine.Binds.ofEntered
  enterMethod knows _ _ := knows.enterMethod _
  leaveMethod _ _ := Machine.Binds.ofEnteredMethod
  function knows found := knows.of_findFunction? found
  method knows found := knows.methods _ _ _ _ found

namespace Machine

variable {names fields : List String} {methods : List Method}
variable {machine before middle after : Machine}

/-- The variables of a frame after a run. -/
theorem Binds.variables (binds : before.Binds names after) {id : FrameId}
    (old : id < before.store.frames.size) (name : String) :
    (after.store.localVariable? id name).isSome =
      ((before.store.localVariable? id name).isSome || (id = before.active ∧ name ∈ names)) := by
  obtain ⟨own, later, added, was, is⟩ := binds.store.localVariable? old
  rw [was, is, added name]
  by_cases active : id = before.active <;> simp [active]

/-- What loading a program does to the names that are bound: the global scope gains `fields` and
`methods`, and besides them every frame and every object binds the same names and functions. -/
structure Gains (fields : List String) (methods : List Method) (before after : Machine) :
    Prop where
  /-- The base scope stays. -/
  base : after.base = before.base
  /-- The global scope stays. -/
  globals : after.globals = before.globals
  /-- The active scope is the same. -/
  active : after.active = before.active
  /-- Objects keep their methods. -/
  members : after.methods = before.methods
  /-- Objects keep their fields. -/
  kept : before.host.Keeps after.host
  /-- No frame is lost, and the frames around frames stay. -/
  store : before.store.Preserves after.store
  /-- Frames keep their variables, and the global scope gains the fields. -/
  fields : ∀ id < before.store.frames.size, ∀ name,
    (after.store.localVariable? id name).isSome =
      ((before.store.localVariable? id name).isSome || (id = before.globals ∧ name ∈ fields))
  /-- Frames keep their functions, and the global scope gains the methods. -/
  methods : ∀ id name arity, after.store.localFunction? id name arity =
    (before.store.localFunction? id name arity).or
      (if id = before.globals then
        (methods.find? (·.answers name arity)).map (.method · before.globals)
      else none)

/-- Defining fields in the global scope is loading them. -/
theorem Binds.gains (binds : before.Binds fields after)
    (atGlobals : before.active = before.globals) :
    before.Gains fields [] after where
  base := binds.base
  globals := binds.globals
  active := binds.active
  members := binds.methods
  kept := binds.fields
  store := binds.store.preserves
  fields id old name := atGlobals ▸ binds.variables old name
  methods id name arity := by
    rw [binds.store.localFunction?_eq]
    split <;> simp

/-- A method that is defined in the global scope is loaded. -/
theorem Gains.ofDefineMethod {declared : Method} (gains : before.Gains fields methods middle)
    (atGlobals : before.active = before.globals)
    (placed : before.globals < before.store.frames.size)
    (defined : middle.defineMethod declared = (true, after)) :
    before.Gains fields (methods ++ [declared]) after := by
  have within := Nat.lt_of_lt_of_le placed gains.store.size_le
  have active : middle.active = before.globals := gains.active.trans atGlobals
  have preserves := middle.store.preserves_defineFunction middle.active declared.name
    declared.parameters.length (.method declared middle.active)
  simp only [defineMethod, onStore] at defined
  unfold Store.defineFunction at defined preserves
  split at defined
  · cases defined
  next free =>
    rw [if_neg free] at preserves
    cases defined
    rw [active] at free preserves
    have unbound := gains.methods before.globals declared.name declared.parameters.length
    rw [Option.not_isSome_iff_eq_none.mp free, if_pos rfl, eq_comm, Option.or_eq_none_iff]
      at unbound
    obtain ⟨unbound, others⟩ := unbound
    refine ⟨gains.base, gains.globals, gains.active, gains.members, gains.kept,
      gains.store.trans (active ▸ preserves), fun id old name => ?_, fun id name arity => ?_⟩
    · simp only [Store.localVariable?_bindFunction]
      exact gains.fields id old name
    · rw [active, Store.localFunction?_bindFunction within, gains.methods, List.find?_append]
      by_cases own : id = before.globals
      · subst own
        simp only [true_and, if_true]
        by_cases called : name = declared.name ∧ arity = declared.parameters.length
        · obtain ⟨rfl, rfl⟩ := called
          have answers : declared.answers declared.name declared.parameters.length = true :=
            Method.answers_iff.mpr ⟨rfl, rfl⟩
          simp [unbound, Option.map_eq_none_iff.mp others, answers]
        · have other : declared.answers name arity = false := by
            rw [Bool.eq_false_iff]
            intro answers
            obtain ⟨same, also⟩ := Method.answers_iff.mp answers
            exact called ⟨same.symm, also.symm⟩
          simp [called, other]
      · rw [if_neg fun all => own all.1, if_neg own, if_neg own]

/-- A method that cannot be defined changes nothing. -/
theorem eq_of_defineMethod_false {declared : Method}
    (refused : machine.defineMethod declared = (false, after)) : after = machine := by
  simp only [defineMethod, onStore] at refused
  unfold Store.defineFunction at refused
  split at refused
  · cases refused
    rfl
  · cases refused

/-- What runs after loading adds nothing. -/
theorem Gains.follow (gains : before.Gains fields methods middle) (binds : middle.Binds [] after) :
    before.Gains fields methods after where
  base := binds.base.trans gains.base
  globals := binds.globals.trans gains.globals
  active := binds.active.trans gains.active
  members := binds.methods.trans gains.members
  kept := gains.kept.trans binds.fields
  store := gains.store.trans binds.store.preserves
  fields id old name := by
    rw [binds.variables (Nat.lt_of_lt_of_le old gains.store.size_le), gains.fields id old]
    simp
  methods id name arity := by
    rw [binds.store.localFunction?_eq, gains.methods]

/-- Loading adds no function of the host. -/
theorem Gains.knows (gains : before.Gains fields methods after)
    (knows : before.Knows Callable.Tame) : after.Knows Callable.Tame where
  functions id name arity callable found := by
    rw [gains.methods, Option.or_eq_some_iff] at found
    rcases found with earlier | ⟨_, added⟩
    · exact knows.functions id name arity callable earlier
    · split at added
      · obtain ⟨declared, _, rfl⟩ := Option.map_eq_some_iff.mp added
        trivial
      · cases added
  methods owner name arity callable found := by
    have same : after.method owner name arity = before.method owner name arity := by
      cases owner <;> simp only [Machine.method, gains.members]
    exact knows.methods owner name arity callable (same ▸ found)

/-- Defining methods in the global scope adds them to it, or the first of them if it fails. -/
theorem Gains.ofDefineMethods {rest : List Method} (gains : before.Gains fields methods middle)
    (atGlobals : before.active = before.globals)
    (placed : before.globals < before.store.frames.size) :
    (defineMethods rest middle).Leaves (before.Gains fields (methods ++ rest))
      fun after => ∃ more, more <+: rest ∧ before.Gains fields (methods ++ more) after := by
  induction rest generalizing methods middle with
  | nil =>
    rw [List.append_nil]
    exact gains
  | cons first rest ih =>
    rw [defineMethods]
    cases defined : middle.defineMethod first with
    | mk success between =>
      cases success with
      | false =>
        rw [eq_of_defineMethod_false defined]
        exact ⟨[], List.nil_prefix, by rwa [List.append_nil]⟩
      | true =>
        have further := ih (gains.ofDefineMethod atGlobals placed defined)
        simp only [Outcome.require, Outcome.andThen]
        cases ended : defineMethods rest between with
        | exhausted => trivial
        | done value after =>
          rw [ended, List.append_assoc] at further
          exact further
        | failed error after =>
          rw [ended] at further
          obtain ⟨more, front, loaded⟩ := further
          rw [List.append_assoc] at loaded
          exact ⟨first :: more, List.cons_prefix_cons.mpr ⟨rfl, front⟩, loaded⟩

/-- Running a program in the global scope adds its fields and methods to that, or the first of them
if it fails. -/
theorem gains_interpret (knows : machine.Knows Callable.Tame)
    (atGlobals : machine.active = machine.globals)
    (placed : machine.globals < machine.store.frames.size) (fuel : Nat) (program : Program) :
    (interpret fuel program machine).Leaves
      (machine.Gains (program.fields.map Field.name) program.methods)
      fun after => ∃ fields methods, fields <+: program.fields ∧ methods <+: program.methods ∧
        machine.Gains (fields.map Field.name) methods after := by
  have begun := effect_binds.defineFields_leaves fuel program.fields knows
  rw [interpret]
  cases first : defineFields fuel program.fields machine with
  | exhausted => trivial
  | failed error after =>
    rw [first] at begun
    obtain ⟨fields, front, binds⟩ := begun
    exact ⟨fields, [], front, List.nil_prefix, binds.gains atGlobals⟩
  | done value between =>
    rw [first] at begun
    have binds : machine.Binds (program.fields.map Field.name) between := begun
    have defined : (defineMethods program.methods between).Leaves _ _ :=
      (binds.gains atGlobals).ofDefineMethods atGlobals placed
    simp only [Outcome.andThen]
    cases second : defineMethods program.methods between with
    | exhausted => trivial
    | failed error after =>
      rw [second] at defined
      obtain ⟨methods, front, gains⟩ := defined
      exact ⟨program.fields, methods, List.prefix_rfl, front, gains⟩
    | done value after =>
      rw [second] at defined
      have gains : machine.Gains (program.fields.map Field.name) program.methods after := defined
      have tame := gains.knows knows
      dsimp only
      split
      next main found =>
        have called := (effect_binds.runsWithin fuel).call main [] after tame
          (tame.of_findFunction? found)
        cases ended : invoke fuel main [] after with
        | exhausted => trivial
        | done value last =>
          rw [ended] at called
          exact gains.follow called
        | failed error last =>
          rw [ended] at called
          exact ⟨_, _, List.prefix_rfl, List.prefix_rfl, gains.follow called⟩
      next => exact ⟨_, _, List.prefix_rfl, List.prefix_rfl, gains⟩

end Machine

/-- In a machine whose functions of the host give no object a field, a run binds no stray names,
whether it succeeds or fails. Evaluating an expression and calling something leave every frame and
every object with the names that they bind and every frame with its functions; a statement adds the
name that it declares to the active scope, unless it fails, and does nothing else to names. A
program that runs in the global scope adds its fields and methods to that, or its first ones if it
fails, and leaves the names and functions of the scope around it alone. -/
theorem run_binds_declared_names_only {machine : Machine} (tame : machine.Knows Callable.Tame)
    (fuel : Nat) :
    (∀ value after, (evaluate fuel value machine).state? = some after →
      machine.Binds [] after) ∧
    (∀ callable arguments after, callable.Tame →
      (invoke fuel callable arguments machine).state? = some after → machine.Binds [] after) ∧
    (∀ statement, (execute fuel statement machine).Leaves
      (machine.Binds statement.declared) (machine.Binds [])) ∧
    ∀ program, machine.active = machine.globals →
      machine.globals < machine.store.frames.size →
      (Machine.interpret fuel program machine).Leaves
        (machine.Gains (program.fields.map Field.name) program.methods)
        (fun after => ∃ fields methods, fields <+: program.fields ∧ methods <+: program.methods ∧
          machine.Gains (fields.map Field.name) methods after) ∧
      ∀ after outer, (Machine.interpret fuel program machine).state? = some after →
        machine.store.parent? machine.globals = some outer →
        (∀ name, (after.store.localVariable? outer name).isSome =
          (machine.store.localVariable? outer name).isSome) ∧
        ∀ name arity, after.store.localFunction? outer name arity =
          machine.store.localFunction? outer name arity := by
  have runs := effect_binds.runsWithin fuel
  refine ⟨fun value after => (runs.expression value machine tame).state,
    fun callable arguments after permitted =>
      (runs.call callable arguments machine tame permitted).state,
    fun statement => runs.statement statement machine tame,
    fun program atGlobals placed => ?_⟩
  have gains := Machine.gains_interpret tame atGlobals placed fuel program
  refine ⟨gains, fun after outer ended around => ?_⟩
  have older : outer < machine.globals := Store.parent?_lt around
  obtain ⟨fields, methods, loaded⟩ : ∃ fields methods, machine.Gains fields methods after := by
    cases result : Machine.interpret fuel program machine with
    | exhausted =>
      rw [result] at ended
      cases ended
    | done value last =>
      rw [result] at ended gains
      cases ended
      exact ⟨_, _, gains⟩
    | failed error last =>
      rw [result] at ended gains
      cases ended
      obtain ⟨fields, methods, _, _, loaded⟩ := gains
      exact ⟨_, _, loaded⟩
  refine ⟨fun name => ?_, fun name arity => ?_⟩
  · rw [loaded.fields outer (Nat.lt_trans older placed) name]
    simp [Nat.ne_of_lt older]
  · rw [loaded.methods, if_neg (Nat.ne_of_lt older), Option.or_none]

/-- Without a host the only function that a machine knows is `print`. -/
theorem Machine.tame_fresh (limit : Option Nat) : (Machine.fresh limit).Knows Callable.Tame :=
  (Machine.knows_fresh limit).imp fun callable plain => by
    cases callable with
    | native run => exact plain ▸ HostFunction.tame_print
    | method declared closure => trivial

/-- A machine whose host gives programs one function more, in the scope around theirs. -/
def Machine.lend (machine : Machine) (name : String) (arity : Nat) : Machine :=
  (machine.onStore
    (·.defineFunction machine.base name arity (.native (HostFunction.named name)))).2

/-- What a host gives to programs gives no object a field. -/
theorem Machine.Knows.lend {machine : Machine} (tame : machine.Knows Callable.Tame)
    (name : String) (arity : Nat) : (machine.lend name arity).Knows Callable.Tame where
  functions id called parameters callable found := by
    simp only [Machine.lend, Machine.onStore, Store.defineFunction] at found
    split at found
    · exact tame.functions id called parameters callable found
    · rcases Store.localFunction?_of_bindFunction found with earlier | rfl
      · exact tame.functions id called parameters callable earlier
      · exact HostFunction.tame_named name
  methods owner called parameters callable found := by
    have same : (machine.lend name arity).method owner called parameters =
        machine.method owner called parameters := by
      cases owner <;> rfl
    exact tame.methods owner called parameters callable (same ▸ found)

/-- A program that changes a field from a branch, calls a function of the host there and then fails,
with a variable of the branch and one of the method behind it. -/
def strayText : String :=
  "LET a: Integer = 1; DEF main() DO LET b = 2; IF TRUE DO LET c = 3; a = c; echo(c); END " ++
    "print(c); END"

/-- A program that was never analysed changes a field from a branch, calls a function of its host
and then fails, with a variable of the branch and one of the method behind it: only the field and
the method have been added. -/
theorem run_binds_declared_names_only_failing :
    ∃ program error after, Program.ofText strayText = .ok program ∧
      Machine.interpret 30 program ((Machine.fresh none).lend "echo" 1) = .failed error after ∧
      after.host.output.bytes.data.toList = [60, 51, 62, 10] ∧
      ∃ fields methods, fields <+: program.fields ∧ methods <+: program.methods ∧
        ((Machine.fresh none).lend "echo" 1).Gains (fields.map Field.name) methods after := by
  have computed : (Program.ofText strayText).toOption.any fun program =>
      (Machine.interpret 30 program ((Machine.fresh none).lend "echo" 1)).remains?.any fun left =>
        !left.1.isOk && left.2.data.toList = [60, 51, 62, 10] := by
    decide +kernel
  obtain ⟨program, read, passed⟩ := exists_ok_of_any computed
  have tame := (Machine.tame_fresh none).lend "echo" 1
  have gained := ((run_binds_declared_names_only tame 30).2.2.2 program rfl (by decide)).1
  cases ended : Machine.interpret 30 program ((Machine.fresh none).lend "echo" 1) with
  | exhausted => simp [ended, Outcome.remains?] at passed
  | done value after => simp [ended, Outcome.remains?, Except.isOk, Except.toBool] at passed
  | failed error after =>
    have written : after.host.output.bytes.data.toList = [60, 51, 62, 10] := by
      simpa [ended, Outcome.remains?, Except.isOk, Except.toBool] using passed
    rw [ended] at gained
    exact ⟨program, error, after, read, ended, written, gained⟩

end LetDef
