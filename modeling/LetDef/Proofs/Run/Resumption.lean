import LetDef.Proofs.Run.Effect
import LetDef.Proofs.Scope.Evolution

/-!
# What runs leave of a machine

However a run ends, in whatever machine it began and whatever it called, the same scope is active as
before, the older frames are preserved, and no function has been added to any frame
(`Machine.Resumes`). Running a whole program adds functions as well, but only methods that remember
the scope that was active when the run began (`Machine.Continues`).
-/
namespace LetDef

namespace Machine

variable {machine before middle after : Machine}

/-- The machine is where it was, and its frames have changed in their variables alone. -/
structure Resumes (before after : Machine) : Prop where
  /-- The base scope stays. -/
  base : after.base = before.base
  /-- The global scope stays. -/
  globals : after.globals = before.globals
  /-- The active scope is the same. -/
  active : after.active = before.active
  /-- Objects keep their methods. -/
  methods : after.methods = before.methods
  /-- The variables of frames may have changed, and no more than that. -/
  store : before.store.Evolves (fun _ _ _ => True) after.store

/-- The machine is where it was, its frames are preserved, and the functions that have been added
are methods of the active scope. -/
structure Continues (before after : Machine) : Prop where
  /-- The base scope stays. -/
  base : after.base = before.base
  /-- The global scope stays. -/
  globals : after.globals = before.globals
  /-- The active scope is the same. -/
  active : after.active = before.active
  /-- Objects keep their methods. -/
  methods : after.methods = before.methods
  /-- The store is preserved. -/
  store : before.store.Preserves after.store
  /-- The functions were there before or are methods that remember the active scope. -/
  functions : ∀ id name arity callable,
    after.store.localFunction? id name arity = some callable →
      before.store.localFunction? id name arity = some callable ∨
        ∃ declared, callable = .method declared before.active

/-- A machine that is where it was continues. -/
theorem Resumes.continues (resumes : before.Resumes after) : before.Continues after where
  base := resumes.base
  globals := resumes.globals
  active := resumes.active
  methods := resumes.methods
  store := resumes.store.preserves
  functions id name arity _ found :=
    .inl ((resumes.store.localFunction?_eq id name arity).symm.trans found)

/-- A machine that twice is where it was is where it was. -/
theorem Resumes.trans (first : before.Resumes middle) (second : middle.Resumes after) :
    before.Resumes after where
  base := second.base.trans first.base
  globals := second.globals.trans first.globals
  active := second.active.trans first.active
  methods := second.methods.trans first.methods
  store := first.store.trans second.store fun _ _ _ _ _ _ _ => trivial

/-- A machine that continues twice continues. -/
theorem Continues.trans (first : before.Continues middle) (second : middle.Continues after) :
    before.Continues after where
  base := second.base.trans first.base
  globals := second.globals.trans first.globals
  active := second.active.trans first.active
  methods := second.methods.trans first.methods
  store := first.store.trans second.store
  functions id name arity callable found := by
    rcases second.functions id name arity callable found with earlier | ⟨declared, added⟩
    · exact first.functions id name arity callable earlier
    · exact .inr ⟨declared, first.active ▸ added⟩

/-- The host may act. -/
theorem Resumes.ofHost (host : Host) : machine.Resumes { machine with host } :=
  ⟨rfl, rfl, rfl, rfl, Store.Evolves.refl (fun _ _ => trivial) machine.store⟩

/-- Nothing need happen. -/
theorem Resumes.refl (machine : Machine) : machine.Resumes machine :=
  Resumes.ofHost machine.host

/-- A variable of any frame may get a value. -/
theorem Resumes.ofBindVariable (id : FrameId) (name : String) (value : Value) :
    machine.Resumes { machine with store := machine.store.bindVariable id name value } :=
  ⟨rfl, rfl, rfl, rfl, Store.evolves_bindVariable _ _ _ _ (fun _ _ _ => trivial) fun _ _ => trivial⟩

/-- A variable may be defined. -/
theorem Resumes.ofDefine {name : String} {value : Value} {success : Bool}
    (defined : machine.define name value = (success, after)) : machine.Resumes after := by
  rw [define_eq] at defined
  split at defined
  · cases defined
    exact Resumes.refl machine
  · cases defined
    exact Resumes.ofBindVariable _ _ _

/-- A variable may be assigned. -/
theorem Resumes.ofAssign {name : String} {value : Value} {success : Bool}
    (assigned : machine.assign name value = (success, after)) : machine.Resumes after := by
  rw [assign_eq] at assigned
  split at assigned
  · cases assigned
    exact Resumes.refl machine
  · cases assigned
    exact Resumes.ofBindVariable _ _ _

/-- Work in a new scope inside the active one, which is given up at the end. -/
theorem Resumes.ofEntered (inner : machine.enter.Resumes after) :
    machine.Resumes (after.leave machine.active) where
  base := inner.base
  globals := inner.globals
  active := rfl
  methods := inner.methods
  store := by
    show machine.store.Evolves _ (after.store.release after.active)
    have entered : after.active = machine.store.frames.size := inner.active
    rw [entered]
    exact inner.store.ofChild fun _ _ _ _ _ => trivial

/-- Work in a new scope inside the one that a method remembers, which are both given up at the
end. -/
theorem Resumes.ofEnteredMethod {closure : FrameId}
    (inner : (machine.enterMethod closure).Resumes after) :
    machine.Resumes (after.leaveMethod closure machine.active) where
  base := inner.base
  globals := inner.globals
  active := rfl
  methods := inner.methods
  store := by
    show machine.store.Evolves _ ((after.store.release after.active).release closure)
    have entered : after.active = (machine.store.retain closure).frames.size := inner.active
    rw [entered]
    exact Store.Evolves.ofRetained (inner.store.ofChild fun _ _ _ _ _ => trivial)

/-- Defining a method adds a method that remembers the active scope. -/
theorem Continues.ofDefineMethod {declared : Method} {success : Bool}
    (defined : machine.defineMethod declared = (success, after)) : machine.Continues after := by
  have preserves := machine.store.preserves_defineFunction machine.active declared.name
    declared.parameters.length (.method declared machine.active)
  simp only [defineMethod, onStore] at defined
  unfold Store.defineFunction at defined preserves
  split at defined
  next bound =>
    cases defined
    exact (Resumes.refl machine).continues
  next bound =>
    cases defined
    rw [if_neg bound] at preserves
    refine ⟨rfl, rfl, rfl, rfl, preserves, fun id name arity callable found => ?_⟩
    rcases Store.localFunction?_of_bindFunction found with earlier | added
    · exact .inl earlier
    · exact .inr ⟨declared, added⟩

end Machine

/-- All runs, in whatever machine they begin, leave it where it was. -/
theorem effect_resumes :
    Effect (fun _ => True) (fun _ _ => True) (fun _ before after => before.Resumes after) where
  carry _ _ := trivial
  trans _ first second := first.trans second
  refl := Machine.Resumes.refl _
  native _ _ _ := Machine.Resumes.ofHost _
  field _ := Machine.Resumes.ofHost _
  define := Machine.Resumes.ofDefine
  assign := Machine.Resumes.ofAssign
  enter _ := trivial
  leave := Machine.Resumes.ofEntered
  enterMethod _ _ _ := trivial
  leaveMethod _ _ := Machine.Resumes.ofEnteredMethod
  function _ _ := trivial
  method _ _ := trivial

/-- With any fuel, every run leaves the machine where it was. -/
theorem runsResuming (fuel : Nat) :
    RunsWithin (fun _ => True) (fun _ _ => True) (fun _ before after => before.Resumes after)
      fuel :=
  effect_resumes.runsWithin fuel

/-- However it ends, an outcome leaves the machine where it was. -/
def Outcome.Continues {α : Type} (outcome : Outcome α) (machine : Machine) : Prop :=
  outcome.Leaves machine.Continues machine.Continues

/-- A run that leaves the machine where it was may be followed by another. -/
theorem Outcome.Continues.andThen {α β : Type} {outcome : Outcome α}
    {go : α → Machine → Outcome β} {machine : Machine} (first : outcome.Continues machine)
    (second : ∀ value after, (go value after).Continues after) :
    (outcome.andThen go).Continues machine := by
  refine Outcome.Leaves.andThen first fun value between begun => ?_
  have later := second value between
  cases followed : go value between with
  | done result after =>
    rw [followed] at later
    exact begun.trans later
  | failed error after =>
    rw [followed] at later
    exact begun.trans later
  | exhausted => trivial

/-- What leaves the machine where it was lets it continue. -/
theorem Outcome.Keeps.continues {α : Type} {outcome : Outcome α} {machine : Machine}
    (keeps : outcome.Keeps (fun _ before after => before.Resumes after) machine) :
    outcome.Continues machine := by
  cases outcome with
  | done value after => exact Machine.Resumes.continues keeps
  | failed error after => exact Machine.Resumes.continues keeps
  | exhausted => trivial

namespace Machine

/-- Defining fields leaves the machine where it was. -/
theorem continues_defineFields (fuel : Nat) (fields : List Field) (machine : Machine) :
    (defineFields fuel fields machine).Continues machine := by
  have grows : (defineFields fuel fields machine).Grows _ machine :=
    effect_resumes.defineFields fuel fields trivial
  cases ended : defineFields fuel fields machine with
  | done value after =>
    rw [ended] at grows
    obtain ⟨_, resumes⟩ := grows
    exact resumes.continues
  | failed error after =>
    rw [ended] at grows
    obtain ⟨_, resumes⟩ := grows
    exact resumes.continues
  | exhausted => trivial

/-- Defining methods adds methods that remember the active scope. -/
theorem continues_defineMethods (methods : List Method) (machine : Machine) :
    (defineMethods methods machine).Continues machine := by
  induction methods generalizing machine with
  | nil => exact (Resumes.refl machine).continues
  | cons first rest ih =>
    rw [defineMethods]
    refine Outcome.Continues.andThen ?_ fun _ after => ih after
    cases defined : machine.defineMethod first with
    | mk success after =>
      cases success <;> exact Continues.ofDefineMethod defined

/-- Running a program leaves the machine where it was, with more methods of the active scope. -/
theorem continues_interpret (fuel : Nat) (program : Program) (machine : Machine) :
    (interpret fuel program machine).Continues machine := by
  rw [interpret]
  refine (continues_defineFields fuel program.fields machine).andThen fun _ between =>
    (continues_defineMethods program.methods between).andThen fun _ after => ?_
  split
  next main found => exact ((runsResuming fuel).call main [] after trivial trivial).continues
  next => exact (Resumes.refl after).continues

end Machine

end LetDef
