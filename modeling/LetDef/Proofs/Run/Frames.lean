import LetDef.Proofs.Run.Effect
import LetDef.Proofs.Run.Failure
import LetDef.Proofs.Scope.Evolution

/-!
# What a run does to scopes

Whatever a run evaluates or executes, it is back in the scope in which it began, and the scopes that
existed before have changed in the values of their variables alone (`Machine.Becomes`): a name is
only added by a declaration, to the scope in which that stands, and values change only in the active
scope, in the scopes around it, and in those around the scopes in which methods were defined. All of
this holds for programs that were never analysed, and after errors as well (`runsWithin`).
-/
namespace LetDef

open Store (Evolves)
open Bindings (Adds)

/-- A method that can be called was defined in a scope around which there are only `scopes`. -/
def Callable.Within (store : Store Value Callable) (scopes : FrameId → Prop) : Callable → Prop
  | .native _ => True
  | .method _ closure =>
    closure < store.frames.size ∧ ∀ id ∈ store.ancestors closure, scopes id

/-- What is around a scope matters to a callable, and no more than that. -/
theorem Callable.Within.carry {scopes : FrameId → Prop} {before after : Store Value Callable}
    {callable : Callable} (within : callable.Within before scopes)
    (size_le : before.frames.size ≤ after.frames.size)
    (same : ∀ id < before.frames.size, after.ancestors id = before.ancestors id) :
    callable.Within after scopes := by
  cases callable with
  | native run => trivial
  | method declared closure =>
    refine ⟨Nat.lt_of_lt_of_le within.1 size_le, ?_⟩
    rw [same closure within.1]
    exact within.2

namespace Machine

variable {scopes : FrameId → Prop} {names more : List String}
variable {machine before middle after : Machine}

/-- A machine is in a scope of its store, and the methods that it can call were defined where only
`scopes` are around. -/
structure Confined (machine : Machine) (scopes : FrameId → Prop) : Prop where
  /-- The active scope exists. -/
  placed : machine.active < machine.store.frames.size
  /-- The functions of its scopes were defined there. -/
  functions : ∀ id name arity callable,
    machine.store.localFunction? id name arity = some callable →
      callable.Within machine.store scopes
  /-- The methods of its objects were defined there. -/
  methods : ∀ owner name arity callable, machine.method owner name arity = .ok callable →
    callable.Within machine.store scopes

/-- How the variables of a scope may change: the active one may gain `names`, and out of reach they
stay as they are. -/
def Touches (machine : Machine) (scopes : FrameId → Prop) (names : List String) (id : FrameId)
    (one two : Bindings String Value) : Prop :=
  Adds (if id = machine.active then names else []) one two ∧
    (id ∉ machine.store.ancestors machine.active → ¬ scopes id → two = one)

/-- What a run may do to a machine: the same scope is active, and the scopes have changed in their
variables alone, which are the same ones except for `names` in the active scope. -/
structure Becomes (scopes : FrameId → Prop) (names : List String) (before after : Machine) :
    Prop where
  /-- The base scope stays. -/
  base : after.base = before.base
  /-- The global scope stays. -/
  globals : after.globals = before.globals
  /-- The active scope is the same. -/
  active : after.active = before.active
  /-- Objects keep their methods. -/
  methods : after.methods = before.methods
  /-- The scopes have changed so. -/
  store : before.store.Evolves (before.Touches scopes names) after.store

/-- Nothing need change but the output and the fields of objects. -/
theorem Becomes.ofHost (host : Host) : machine.Becomes scopes [] { machine with host } where
  base := rfl
  globals := rfl
  active := rfl
  methods := rfl
  store := by
    refine Evolves.refl (fun id own => ⟨?_, fun _ _ => rfl⟩) machine.store
    rw [ite_self]
    exact Adds.refl own

/-- Nothing need change. -/
theorem Becomes.refl : machine.Becomes scopes [] machine :=
  Becomes.ofHost machine.host

/-- Two changes one after the other are one change. -/
theorem Becomes.trans (placed : before.active < before.store.frames.size)
    (first : before.Becomes scopes names middle) (second : middle.Becomes scopes more after) :
    before.Becomes scopes (names ++ more) after where
  base := second.base.trans first.base
  globals := second.globals.trans first.globals
  active := second.active.trans first.active
  methods := second.methods.trans first.methods
  store := by
    refine first.store.trans second.store fun id _ one two three changed later => ?_
    rw [Touches, first.active, first.store.ancestors_eq placed] at later
    refine ⟨?_, fun apart outside => ?_⟩
    · have added := changed.1.trans later.1
      by_cases own : id = before.active
      · simpa only [if_pos own] using added
      · simpa only [if_neg own, List.append_nil] using added
    · rw [later.2 apart outside, changed.2 apart outside]

/-- A machine stays confined when its scopes gain no functions and stay where they are. -/
theorem Confined.carry (confined : before.Confined scopes)
    (placed : after.active < after.store.frames.size)
    (size_le : before.store.frames.size ≤ after.store.frames.size)
    (same : ∀ id < before.store.frames.size, after.store.ancestors id = before.store.ancestors id)
    (functions : ∀ id name arity,
      after.store.localFunction? id name arity = before.store.localFunction? id name arity)
    (methods : after.methods = before.methods) : after.Confined scopes where
  placed := placed
  functions id name arity callable found := by
    rw [functions] at found
    exact (confined.functions id name arity callable found).carry size_le same
  methods owner name arity callable found := by
    have unchanged : after.method owner name arity = before.method owner name arity := by
      cases owner <;> simp only [Machine.method, methods]
    rw [unchanged] at found
    exact (confined.methods owner name arity callable found).carry size_le same

/-- A confined machine stays confined. -/
theorem Confined.become (confined : before.Confined scopes)
    (becomes : before.Becomes scopes names after) : after.Confined scopes := by
  refine confined.carry ?_ becomes.store.size_le (fun _ => becomes.store.ancestors_eq)
    becomes.store.localFunction?_eq becomes.methods
  rw [becomes.active]
  exact Nat.lt_of_lt_of_le confined.placed becomes.store.size_le

/-- A definition adds its name to the active scope. -/
theorem Becomes.ofDefine {name : String} {value : Value}
    (defined : machine.define name value = (true, after)) :
    machine.Becomes scopes [name] after := by
  rw [define_eq] at defined
  split at defined
  · cases defined
  · injection defined with _ same
    subst same
    refine ⟨rfl, rfl, rfl, rfl, Store.evolves_bindVariable _ _ _ _ ?_ ?_⟩
    · intro other own inactive
      rw [Touches, if_neg inactive]
      exact ⟨Adds.refl own, fun _ _ => rfl⟩
    · intro frame held
      rw [Touches, if_pos rfl]
      refine ⟨Bindings.adds_bind frame.values name value, fun apart => absurd ?_ apart⟩
      obtain ⟨rest, split⟩ := machine.store.ancestors_eq_cons machine.active
      rw [split]
      exact List.mem_cons_self

/-- An assignment adds no name. -/
theorem Becomes.ofAssign {name : String} {value : Value} {success : Bool}
    (assigned : machine.assign name value = (success, after)) :
    machine.Becomes scopes [] after := by
  rw [assign_eq] at assigned
  split at assigned
  · injection assigned with _ same
    exact same ▸ Becomes.refl
  · next binder found =>
    injection assigned with _ same
    subst same
    have bound := List.find?_some found
    have around := List.mem_of_find?_eq_some found
    refine ⟨rfl, rfl, rfl, rfl, Store.evolves_bindVariable _ _ _ _ ?_ ?_⟩
    · intro other own _
      rw [Touches, ite_self]
      exact ⟨Adds.refl own, fun _ _ => rfl⟩
    · intro frame held
      rw [Touches, ite_self]
      rw [Store.localVariable?, held] at bound
      exact ⟨Bindings.adds_rebind value bound, fun apart => absurd around apart⟩

/-- A machine may enter a new scope inside the active one. -/
theorem Confined.enter (confined : machine.Confined scopes) : machine.enter.Confined scopes := by
  have sizes : machine.enter.store.frames.size = machine.store.frames.size + 1 :=
    Store.size_child machine.store machine.active
  refine confined.carry ?_ ?_ (fun _ => Store.ancestors_child)
    (fun _ => Store.localFunction?_child) rfl
  · rw [sizes]
    exact Nat.lt_succ_self _
  · rw [sizes]
    exact Nat.le_succ _

/-- A machine may enter a new scope inside a live one that its methods are confined to. -/
theorem Confined.enterMethod {closure : FrameId} (confined : machine.Confined scopes)
    (live : machine.store.isLive closure) : (machine.enterMethod closure).Confined scopes := by
  have sizes : (machine.enterMethod closure).store.frames.size =
      machine.store.frames.size + 1 := by
    show ((machine.store.retain closure).child closure).2.frames.size = _
    rw [Store.size_child, Store.retain, Store.size_update]
  refine confined.carry ?_ ?_ (fun id old => ?_) (fun id name arity => ?_) rfl
  · show (machine.store.retain closure).frames.size < _
    rw [sizes, Store.retain, Store.size_update]
    exact Nat.lt_succ_self _
  · rw [sizes]
    exact Nat.le_succ _
  · have retained : id < (machine.store.retain closure).frames.size := by
      rwa [Store.retain, Store.size_update]
    exact (Store.ancestors_child retained).trans (Store.ancestors_retain live)
  · exact (Store.localFunction?_child name arity).trans (Store.localFunction?_retain name arity)

/-- Work in a new scope inside the active one, which is given up at the end. -/
theorem Becomes.ofEntered (inner : machine.enter.Becomes scopes names after) :
    machine.Becomes scopes [] (after.leave machine.active) where
  base := inner.base
  globals := inner.globals
  active := rfl
  methods := inner.methods
  store := by
    show machine.store.Evolves _ (after.store.release after.active)
    have entered : after.active = machine.store.frames.size := inner.active
    rw [entered]
    refine inner.store.ofChild fun id old one two changed => ?_
    have other : id ≠ machine.enter.active := Nat.ne_of_lt old
    rw [Touches, ite_self]
    rw [Touches, if_neg other] at changed
    refine ⟨changed.1, fun apart outside => changed.2 (fun member => ?_) outside⟩
    rcases Store.mem_ancestors_child_self member with same | around
    · exact Nat.ne_of_lt old same
    · exact apart around

/-- Work in a new scope inside the one that a method was defined in, which are both given up at the
end. -/
theorem Becomes.ofEnteredMethod {closure : FrameId} (live : machine.store.isLive closure)
    (within : ∀ id ∈ machine.store.ancestors closure, scopes id)
    (inner : (machine.enterMethod closure).Becomes scopes names after) :
    machine.Becomes scopes [] (after.leaveMethod closure machine.active) where
  base := inner.base
  globals := inner.globals
  active := rfl
  methods := inner.methods
  store := by
    show machine.store.Evolves _ ((after.store.release after.active).release closure)
    have entered : after.active = (machine.store.retain closure).frames.size := inner.active
    rw [entered]
    refine Evolves.ofRetained (inner.store.ofChild fun id old one two changed => ?_)
    have other : id ≠ (machine.enterMethod closure).active := Nat.ne_of_lt old
    rw [Touches, ite_self]
    rw [Touches, if_neg other] at changed
    refine ⟨changed.1, fun _ outside => changed.2 (fun member => ?_) outside⟩
    rcases Store.mem_ancestors_child_self member with same | around
    · exact Nat.ne_of_lt old same
    · rw [Store.ancestors_retain live] at around
      exact outside (within id around)

end Machine

section Runs

variable {scopes : FrameId → Prop} {names : List String} {machine between : Machine}

/-- Runs keep confined machines confined and change their scopes as they may. -/
theorem effect_confined (scopes : FrameId → Prop) :
    Effect (·.Confined scopes) (fun machine callable => callable.Within machine.store scopes)
      (Machine.Becomes scopes) where
  carry confined becomes := confined.become becomes
  trans confined first second := first.trans confined.placed second
  refl := Machine.Becomes.refl
  native _ _ _ := Machine.Becomes.ofHost _
  field _ := Machine.Becomes.ofHost _
  define := Machine.Becomes.ofDefine
  assign := Machine.Becomes.ofAssign
  enter confined := confined.enter
  leave := Machine.Becomes.ofEntered
  enterMethod confined _ live := confined.enterMethod live
  leaveMethod within live inner := Machine.Becomes.ofEnteredMethod live within.2 inner
  function confined found := by
    obtain ⟨id, _, held⟩ := List.exists_of_findSome?_eq_some found
    exact confined.functions id _ _ _ held
  method confined found := confined.methods _ _ _ _ found

/-- With any fuel, every run changes scopes as it may. -/
theorem runsWithin (scopes : FrameId → Prop) (fuel : Nat) :
    RunsWithin (·.Confined scopes) (fun machine callable => callable.Within machine.store scopes)
      (Machine.Becomes scopes) fuel :=
  (effect_confined scopes).runsWithin fuel

/-- Definitions add their names to the active scope, or some of them if they do not all succeed. -/
theorem Machine.Becomes.ofDefineAll {pairs : List (String × Value)} {refused : Option String}
    {after : Machine} (confined : machine.Confined scopes)
    (defined : machine.defineAll pairs = (refused, after)) :
    ∃ names ⊆ pairs.map Prod.fst, machine.Becomes scopes names after :=
  (effect_confined scopes).defineAll confined defined

/-- What follows a change adds names to the same scope. -/
theorem Outcome.Grows.after {α : Type} {outcome : Outcome α} (confined : machine.Confined scopes)
    (begun : machine.Becomes scopes names between)
    (ended : outcome.Grows (Machine.Becomes scopes) between) :
    outcome.Grows (Machine.Becomes scopes) machine :=
  (effect_confined scopes).follow confined begun ended

end Runs

/-- A call does not depend on the scope in which it happens, which is active again after it. -/
theorem invoke_active (fuel : Nat) (callable : Callable) (arguments : List Value)
    (machine : Machine) (scope : FrameId) :
    invoke fuel callable arguments { machine with active := scope } =
      (invoke fuel callable arguments machine).leaving ({ · with active := scope }) := by
  cases fuel with
  | zero => rfl
  | succ fuel =>
    cases callable with
    | native run =>
      cases acted : run machine.host arguments with
      | mk result host =>
        simp only [invoke, Machine.onHost, acted]
        cases result <;> rfl
    | method declared closure =>
      have entered : Machine.enterMethod { machine with active := scope } closure =
        machine.enterMethod closure := rfl
      by_cases live : machine.store.isLive closure
      · cases defined : (machine.enterMethod closure).defineAll
            ((declared.parameters.map Parameter.name).zip arguments) with
        | mk refused between =>
          cases refused with
          | some name =>
            simp only [invoke, if_pos live, entered, defined]
            rfl
          | none =>
            simp only [invoke, if_pos live, entered, defined]
            cases executeAll fuel declared.body between <;> rfl
      · simp only [invoke, if_neg live]
        rfl

end LetDef
