import LetDef.Proofs.Agreement.Scopes
import LetDef.Proofs.Embedding.Requests
import LetDef.Proofs.Run.Shelter
import LetDef.Proofs.Typing.Shelter

/-!
# No scope dies while it is in use

The scopes of an analyzer or a machine that was made inside a live base scope stay alive as long as
a request needs them. Whatever is asked for, at every state that a request comes to the frames of a
lookup are owned down to the base scope, and so is the scope that the machine's own methods
remember.
-/
namespace LetDef

/-- The task that a request gives a machine. -/
def Request.task (fuel : Nat) : Request → Machine → Task
  | .interpret program, machine => .program fuel program machine
  | .invoke callable arguments, machine => .call fuel callable arguments machine
  | .evaluate value, machine => .expression fuel value machine

/-- The task begins in the state in which the request is made. -/
@[simp] theorem Request.machine_task (fuel : Nat) (request : Request) (machine : Machine) :
    (request.task fuel machine).machine = machine := by
  cases request <;> rfl

/-- An analyzer inside a live base scope is founded. -/
theorem Analyzer.founded_inside {store : Store Variable Signature} {base : FrameId}
    (live : store.isLive base) (types : TypeTable) (members : Array Members) :
    (Analyzer.inside store base types members).position.Founded :=
  Store.founded_child live

/-- A machine inside a live base scope is founded. -/
theorem Machine.founded_inside {store : Store Value Callable} {base : FrameId}
    (live : store.isLive base) (host : Host) (methods : Array (Bindings (String × Nat) Callable)) :
    (Machine.inside store base host methods).position.Founded :=
  Store.founded_child live

/-- An analyzer for programs without a host is founded. -/
theorem Analyzer.founded_fresh : Analyzer.fresh.position.Founded :=
  Analyzer.founded_inside (by rfl) _ _

/-- A machine for programs without a host is founded. -/
theorem Machine.founded_fresh (limit : Option Nat) : (Machine.fresh limit).position.Founded :=
  Machine.founded_inside (by rfl) _ _

/-- A machine for programs without a host knows no method. -/
theorem Machine.closed_fresh (limit : Option Nat) : (Machine.fresh limit).Closed where
  functions id name arity callable found := by
    rw [Store.localFunction?_of_frames (frames_fresh limit), Bindings.get?_bind] at found
    split at found
    · split at found
      · cases found
        trivial
      · cases found
    · cases found
  methods owner name arity callable found := by
    have bare : (Machine.fresh limit).methods = #[] := rfl
    cases owner <;> simp [Machine.method, bare] at found

/-- The analysis of a program passes this state, wherever it has come to, while these frames are
held. -/
inductive Analyzer.Passes (analyzer : Analyzer) (program : Program) :
    List FrameId → Analyzer → Prop where
  | intro {held spot entry state} (arrives : (Spot.program program analyzer).Arrives held spot)
    (traverses : spot.Traverses entry state) :
    Passes analyzer program (entry.saves spot.analyzer.active ++ held) state

/-- A machine that serves a request passes this state, wherever it has come to, while these frames
are held and the surroundings of its work begin at `home`. -/
inductive Machine.Passes (machine : Machine) (request : Request) (fuel : Nat) :
    FrameId → List FrameId → Machine → Prop where
  | intro {held home task entry state}
    (arrives : (request.task fuel machine).Arrives held home task)
    (traverses : task.Traverses entry state) :
    Passes machine request fuel (entry.home home) (entry.saves task.machine.active ++ held) state

/-- What the request calls, if it calls anything, is a function of the host or a method that
remembers this scope. -/
def Request.Of (globals : FrameId) (request : Request) : Prop :=
  ∀ callable arguments, request = .invoke callable arguments → callable.Of globals

section Passes

variable {analyzer known : Analyzer} {machine state : Machine} {program : Program}
  {request : Request} {fuel : Nat} {home : FrameId} {held : List FrameId}

/-- What an analysis passes is sheltered. -/
theorem Analyzer.Passes.sheltered (passes : analyzer.Passes program held known)
    (founded : analyzer.position.Founded) : known.position.Sheltered known.globals held := by
  obtain ⟨arrives, traverses⟩ := passes
  exact arrives.sheltered_of_traverses founded traverses

namespace Machine

/-- The task of a request begins founded where the machine is. -/
theorem founded_task (founded : machine.position.Founded) (request : Request) (fuel : Nat) :
    (request.task fuel machine).machine.position.Founded := by
  rwa [request.machine_task fuel machine]

/-- What a machine passes is sheltered. -/
theorem Passes.sheltered (passes : machine.Passes request fuel home held state)
    (founded : machine.position.Founded) : state.position.Sheltered home held := by
  obtain ⟨arrives, traverses⟩ := passes
  exact (arrives.sheltered (founded_task founded request fuel)).lead traverses.opens.leads

/-- Until then the machine has added no methods but its own. -/
theorem Passes.extends (passes : machine.Passes request fuel home held state)
    (founded : machine.position.Founded) : machine.Extends state := by
  obtain ⟨arrives, traverses⟩ := passes
  have begun := founded_task founded request fuel
  have extended := (arrives.extends begun).trans (traverses.opens.extends (arrives.rests begun))
  rwa [request.machine_task fuel machine] at extended

/-- In a closed machine the surroundings of its work begin at the global scope. -/
theorem Passes.home_eq (passes : machine.Passes request fuel home held state)
    (founded : machine.position.Founded) (closed : machine.Closed)
    (own : request.Of machine.globals) : home = machine.globals := by
  obtain ⟨arrives, traverses⟩ := passes
  have same := request.machine_task fuel machine
  have closedThere : (request.task fuel machine).machine.Closed := same.symm ▸ closed
  have begins : ∀ callable, (request.task fuel machine).callable? = some callable →
      callable.Of (request.task fuel machine).machine.globals := by
    intro callable calls
    rw [same]
    cases request with
    | invoke called arguments =>
      cases calls
      exact own _ arguments rfl
    | interpret program => cases calls
    | evaluate value => cases calls
  rw [arrives.home_of_traverses (founded_task founded request fuel) closedThere begins traverses,
    same]

end Machine

end Passes

/-- The scopes of an analyzer stay alive, whatever is analysed next. -/
structure Analyzer.Shelters (analyzer : Analyzer) : Prop where
  /-- It is founded again after any programs, however their analysis ends. -/
  resumes : ∀ programs, (analyzer.afterAll programs).position.Founded
  /-- In every state that an analysis passes, the frames that the work there needs are owned. -/
  sheltered : ∀ program held state, analyzer.Passes program held state →
    state.position.Sheltered state.globals held
  /-- In these states a lookup passes owned frames alone, and comes to the base scope. -/
  grounded : ∀ program held state, analyzer.Passes program held state →
    state.position.Grounded held

/-- The scopes of a machine stay alive, whatever is asked of it next. -/
structure Machine.Shelters (machine : Machine) : Prop where
  /-- It is founded again after any requests, however each of them ends. -/
  resumes : ∀ requests after, machine.Serves requests after → after.position.Founded
  /-- In every state that it passes, the frames that the work there needs are owned. -/
  sheltered : ∀ request fuel home held state, machine.Passes request fuel home held state →
    state.position.Sheltered home held
  /-- Until then it has added only methods that remember its global scope, which is alive. -/
  remembered : ∀ request fuel home held state, machine.Passes request fuel home held state →
    machine.Extends state ∧ state.store.isLive machine.globals
  /-- If it knows no other methods, a lookup passes owned frames alone, and comes through the global
  scope to the base scope. -/
  grounded : machine.Closed → ∀ request, request.Of machine.globals → ∀ fuel home held state,
    machine.Passes request fuel home held state → state.position.Grounded held

/-- Analyzers and machines that are made inside a live base scope, and those that requests have left
behind, have their scopes kept alive throughout the next request, whatever it concerns and wherever
it has come to. All frames that a lookup passes down to the base scope are owned: by the active
place, by what the constructs, calls and blocks around go back to, by the closures of the calls, or
by the fields for the global and the base scope. A machine adds only methods that remember its
global scope, which is alive in all these states; and if it knows no other methods, every lookup
goes through that scope to the base scope. -/
theorem sheltered_throughout_requests :
    (∀ store base types members, store.isLive base →
      (Analyzer.inside store base types members).position.Founded) ∧
    (∀ store base host methods, store.isLive base →
      (Machine.inside store base host methods).position.Founded) ∧
    (∀ analyzer : Analyzer, analyzer.position.Founded → analyzer.Shelters) ∧
    ∀ machine : Machine, machine.position.Founded → machine.Shelters := by
  refine ⟨fun _ _ types members live => Analyzer.founded_inside live types members,
    fun _ _ host methods live => Machine.founded_inside live host methods,
    fun analyzer founded => ?_, fun machine founded => ?_⟩
  · refine ⟨fun programs => founded.resume (analyzer.resumes_afterAll programs).position,
      fun _ _ _ passes => passes.sheltered founded, fun _ _ _ passes => ?_⟩
    exact (passes.sheltered founded).grounded
  · refine ⟨fun _ _ serves => founded.resume serves.continues.position,
      fun _ _ _ _ _ passes => passes.sheltered founded, fun _ _ _ _ _ passes => ?_,
      fun closed _ own _ _ _ _ passes => ?_⟩
    · have extended := passes.extends founded
      refine ⟨extended, ?_⟩
      rw [← extended.globals]
      exact (passes.sheltered founded).isLive_globals
    · have sheltered := passes.sheltered founded
      rw [passes.home_eq founded closed own, ← (passes.extends founded).globals] at sheltered
      exact sheltered.grounded

/-- A call of a method of the global scope with a loop in its body. -/
def Request.loop : Request :=
  .invoke (.method ⟨"loop", [], none,
    [.repetition (.literal (.boolean true) none) [.result (.literal .nil none)]], none⟩ 1) []

/-- In the loop, where the global scope is held twice and the scope of the method once, the scopes
are sheltered, and a lookup comes to the base scope. The analysis of a program leaves its own
sheltered as well. -/
theorem sheltered_throughout_requests_loop :
    ∃ home held state, (Machine.fresh none).Passes .loop 9 home held state ∧ held = [2, 1, 1] ∧
      state.position.Sheltered home held ∧
      state.store.isLive (Machine.fresh none).globals ∧ state.position.Grounded held ∧
      (Program.empty.analyze .fresh).analyzer.position.Sheltered
        (Program.empty.analyze .fresh).analyzer.globals [] := by
  let called := (Machine.fresh none).enterMethod 1
  let body := [Stmt.result (.literal .nil none)]
  let loop := Stmt.repetition (.literal (.boolean true) none) body
  have method : (Request.loop.task 9 (.fresh none)).Arrives [1, 1] 1
      (.statements 8 [loop] called) :=
    .step .start (.methodBody rfl rfl)
  have rounds : (Request.loop.task 9 (.fresh none)).Arrives [1, 1] 1
      (.rounds 6 (.literal (.boolean true) none) body called) :=
    (method.step .firstStatement).step .rounds
  have round : (Request.loop.task 9 (.fresh none)).Arrives [2, 1, 1] 1
      (.statements 4 body called.enter) :=
    (rounds.step (.roundBody rfl rfl)).step .blockBody
  have passes : (Machine.fresh none).Passes .loop 9 1 [2, 1, 1] called.enter :=
    .intro round .beginning
  have analyzed : Analyzer.fresh.Passes .empty [] (Program.empty.analyze .fresh).analyzer :=
    .intro .start .ending
  have own : Request.loop.Of (Machine.fresh none).globals := by
    intro callable arguments same
    cases same
    rfl
  obtain ⟨_, _, analyzes, runs⟩ := sheltered_throughout_requests
  have shelters := runs (.fresh none) (Machine.founded_fresh none)
  have sheltered := shelters.sheltered _ _ _ _ _ passes
  have live := (shelters.remembered _ _ _ _ _ passes).2
  have grounded := shelters.grounded (Machine.closed_fresh none) _ own _ _ _ _ passes
  exact ⟨_, _, _, passes, rfl, sheltered, live, grounded,
    (analyzes .fresh Analyzer.founded_fresh).sheltered _ _ _ analyzed⟩

end LetDef
