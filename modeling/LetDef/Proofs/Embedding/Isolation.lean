import LetDef.Proofs.Embedding.Shelter
import LetDef.Proofs.Run.Isolation

/-!
# Methods do not depend on their caller

What a method of a program does depends on the global scope and the scopes around it, on the output
and on objects, and on nothing else: not on the scope in which it is called, not on the variables of
its caller, and not on how deep in other calls that is. Nor does it change any variable there.
-/
namespace LetDef

/-- The callable is a function of the host. -/
def Callable.Foreign : Callable → Prop
  | .native _ => True
  | .method _ _ => False

namespace Machine

variable {one other machine after later : Machine}

/-- The global scope and the scopes around it. -/
def home (machine : Machine) : List FrameId :=
  machine.store.ancestors machine.globals

/-- Whatever can be called is a function of the host, or a method that was defined in the global
scope or in a scope around it. -/
def Rooted (machine : Machine) : Prop :=
  machine.Knows (Callable.Shared machine.home)

/-- Two machines have the same output and the same objects, and the same global scope with the same
scopes around it. Whatever else they have, and where they are, may differ. -/
structure Peers (one other : Machine) : Prop where
  /-- They have the same output and the same fields of objects. -/
  host : one.host = other.host
  /-- Objects have the same methods. -/
  methods : one.methods = other.methods
  /-- They have the same base scope. -/
  base : one.base = other.base
  /-- They have the same global scope. -/
  globals : one.globals = other.globals
  /-- The same scopes are around the global scope. -/
  home : one.home = other.home
  /-- The same of these are alive. -/
  live : ∀ id ∈ one.home, one.store.isLive id = other.store.isLive id
  /-- These have the same variables. -/
  values : ∀ id ∈ one.home, ∀ name,
    one.store.localVariable? id name = other.store.localVariable? id name
  /-- These have the same functions. -/
  functions : ∀ id ∈ one.home, ∀ name arity,
    one.store.localFunction? id name arity = other.store.localFunction? id name arity

/-- A global scope that is alive exists, as the scopes around it do. -/
theorem lt_size_of_mem_home (live : machine.store.isLive machine.globals) {id : FrameId}
    (around : id ∈ machine.home) : id < machine.store.frames.size :=
  Nat.lt_of_le_of_lt (Store.le_of_mem_ancestors around) (Store.lt_size_of_isLive live)

/-- The global scope is one of them. -/
theorem globals_mem_home (machine : Machine) : machine.globals ∈ machine.home := by
  obtain ⟨rest, chain⟩ := machine.store.ancestors_eq_cons machine.globals
  rw [home, chain]
  exact List.mem_cons_self

/-- A machine that enters a new scope is a peer of what it was. -/
theorem peers_enter (live : machine.store.isLive machine.globals) :
    machine.Peers machine.enter where
  host := rfl
  methods := rfl
  base := rfl
  globals := rfl
  home := (Store.ancestors_child (Store.lt_size_of_isLive live)).symm
  live _ around := (Store.isLive_child (lt_size_of_mem_home live around)).symm
  values id around name := by
    have old := Nat.ne_of_lt (lt_size_of_mem_home live around)
    exact ((Store.localVariable?_child name).trans (if_neg old)).symm
  functions _ _ name arity := (Store.localFunction?_child name arity).symm

/-- A variable of a scope that is not around the global one does not matter to peers. -/
theorem Peers.define (peers : one.Peers other) (live : other.store.isLive other.globals)
    (placed : other.active < other.store.frames.size) (apart : other.active ∉ other.home)
    (name : String) (value : Value) : one.Peers (other.define name value).2 := by
  rw [define_eq]
  split
  · exact peers
  · have resumes : other.Resumes
        { other with store := other.store.bindVariable other.active name value } :=
      Resumes.ofBindVariable other.active name value
    have evolves := resumes.store
    have home := evolves.ancestors_eq (Store.lt_size_of_isLive live)
    refine ⟨peers.host, peers.methods, peers.base, peers.globals, peers.home.trans home.symm,
      fun id around => ?_, fun id around own => ?_, fun id around own arity => ?_⟩
    · rw [peers.live id around]
      exact (evolves.isLive_eq (lt_size_of_mem_home live (peers.home ▸ around))).symm
    · have other_id : id ≠ other.active := fun same => apart (same ▸ peers.home ▸ around)
      rw [peers.values id around, Store.localVariable?_bindVariable placed,
        if_neg fun both => other_id both.1]
    · rw [peers.functions id around]
      exact (evolves.localFunction?_eq id own arity).symm

/-- Peers that go to their global scope are beside each other. -/
theorem Peers.beside (peers : one.Peers other) (live : one.store.isLive one.globals) :
    Beside one.home one.store.frames.size other.store.frames.size
      { one with active := one.globals } { other with active := other.globals } := by
  have live' : other.store.isLive other.globals := by
    rw [← peers.globals, ← peers.live _ one.globals_mem_home]
    exact live
  have path : one.store.ancestors one.globals = other.store.ancestors other.globals := peers.home
  refine ⟨peers.host, peers.methods, peers.base, peers.globals, fun id around => ?_,
    ⟨0, rfl, rfl⟩, fun id around => ?_, peers.live, ?_, ?_, ?_, fun linked name => ?_,
    fun linked name arity => ?_⟩
  · have around' : id ∈ other.home := peers.home ▸ around
    exact ⟨lt_size_of_mem_home live around, lt_size_of_mem_home live' around'⟩
  · have around' : id ∈ other.store.ancestors other.globals := path ▸ around
    show one.store.ancestors id = other.store.ancestors id ∧ one.store.ancestors id ⊆ one.home
    rw [Store.ancestors_of_mem around, Store.ancestors_of_mem around', path]
    refine ⟨rfl, ?_⟩
    rw [peers.home]
    exact List.filter_subset_self _
  · exact live.trans live'.symm
  · exact ⟨Store.lt_size_of_isLive live, Store.lt_size_of_isLive live'⟩
  · show List.Forall₂ _ (one.store.ancestors one.globals) (other.store.ancestors other.globals)
    rw [← path]
    exact List.forall₂_same.mpr fun id around => .common around
  · cases linked with
    | common around => exact peers.values _ around name
    | made count =>
      exact (Store.localVariable?_of_size_le (Nat.le_add_right _ _) name).trans
        (Store.localVariable?_of_size_le (Nat.le_add_right _ _) name).symm
  · cases linked with
    | common around => exact peers.functions _ around name arity
    | made count =>
      exact (Store.localFunction?_of_size_le (Nat.le_add_right _ _) name arity).trans
        (Store.localFunction?_of_size_le (Nat.le_add_right _ _) name arity).symm

/-- Machines beside each other are peers, whatever scopes are active, if their common scopes are
those around the global one. -/
theorem Beside.peers {first second : Nat}
    (beside : Beside after.home first second after later) (scope scope' : FrameId) :
    Peers { after with active := scope } { later with active := scope' } where
  host := beside.host
  methods := beside.methods
  base := beside.base
  globals := beside.globals
  home := (beside.around _ after.globals_mem_home).1.trans
    (congrArg later.store.ancestors beside.globals)
  live := beside.live
  values _ around := beside.values (.common around)
  functions _ around := beside.functions (.common around)

/-- Which scope is active does not matter to what can be called. -/
theorem Rooted.activate (rooted : machine.Rooted) (scope : FrameId) :
    Knows { machine with active := scope } (Callable.Shared machine.home) :=
  rooted.carry (fun _ _ _ => rfl) rfl

/-- A rooted machine in a live global scope stays rooted when a variable is defined. -/
theorem Rooted.define (rooted : machine.Rooted) (live : machine.store.isLive machine.globals)
    (name : String) (value : Value) : (machine.define name value).2.Rooted := by
  have resumes : machine.Resumes (machine.define name value).2 := Resumes.ofDefine rfl
  have home : (machine.define name value).2.home = machine.home := by
    rw [Machine.home, Machine.home, resumes.globals]
    exact resumes.store.ancestors_eq (Store.lt_size_of_isLive live)
  rw [Rooted, home]
  exact Knows.resume rooted resumes

/-- A rooted machine in a live global scope stays rooted when it enters a new scope. -/
theorem Rooted.enter (rooted : machine.Rooted) (live : machine.store.isLive machine.globals) :
    machine.enter.Rooted := by
  rw [Rooted, ← (peers_enter live).home]
  exact Knows.enter rooted

/-- A machine that knows no method of another scope than its global one is rooted. -/
theorem Closed.rooted (closed : machine.Closed) : machine.Rooted := by
  have shared : ∀ callable : Callable, callable.Of machine.globals →
      callable.Shared machine.home := by
    intro callable own
    cases callable with
    | native run => trivial
    | method declared closure =>
      obtain rfl : closure = machine.globals := own
      exact machine.globals_mem_home
  exact ⟨fun id name arity callable found =>
      shared callable (closed.functions id name arity callable found),
    fun owner name arity callable found =>
      shared callable (closed.methods owner name arity callable found)⟩

/-- A machine that is made where only functions of the host are known knows no method. -/
theorem closed_inside {store : Store Value Callable} {base : FrameId} {host : Host}
    {methods : Array (Bindings (String × Nat) Callable)}
    (functions : ∀ id name arity callable,
      store.localFunction? id name arity = some callable → callable.Foreign)
    (members : ∀ owner name arity callable,
      (inside store base host methods).method owner name arity = .ok callable →
        callable.Foreign) : (inside store base host methods).Closed := by
  have own : ∀ callable : Callable, callable.Foreign →
      callable.Of (inside store base host methods).globals := by
    intro callable foreign
    cases callable with
    | native run => trivial
    | method declared closure => exact foreign.elim
  refine ⟨fun id name arity callable found => own callable ?_,
    fun owner name arity callable found => own callable (members owner name arity callable found)⟩
  have same : (inside store base host methods).store.localFunction? id name arity =
      store.localFunction? id name arity :=
    (Store.localFunction?_retain name arity).trans (Store.localFunction?_child name arity)
  exact functions id name arity callable (same ▸ found)

/-- After any requests a machine knows no methods of other scopes if it did not before. -/
theorem Closed.serve {requests : List Request} (closed : machine.Closed) (rests : machine.AtRest)
    (serves : machine.Serves requests after) : after.Closed := by
  have continues := serves.continues
  refine closed.extend
    ⟨continues.globals, continues.methods, fun id name arity callable found => ?_⟩
  rw [← rests]
  exact continues.functions id name arity callable found

/-- A rooted machine is confined to its global scope and the scopes around it, when that is
active. -/
theorem Rooted.confined (rooted : machine.Rooted) (live : machine.store.isLive machine.globals) :
    Confined { machine with active := machine.globals } (· ∈ machine.home) := by
  have within : ∀ callable : Callable, callable.Shared machine.home →
      callable.Within machine.store (· ∈ machine.home) := by
    intro callable shared
    cases callable with
    | native run => trivial
    | method declared closure =>
      refine ⟨lt_size_of_mem_home live shared, fun id around => ?_⟩
      rw [Store.ancestors_of_mem shared] at around
      exact List.mem_of_mem_filter around
  refine ⟨Store.lt_size_of_isLive live, fun id name arity callable found =>
    within callable (rooted.functions id name arity callable found),
    fun owner name arity callable found =>
      within callable (rooted.methods owner name arity callable ?_)⟩
  cases owner <;> exact found

end Machine

/-- Two outcomes that are the same result or the same error in machines that are peers, or that both
need more fuel. -/
inductive Outcome.Peers {α : Type} : Outcome α → Outcome α → Prop where
  /-- Both end with the same result. -/
  | done {value one other} (peers : Machine.Peers one other) :
    Peers (.done value one) (.done value other)
  /-- Both end with the same error. -/
  | failed {error one other} (peers : Machine.Peers one other) :
    Peers (.failed error one) (.failed error other)
  /-- Both need more fuel. -/
  | exhausted : Peers .exhausted .exhausted

/-- The peer of a result is that result. -/
theorem Outcome.Peers.of_done {α : Type} {value : α} {one : Machine} {outcome : Outcome α}
    (peers : (Outcome.done value one).Peers outcome) :
    ∃ other, outcome = .done value other ∧ one.Peers other := by
  cases peers with
  | done machines => exact ⟨_, rfl, machines⟩

section Calls

variable {one other machine after : Machine} {fuel : Nat} {declared : Method}
variable {arguments : List Value}

/-- A method whose scope is gone fails at once. -/
theorem invoke_of_dead {closure : FrameId} (dead : ¬ machine.store.isLive closure) :
    invoke (fuel + 1) (.method declared closure) arguments machine =
      .failed (.scopeGone declared.name) machine := by
  rw [invoke, if_neg dead]

/-- A call is the same when it is made in the global scope, but for the scope that is active. -/
theorem invoke_eq_leaving (fuel : Nat) (callable : Callable) (arguments : List Value)
    (machine : Machine) :
    invoke fuel callable arguments machine =
      (invoke fuel callable arguments { machine with active := machine.globals }).leaving
        ({ · with active := machine.active }) :=
  invoke_active fuel callable arguments { machine with active := machine.globals } machine.active

/-- Peers stay peers through a call of a method of the global scope, which ends in the same way. -/
theorem Machine.Peers.invoke (peers : one.Peers other) (rooted : one.Rooted)
    (rooted' : other.Rooted) (fuel : Nat) (declared : Method) (arguments : List Value) :
    (LetDef.invoke fuel (.method declared one.globals) arguments one).Peers
      (LetDef.invoke fuel (.method declared one.globals) arguments other) := by
  have lives := peers.live _ one.globals_mem_home
  by_cases live : one.store.isLive one.globals
  · have shared : Callable.Shared one.home (.method declared one.globals) := one.globals_mem_home
    have inStep := ((coupling_beside one.home one.store.frames.size
      other.store.frames.size).inStepWithin fuel).call _ arguments shared
    have knows' := rooted'.activate other.globals
    rw [← peers.home] at knows'
    have coupled := inStep.couples (rooted.activate one.globals) knows' (peers.beside live)
    have home : ∀ after : Machine,
        (LetDef.invoke fuel (.method declared one.globals) arguments
          { one with active := one.globals }).state? = some after → one.home = after.home := by
      intro after ended
      have resumes := inStep.resumes (rooted.activate one.globals) ended
      rw [Machine.home, Machine.home, resumes.globals]
      exact (resumes.store.ancestors_eq (Store.lt_size_of_isLive live)).symm
    rw [invoke_eq_leaving fuel _ arguments one, invoke_eq_leaving fuel _ arguments other]
    generalize LetDef.invoke fuel (.method declared one.globals) arguments
      { one with active := one.globals } = first at coupled home ⊢
    generalize LetDef.invoke fuel (.method declared one.globals) arguments
      { other with active := other.globals } = second at coupled ⊢
    cases coupled with
    | done beside =>
      rw [home _ rfl] at beside
      exact .done (beside.peers _ _)
    | failed beside =>
      rw [home _ rfl] at beside
      exact .failed (beside.peers _ _)
    | exhausted => exact .exhausted
    | parted apart => exact apart.elim
  · have dead : ¬ other.store.isLive one.globals := lives ▸ live
    cases fuel with
    | zero => exact .exhausted
    | succ fuel =>
      rw [invoke_of_dead live, invoke_of_dead dead]
      exact .failed peers

/-- A call of a method of the global scope changes no variable of an older scope that is not around
that scope. -/
theorem Machine.Rooted.localVariable?_invoke (rooted : machine.Rooted)
    (ended : (LetDef.invoke fuel (.method declared machine.globals) arguments machine).state? =
      some after) {id : FrameId} (old : id < machine.store.frames.size) (apart : id ∉ machine.home)
    (name : String) :
    after.store.localVariable? id name = machine.store.localVariable? id name := by
  by_cases live : machine.store.isLive machine.globals
  · have placed := Store.lt_size_of_isLive live
    have confined := rooted.confined live
    have keeps := (runsWithin (· ∈ machine.home) fuel).call (.method declared machine.globals)
      arguments _ confined ⟨placed, fun _ around => around⟩
    rw [invoke_eq_leaving, Outcome.state?_leaving] at ended
    obtain ⟨inner, found, rfl⟩ := Option.map_eq_some_iff.mp ended
    have becomes := Outcome.Leaves.state keeps found
    obtain ⟨own, later, touched, before, behind⟩ := becomes.store.localVariable? old
    show inner.store.localVariable? id name = _
    rw [behind, touched.2 apart apart]
    exact (before name).symm
  · cases fuel with
    | zero => cases ended
    | succ fuel =>
      rw [invoke_of_dead live] at ended
      cases ended
      rfl

end Calls

/-- A host makes a machine of these: its base scope is alive, and there are no functions and methods
but its own. -/
structure Machine.HostOnly (store : Store Value Callable) (base : FrameId) (host : Host)
    (methods : Array (Bindings (String × Nat) Callable)) : Prop where
  /-- The base scope is alive. -/
  live : store.isLive base
  /-- The functions of all scopes are those of the host. -/
  functions : ∀ id name arity callable,
    store.localFunction? id name arity = some callable → callable.Foreign
  /-- The methods of objects are those of the host. -/
  members : ∀ owner name arity callable,
    (Machine.inside store base host methods).method owner name arity = .ok callable →
      callable.Foreign

/-- Calls of a method of the global scope do not depend on where they are made. -/
structure Machine.Isolates (machine : Machine) (declared : Method) : Prop where
  /-- In a machine that has the same global scope and the same objects, a call with the same
  arguments ends in the same way, and both leave the same behind. -/
  peers : ∀ other, other.Rooted → machine.Peers other → ∀ fuel arguments,
    (invoke fuel (.method declared machine.globals) arguments machine).Peers
      (invoke fuel (.method declared machine.globals) arguments other)
  /-- A call changes no variable of an older scope but those of the global scope and the scopes
  around it. -/
  keeps : ∀ fuel arguments after,
    (invoke fuel (.method declared machine.globals) arguments machine).state? = some after →
    ∀ id < machine.store.frames.size, id ∉ machine.home → ∀ name,
      after.store.localVariable? id name = machine.store.localVariable? id name

/-- A method that a run of a program defines remembers the global scope. Two machines that have the
same output, the same objects, and the same global scope with the same scopes around it may be in
different scopes with different variables: a call of such a method with the same arguments ends in
both with the same result or the same error, or needs more fuel in both, and leaves them with the
same output, the same objects, and the same global scope and scopes around it. In each of them no
variable of an older scope has changed but of those. This holds as long as no method of other scopes
can be called, as in all states, at rest and in the middle of runs, of a machine that was made with
functions of the host alone. -/
theorem invoke_independent_of_caller :
    (∀ store base host methods, Machine.HostOnly store base host methods →
      ∀ requests machine, (Machine.inside store base host methods).Serves requests machine →
        ∀ request fuel home held state, machine.Passes request fuel home held state →
          state.Rooted) ∧
    (∀ fuel program (machine after : Machine), machine.AtRest →
      (Machine.interpret fuel program machine).state? = some after → machine.Extends after) ∧
    ∀ (machine : Machine) (declared : Method), machine.Rooted → machine.Isolates declared := by
  refine ⟨fun store base host methods made requests machine serves request fuel home held state
      passes => ?_, fun fuel program machine after rests ended => ?_, fun machine declared rooted =>
    ⟨fun other rooted' peers fuel arguments => peers.invoke rooted rooted' fuel declared arguments,
      fun fuel arguments after ended id old apart name =>
        rooted.localVariable?_invoke ended old apart name⟩⟩
  · have closed := (Machine.closed_inside made.functions made.members).serve rfl serves
    have founded :=
      (Machine.founded_inside made.live host methods).resume serves.continues.position
    exact (closed.extend (passes.extends founded)).rooted
  · have continues := Outcome.Leaves.state (Machine.continues_interpret fuel program machine) ended
    refine ⟨continues.globals, continues.methods, ?_⟩
    rw [← rests]
    exact continues.functions

/-- A machine with a global variable. -/
def Machine.counting : Machine :=
  ((Machine.fresh none).define "x" (.integer 1)).2

/-- The same machine in a scope with a variable of that name. -/
def Machine.shadowing : Machine :=
  (Machine.counting.enter.define "x" (.integer 7)).2

/-- A method that adds one to a variable. -/
def Method.increment : Method :=
  ⟨"increment", [], none,
    [.assignment (.variable "x" none none)
      (.binary .add (.variable "x" none none) (.literal (.integer 1) none) none),
      .result (.variable "x" none none)], none⟩

/-- A method that adds one to a global variable does so wherever it is called, also where a variable
of that name hides the global one; that one keeps its value. -/
theorem invoke_independent_of_caller_shadowing :
    Machine.counting.Peers Machine.shadowing ∧
    (Machine.shadowing.findVariable? "x").any (·.same (.integer 7)) ∧
    ∃ value one other, value.same (.integer 2) ∧
      invoke 9 (.method .increment 1) [] .counting = .done value one ∧
      invoke 9 (.method .increment 1) [] .shadowing = .done value other ∧
      one.Peers other ∧
      other.store.localVariable? 2 "x" = Machine.shadowing.store.localVariable? 2 "x" := by
  have live : Machine.counting.store.isLive Machine.counting.globals := by decide +kernel
  have live' : Machine.counting.enter.store.isLive Machine.counting.enter.globals := by
    decide +kernel
  have peers : Machine.counting.Peers Machine.shadowing :=
    (Machine.peers_enter live).define live' (by decide +kernel) (by decide +kernel) "x"
      (.integer 7)
  have rooted : Machine.counting.Rooted :=
    (Machine.closed_fresh none).rooted.define (by decide +kernel) "x" (.integer 1)
  have rooted' : Machine.shadowing.Rooted := (rooted.enter live).define live' "x" (.integer 7)
  obtain ⟨_, _, isolates⟩ := invoke_independent_of_caller
  have yields : (invoke 9 (.method .increment 1) [] .counting).value?.any
      (·.same (.integer 2)) := by decide +kernel
  obtain ⟨value, one, ended, same⟩ := Outcome.exists_of_any yields
  have both : (invoke 9 (.method .increment 1) [] .counting).Peers
      (invoke 9 (.method .increment 1) [] .shadowing) :=
    (isolates _ .increment rooted).peers _ rooted' peers 9 []
  rw [ended] at both
  obtain ⟨other, again, later⟩ := both.of_done
  have kept := (isolates .shadowing .increment rooted').keeps 9 [] other
    (congrArg Outcome.state? again) 2 (by decide +kernel) (by decide +kernel) "x"
  exact ⟨peers, by decide +kernel, value, one, other, same, ended, again, later, kept⟩

end LetDef
