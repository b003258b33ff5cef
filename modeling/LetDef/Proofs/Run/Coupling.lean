import LetDef.Proofs.Run.Resumption

/-!
# Two machines side by side

The same is done in two machines that stand in some relation. Where every single step keeps that
relation, which the laws of a `Coupling` say, computations made of such steps end in the same way in
both machines (`InStep`), unless the first one fails where the second goes on; and what holds of the
two hosts from then on keeps holding.
-/
namespace LetDef

section Outcomes

variable {α β : Type} {related : Machine → Machine → Prop}
variable {parted : RuntimeError → Host → Host → Prop}

/-- Two runs end in the same way, in machines that are related, or neither ends within its fuel; or
the first one has failed and the second has parted from it. -/
inductive Outcome.Coupled (related : Machine → Machine → Prop)
    (parted : RuntimeError → Host → Host → Prop) : Outcome α → Outcome α → Prop where
  /-- Both end with the same result. -/
  | done {value one other} (stands : related one other) :
    Coupled related parted (.done value one) (.done value other)
  /-- Both end with the same error. -/
  | failed {error one other} (stands : related one other) :
    Coupled related parted (.failed error one) (.failed error other)
  /-- Both need more fuel. -/
  | exhausted : Coupled related parted .exhausted .exhausted
  /-- The first one has failed where the second one may have gone on. -/
  | parted {error one outcome later} (begun : parted error one.host later)
    (stands : ∀ other, outcome.state? = some other → parted error one.host other.host) :
    Coupled related parted (.failed error one) outcome

/-- What goes on after an outcome ends where the outcome fails or where what follows ends. -/
theorem Outcome.state?_andThen {outcome : Outcome α} {go : α → Machine → Outcome β}
    {after : Machine} (ended : (outcome.andThen go).state? = some after) :
    (∃ value between, outcome = .done value between ∧ (go value between).state? = some after) ∨
      outcome.state? = some after := by
  cases outcome with
  | done value between => exact .inl ⟨value, between, rfl, ended⟩
  | failed error between => exact .inr ended
  | exhausted => cases ended

/-- Leaving a scope changes the state at the end. -/
theorem Outcome.state?_leaving (outcome : Outcome α) (change : Machine → Machine) :
    (outcome.leaving change).state? = outcome.state?.map change := by
  cases outcome <;> rfl

/-- The outcome of definitions: the first name that is bound already is an error. -/
def Outcome.ofDefined : Option String × Machine → Outcome Unit
  | (none, machine) => .done () machine
  | (some name, machine) => .failed (.alreadyDefined name) machine

/-- Outcomes stay coupled on the way back if that keeps the relation and leaves the host alone. -/
theorem Outcome.Coupled.leaving {one other : Outcome α} {back also : Machine → Machine}
    (coupled : one.Coupled related parted other)
    (host : ∀ machine, (back machine).host = machine.host)
    (hostAlso : ∀ machine, (also machine).host = machine.host)
    (keeps : ∀ first second, one.state? = some first → other.state? = some second →
      related first second → related (back first) (also second)) :
    (one.leaving back).Coupled related parted (other.leaving also) := by
  cases coupled with
  | done stands => exact .done (keeps _ _ rfl rfl stands)
  | failed stands => exact .failed (keeps _ _ rfl rfl stands)
  | exhausted => exact .exhausted
  | @parted _ first _ later begun stands =>
    have begun : parted _ (back first).host later := (host first).symm ▸ begun
    refine .parted begun fun after ended => ?_
    rw [Outcome.state?_leaving] at ended
    obtain ⟨inner, found, rfl⟩ := Option.map_eq_some_iff.mp ended
    rw [host, hostAlso]
    exact stands inner found

/-- Outcomes stay coupled when the same follows both, if that is coupled after results in related
machines and keeps apart what has parted. -/
theorem Outcome.Coupled.andThen {one other : Outcome α} {go : α → Machine → Outcome β}
    (coupled : one.Coupled related parted other)
    (follows : ∀ value first second, one.state? = some first → other.state? = some second →
      related first second → (go value first).Coupled related parted (go value second))
    (departs : ∀ {error host value between after}, other.state? = some between →
      parted error host between.host → (go value between).state? = some after →
      parted error host after.host) :
    (one.andThen go).Coupled related parted (other.andThen go) := by
  cases coupled with
  | done stands => exact follows _ _ _ rfl rfl stands
  | failed stands => exact .failed stands
  | exhausted => exact .exhausted
  | parted begun stands =>
    refine .parted begun fun after ended => ?_
    rcases Outcome.state?_andThen ended with ⟨value, between, found, later⟩ | early
    · have state := congrArg Outcome.state? found
      exact departs state (stands between state) later
    · exact stands after early

end Outcomes

/-- All that can be called in the machine is permitted. -/
structure Machine.Knows (machine : Machine) (permits : Callable → Prop) : Prop where
  /-- The functions of all scopes are. -/
  functions : ∀ id name arity callable,
    machine.store.localFunction? id name arity = some callable → permits callable
  /-- The methods of objects are. -/
  methods : ∀ owner name arity callable, machine.method owner name arity = .ok callable →
    permits callable

/-- Defining methods leaves the host alone. -/
theorem Machine.host_defineMethods {methods : List Method} {machine after : Machine}
    (ended : (defineMethods methods machine).state? = some after) : after.host = machine.host := by
  induction methods generalizing machine with
  | nil =>
    cases ended
    rfl
  | cons first rest ih =>
    have still : (machine.defineMethod first).2.host = machine.host := rfl
    rw [defineMethods] at ended
    rcases defined : machine.defineMethod first with ⟨success, between⟩
    rw [defined] at ended still
    cases success with
    | true => exact (ih ended).trans still
    | false =>
      cases ended
      exact still

namespace Machine.Knows

variable {permits : Callable → Prop} {machine after : Machine}

/-- What is found is permitted. -/
theorem of_findFunction? (knows : machine.Knows permits) {name : String} {arity : Nat}
    {callable : Callable} (found : machine.findFunction? name arity = some callable) :
    permits callable := by
  obtain ⟨id, _, held⟩ := List.exists_of_findSome?_eq_some found
  exact knows.functions id name arity callable held

/-- What is permitted may be permitted for another reason. -/
theorem imp {allows : Callable → Prop} (knows : machine.Knows permits)
    (weaker : ∀ callable, permits callable → allows callable) : machine.Knows allows where
  functions id name arity callable found :=
    weaker callable (knows.functions id name arity callable found)
  methods owner name arity callable found :=
    weaker callable (knows.methods owner name arity callable found)

/-- A machine with the same functions and methods can call the same. -/
theorem carry (knows : machine.Knows permits)
    (functions : ∀ id name arity,
      after.store.localFunction? id name arity = machine.store.localFunction? id name arity)
    (methods : after.methods = machine.methods) : after.Knows permits where
  functions id name arity callable found :=
    knows.functions id name arity callable (functions id name arity ▸ found)
  methods owner name arity callable found := by
    have same : after.method owner name arity = machine.method owner name arity := by
      cases owner <;> simp only [Machine.method, methods]
    exact knows.methods owner name arity callable (same ▸ found)

/-- A machine that is where it was can call the same. -/
theorem resume (knows : machine.Knows permits) (resumes : machine.Resumes after) :
    after.Knows permits :=
  knows.carry resumes.store.localFunction?_eq resumes.methods

/-- A machine that continues can call some methods more. -/
theorem extend (knows : machine.Knows permits) (continues : machine.Continues after)
    (methods : ∀ declared closure, permits (.method declared closure)) : after.Knows permits where
  functions id name arity callable found := by
    rcases continues.functions id name arity callable found with earlier | ⟨declared, rfl⟩
    · exact knows.functions id name arity callable earlier
    · exact methods declared _
  methods owner name arity callable found := by
    have same : after.method owner name arity = machine.method owner name arity := by
      cases owner <;> simp only [Machine.method, continues.methods]
    exact knows.methods owner name arity callable (same ▸ found)

/-- In a new scope the same can be called. -/
theorem enter (knows : machine.Knows permits) : machine.enter.Knows permits :=
  knows.carry (fun _ => Store.localFunction?_child) rfl

/-- In the scope of a method the same can be called. -/
theorem enterMethod (knows : machine.Knows permits) (closure : FrameId) :
    (machine.enterMethod closure).Knows permits :=
  knows.carry (fun _ name arity => (Store.localFunction?_child name arity).trans
    (Store.localFunction?_retain name arity)) rfl

end Machine.Knows

/-- The laws of a relation between two machines in which all that can be called is permitted, and of
what holds of two hosts after a run has failed in the first machine that goes on in the second:
every step of a run keeps them. -/
structure Coupling (permits : Callable → Prop) (related : Machine → Machine → Prop)
    (parted : RuntimeError → Host → Host → Prop) : Prop where
  /-- The same variables are found. -/
  value : ∀ {one other}, related one other → ∀ name,
    one.findVariable? name = other.findVariable? name
  /-- The same functions are found. -/
  function : ∀ {one other}, related one other → ∀ name arity,
    one.findFunction? name arity = other.findFunction? name arity
  /-- Objects have the same fields. -/
  field : ∀ {one other}, related one other → ∀ owner name,
    one.field owner name = other.field owner name
  /-- Objects have the same methods. -/
  method : ∀ {one other}, related one other → ∀ owner name arity,
    one.method owner name arity = other.method owner name arity
  /-- The scopes of the same methods are alive. -/
  live : ∀ {one other declared closure}, related one other →
    permits (.method declared closure) → one.store.isLive closure = other.store.isLive closure
  /-- A variable is defined in both or in neither. -/
  define : ∀ {one other}, related one other → ∀ name value,
    (one.define name value).1 = (other.define name value).1 ∧
      related (one.define name value).2 (other.define name value).2
  /-- A variable is assigned in both or in neither. -/
  assign : ∀ {one other}, related one other → ∀ name value,
    (one.assign name value).1 = (other.assign name value).1 ∧
      related (one.assign name value).2 (other.assign name value).2
  /-- A field is assigned in both or in neither. -/
  assignField : ∀ {one other}, related one other → ∀ owner name value,
    (one.assignField owner name value).1 = (other.assignField owner name value).1 ∧
      related (one.assignField owner name value).2 (other.assignField owner name value).2
  /-- The host does the same in both, unless it fails in the first one. -/
  native : ∀ {one other run}, related one other → permits (.native run) → ∀ arguments,
    (Outcome.ofPair (one.onHost (run · arguments))).Coupled related parted
      (Outcome.ofPair (other.onHost (run · arguments)))
  /-- A new scope may be entered in both. -/
  enter : ∀ {one other}, related one other → related one.enter other.enter
  /-- A new scope may be left in both. -/
  leave : ∀ {one other first second}, related one other → one.enter.Resumes first →
    other.enter.Resumes second → related first second →
    related (first.leave one.active) (second.leave other.active)
  /-- The scope of a method may be entered in both. -/
  enterMethod : ∀ {one other declared closure}, related one other →
    permits (.method declared closure) → one.store.isLive closure →
    related (one.enterMethod closure) (other.enterMethod closure)
  /-- The scope of a method may be left in both. -/
  leaveMethod : ∀ {one other first second declared closure}, related one other →
    permits (.method declared closure) → one.store.isLive closure →
    (one.enterMethod closure).Resumes first → (other.enterMethod closure).Resumes second →
    related first second →
    related (first.leaveMethod closure one.active) (second.leaveMethod closure other.active)
  /-- What the host does after the runs have parted does not matter. -/
  onward : ∀ {error host later run}, permits (.native run) → parted error host later →
    ∀ arguments, parted error host (run later arguments).2
  /-- What is assigned to fields after the runs have parted does not matter. -/
  onwardField : ∀ {error host later}, parted error host later → ∀ id name value,
    parted error host (later.assign id name value).2

/-- Run in two machines that are related, a computation goes in step; and once two runs have parted
they stay so. -/
structure InStep {α : Type} (permits : Callable → Prop) (related : Machine → Machine → Prop)
    (parted : RuntimeError → Host → Host → Prop) (run : Machine → Outcome α) : Prop where
  /-- It leaves a machine where it was. -/
  resumes : ∀ {machine after}, machine.Knows permits → (run machine).state? = some after →
    machine.Resumes after
  /-- It ends in the same way in both. -/
  couples : ∀ {one other}, one.Knows permits → other.Knows permits → related one other →
    (run one).Coupled related parted (run other)
  /-- It keeps apart what has parted. -/
  departs : ∀ {error host other after}, other.Knows permits → parted error host other.host →
    (run other).state? = some after → parted error host after.host

namespace InStep

variable {α β γ : Type} {permits : Callable → Prop} {related : Machine → Machine → Prop}
variable {parted : RuntimeError → Host → Host → Prop} {run : Machine → Outcome α}

/-- What does the same in every machine as a computation in step goes in step. -/
theorem congr {same : Machine → Outcome α} (inStep : InStep permits related parted run)
    (equal : ∀ machine, same machine = run machine) : InStep permits related parted same := by
  rwa [funext equal]

/-- What computes in every machine the same without changing it goes in step. -/
theorem ofExcept (result : Except RuntimeError α) :
    InStep permits related parted (Outcome.ofExcept result) := by
  cases result with
  | ok value =>
    refine ⟨fun _ ended => ?_, fun _ _ stands => .done stands, fun _ apart ended => ?_⟩
    · cases ended
      exact Machine.Resumes.refl _
    · cases ended
      exact apart
  | error error =>
    refine ⟨fun _ ended => ?_, fun _ _ stands => .failed stands, fun _ apart ended => ?_⟩
    · cases ended
      exact Machine.Resumes.refl _
    · cases ended
      exact apart

/-- A result goes in step. -/
theorem done (value : α) : InStep permits related parted (Outcome.done value) :=
  ofExcept (.ok value)

/-- An error goes in step. -/
theorem failed (error : RuntimeError) :
    InStep permits related parted (Outcome.failed (α := α) error) :=
  ofExcept (.error error)

/-- What needs more fuel goes in step. -/
theorem exhausted : InStep permits related parted fun _ => (.exhausted : Outcome α) :=
  ⟨fun _ ended => (nomatch ended), fun _ _ _ => .exhausted, fun _ _ ended => (nomatch ended)⟩

/-- Two computations one after the other go in step. -/
theorem andThen {go : α → Machine → Outcome β} (first : InStep permits related parted run)
    (second : ∀ value, InStep permits related parted (go value)) :
    InStep permits related parted fun machine => (run machine).andThen go where
  resumes {machine after} knows ended := by
    rcases Outcome.state?_andThen ended with ⟨value, between, found, later⟩ | early
    · have begun := first.resumes knows (congrArg Outcome.state? found)
      exact begun.trans ((second value).resumes (knows.resume begun) later)
    · exact first.resumes knows early
  couples {one other} knows also stands := by
    refine (first.couples knows also stands).andThen (fun value _ _ begun same stands => ?_)
      fun {_ _ value _ _} begun apart later => ?_
    · exact (second value).couples (knows.resume (first.resumes knows begun))
        (also.resume (first.resumes also same)) stands
    · exact (second value).departs (also.resume (first.resumes also begun)) apart later
  departs {error host other after} knows apart ended := by
    rcases Outcome.state?_andThen ended with ⟨value, between, found, later⟩ | early
    · have state := congrArg Outcome.state? found
      exact (second value).departs (knows.resume (first.resumes knows state))
        (first.departs knows apart state) later
    · exact first.departs knows apart early

/-- What depends on something that is the same in both machines goes in step if it does so whatever
that is. -/
theorem read (observe : Machine → γ) (go : γ → Machine → Outcome α)
    (same : ∀ {one other}, related one other → observe one = observe other)
    (follow : ∀ machine, machine.Knows permits →
      InStep permits related parted (go (observe machine))) :
    InStep permits related parted fun machine => go (observe machine) machine where
  resumes {machine after} knows ended := (follow machine knows).resumes knows ended
  couples {one other} knows also stands := by
    rw [same stands]
    exact (follow other also).couples knows also stands
  departs {error host other after} knows apart ended :=
    (follow other knows).departs knows apart ended

/-- A change that is possible in both machines or in neither goes in step. -/
theorem require {change : Machine → Bool × Machine} {error : RuntimeError}
    (resumes : ∀ {machine success after}, change machine = (success, after) →
      machine.Resumes after)
    (still : ∀ machine, (change machine).2.host = machine.host)
    (keeps : ∀ {one other}, related one other →
      (change one).1 = (change other).1 ∧ related (change one).2 (change other).2) :
    InStep permits related parted fun machine => Outcome.require (change machine) error where
  resumes {machine after} _ ended := by
    rcases changed : change machine with ⟨success, between⟩
    rw [changed] at ended
    cases success <;> cases ended <;> exact resumes changed
  couples {one other} _ _ stands := by
    obtain ⟨same, kept⟩ := keeps stands
    generalize change one = first at same kept
    generalize change other = second at same kept
    obtain ⟨success, one⟩ := first
    obtain ⟨success', other⟩ := second
    obtain rfl : success = success' := same
    cases success with
    | true => exact .done kept
    | false => exact .failed kept
  departs {error host machine after} _ apart ended := by
    have unmoved := still machine
    rcases changed : change machine with ⟨success, between⟩
    rw [changed] at ended unmoved
    rw [← unmoved] at apart
    cases success <;> cases ended <;> exact apart

/-- What happens in a new scope inside the active one goes in step. -/
theorem block (coupling : Coupling permits related parted)
    (inner : InStep permits related parted run) :
    InStep permits related parted fun machine =>
      (run machine.enter).leaving (·.leave machine.active) where
  resumes {machine after} knows ended := by
    rw [Outcome.state?_leaving] at ended
    obtain ⟨between, found, rfl⟩ := Option.map_eq_some_iff.mp ended
    exact Machine.Resumes.ofEntered (inner.resumes knows.enter found)
  couples {one other} knows also stands := by
    refine (inner.couples knows.enter also.enter (coupling.enter stands)).leaving (fun _ => rfl)
      (fun _ => rfl) fun first second found here kept => ?_
    exact coupling.leave stands (inner.resumes knows.enter found) (inner.resumes also.enter here)
      kept
  departs {error host machine after} knows apart ended := by
    rw [Outcome.state?_leaving] at ended
    obtain ⟨between, found, rfl⟩ := Option.map_eq_some_iff.mp ended
    have apart := inner.departs knows.enter apart found
    exact apart

/-- What happens in the scope of a method goes in step. -/
theorem method (coupling : Coupling permits related parted) {declared : Method}
    {closure : FrameId} (permitted : permits (.method declared closure))
    (inner : InStep permits related parted run) (error : RuntimeError) :
    InStep permits related parted fun machine =>
      if machine.store.isLive closure then
        (run (machine.enterMethod closure)).leaving (·.leaveMethod closure machine.active)
      else .failed error machine where
  resumes {machine after} knows ended := by
    split at ended
    · rw [Outcome.state?_leaving] at ended
      obtain ⟨between, found, rfl⟩ := Option.map_eq_some_iff.mp ended
      exact Machine.Resumes.ofEnteredMethod (inner.resumes (knows.enterMethod closure) found)
    · cases ended
      exact Machine.Resumes.refl _
  couples {one other} knows also stands := by
    rw [← coupling.live stands permitted]
    split
    next live =>
      have entered := coupling.enterMethod stands permitted live
      refine (inner.couples (knows.enterMethod closure) (also.enterMethod closure) entered).leaving
        (fun _ => rfl) (fun _ => rfl) fun first second found here kept => ?_
      exact coupling.leaveMethod stands permitted live
        (inner.resumes (knows.enterMethod closure) found)
        (inner.resumes (also.enterMethod closure) here) kept
    next => exact .failed stands
  departs {error host machine after} knows apart ended := by
    split at ended
    · rw [Outcome.state?_leaving] at ended
      obtain ⟨between, found, rfl⟩ := Option.map_eq_some_iff.mp ended
      have apart := inner.departs (knows.enterMethod closure) apart found
      exact apart
    · cases ended
      exact apart

/-- A definition goes in step. -/
theorem define (coupling : Coupling permits related parted) (name : String) (value : Value)
    (error : RuntimeError) :
    InStep permits related parted fun machine =>
      Outcome.require (machine.define name value) error :=
  require Machine.Resumes.ofDefine
    (fun machine => by rw [Machine.define_eq]; split <;> rfl)
    fun stands => coupling.define stands name value

/-- An assignment goes in step. -/
theorem assign (coupling : Coupling permits related parted) (name : String) (value : Value)
    (error : RuntimeError) :
    InStep permits related parted fun machine =>
      Outcome.require (machine.assign name value) error :=
  require Machine.Resumes.ofAssign
    (fun machine => by rw [Machine.assign_eq]; split <;> rfl)
    fun stands => coupling.assign stands name value

/-- Definitions go in step. -/
theorem defineAll (coupling : Coupling permits related parted) (pairs : List (String × Value)) :
    InStep permits related parted fun machine => Outcome.ofDefined (machine.defineAll pairs) := by
  induction pairs with
  | nil => exact done ()
  | cons pair rest ih =>
    have both : InStep permits related parted fun machine =>
        (Outcome.require (machine.define pair.1 pair.2) (.alreadyDefined pair.1)).andThen
          fun () after => Outcome.ofDefined (after.defineAll rest) :=
      (define coupling pair.1 pair.2 _).andThen fun () => ih
    refine both.congr fun machine => ?_
    rw [Machine.defineAll]
    rcases machine.define pair.1 pair.2 with ⟨success, after⟩
    cases success <;> rfl

/-- A call of a function of the host goes in step. -/
theorem native (coupling : Coupling permits related parted) {call : HostFunction}
    (permitted : permits (.native call)) (arguments : List Value) :
    InStep permits related parted fun machine =>
      Outcome.ofPair (machine.onHost (call · arguments)) where
  resumes {machine after} _ ended := by
    rcases acted : call machine.host arguments with ⟨result, host⟩
    simp only [Machine.onHost, acted] at ended
    cases result <;> cases ended <;> exact Machine.Resumes.ofHost host
  couples _ _ stands := coupling.native stands permitted arguments
  departs {error host machine after} _ apart ended := by
    have apart := coupling.onward permitted apart arguments
    rcases acted : call machine.host arguments with ⟨result, later⟩
    rw [acted] at apart
    simp only [Machine.onHost, acted] at ended
    cases result <;> cases ended <;> exact apart

/-- A new value for a field goes in step. -/
theorem assignField (coupling : Coupling permits related parted) (owner : Value) (name : String)
    (value : Value) :
    InStep permits related parted fun machine =>
      Outcome.ofPair (machine.assignField owner name value) where
  resumes {machine after} _ ended := by
    cases owner with
    | object typeName id =>
      rcases assigned : machine.host.assign id name value with ⟨success, host⟩
      simp only [Machine.assignField, Machine.onHost, assigned] at ended
      cases success <;> cases ended <;> exact Machine.Resumes.ofHost host
    | _ =>
      cases ended
      exact Machine.Resumes.refl _
  couples {one other} _ _ stands := by
    obtain ⟨same, kept⟩ := coupling.assignField stands owner name value
    generalize one.assignField owner name value = first at same kept
    generalize other.assignField owner name value = second at same kept
    obtain ⟨result, one⟩ := first
    obtain ⟨result', other⟩ := second
    obtain rfl : result = result' := same
    cases result with
    | ok _ => exact .done kept
    | error _ => exact .failed kept
  departs {error host machine after} _ apart ended := by
    cases owner with
    | object typeName id =>
      have apart := coupling.onwardField apart id name value
      rcases assigned : machine.host.assign id name value with ⟨success, later⟩
      rw [assigned] at apart
      simp only [Machine.assignField, Machine.onHost, assigned] at ended
      cases success <;> cases ended <;> exact apart
    | _ =>
      cases ended
      exact apart

end InStep

end LetDef
