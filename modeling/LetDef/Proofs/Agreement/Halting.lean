import Mathlib.Data.List.Induction
import LetDef.Proofs.Agreement.Loading
import LetDef.Proofs.Run.Settling
import LetDef.Proofs.Typing.Order

/-!
# Runs of methods that stand in order

A machine `Offers` methods if they are the functions of its global scope, and besides them it can
call the builtins alone. Before a run defines its methods it offers none, and from then on those of
the program. Where every call in the bodies goes to a builtin or to an earlier method, and no body
has a loop with a condition, all methods halt, by induction on their order
(`Machine.halts_of_precedes`), and with them the run of the program settles
(`Acceptance.settles_interpret`).
-/
namespace LetDef

namespace Machine

/-- The callable is a function of the host, or a method that was defined in the global scope. -/
def Owns (machine : Machine) : Callable → Prop
  | .native _ => True
  | .method _ closure => closure = machine.globals

variable {machine after : Machine} {methods : List Method} {scopes : FrameId → Prop}
variable {names : List String} {name : String} {arity : Nat} {callable : Callable}

/-- The state of a run without a host in which the functions of the global scope are these
methods. -/
structure Offers (methods : List Method) (machine : Machine) : Prop where
  /-- The state stands. -/
  standing : machine.Standing
  /-- The functions of the global scope are the methods. -/
  functions : ∀ name arity, machine.store.localFunction? machine.globals name arity =
    (methods.find? (·.answers name arity)).map (Callable.method · machine.globals)

namespace Offers

/-- A run calls the first method that answers, or else the builtin. -/
theorem findFunction?_eq (offers : machine.Offers methods) (name : String) (arity : Nat) :
    machine.findFunction? name arity =
      ((methods.find? (·.answers name arity)).map (Callable.method · machine.globals)).or
        ((Builtin.find? name arity).map Builtin.callable) := by
  rw [Machine.findFunction?, offers.standing.nested.findFunction?_eq, offers.functions,
    offers.standing.functions]

/-- What a run finds is a method of the global scope or a builtin. -/
theorem of_findFunction? (offers : machine.Offers methods)
    (found : machine.findFunction? name arity = some callable) :
    (∃ target, methods.find? (·.answers name arity) = some target ∧
      callable = .method target machine.globals) ∨
    methods.find? (·.answers name arity) = none ∧
      ∃ builtin : Builtin, callable = builtin.callable := by
  rw [offers.findFunction?_eq] at found
  cases answered : methods.find? (·.answers name arity) with
  | some target =>
    rw [answered] at found
    exact .inl ⟨target, rfl, (Option.some.inj found).symm⟩
  | none =>
    rw [answered, Option.map_none, Option.none_or] at found
    obtain ⟨builtin, _, same⟩ := Option.map_eq_some_iff.mp found
    exact .inr ⟨rfl, builtin, same.symm⟩

/-- The methods stay while a run changes scopes. -/
theorem become (offers : machine.Offers methods) (becomes : machine.Becomes scopes names after) :
    after.Offers methods where
  standing := offers.standing.become becomes
  functions name arity := by
    rw [becomes.globals, becomes.store.localFunction?_eq]
    exact offers.functions name arity

/-- The methods stay in a new scope. -/
theorem enter (offers : machine.Offers methods) : machine.enter.Offers methods where
  standing := offers.standing.enter
  functions name arity :=
    (Store.localFunction?_child name arity).trans (offers.functions name arity)

/-- The methods stay in the scope of a method of the global scope. -/
theorem enterMethod (offers : machine.Offers methods) :
    (machine.enterMethod machine.globals).Offers methods := by
  have retained : machine.retainGlobals.Offers methods :=
    ⟨offers.standing.retainGlobals, fun name arity =>
      (Store.localFunction?_retain name arity).trans (offers.functions name arity)⟩
  exact retained.enter

/-- There are no objects, and so none with a method. -/
theorem method_ne_ok (offers : machine.Offers methods) (owner : Value) :
    machine.method owner name arity ≠ .ok callable := by
  intro found
  cases owner <;> simp only [Machine.method, offers.standing.bare] at found <;> cases found

end Offers

/-- Runs without a host keep to the laws of runs that settle. -/
theorem settling_offers (methods : List Method) :
    Settling (Machine.Offers methods) Machine.Owns (Machine.Becomes fun _ => True) where
  carry offers becomes := offers.become becomes
  trans offers first second :=
    first.trans (Store.lt_size_of_isLive offers.standing.nested.live) second
  refl := Machine.Becomes.refl
  native _ _ _ := Machine.Becomes.ofHost _
  field _ := Machine.Becomes.ofHost _
  define := Machine.Becomes.ofDefine
  assign := Machine.Becomes.ofAssign
  enter offers := offers.enter
  leave := Machine.Becomes.ofEntered
  enterMethod offers owned live := by
    obtain rfl : _ = _ := owned
    exact offers.enterMethod
  leaveMethod _ live inner := Machine.Becomes.ofEnteredMethod live (fun _ _ => trivial) inner
  function offers found := by
    rcases offers.of_findFunction? found with ⟨_, _, rfl⟩ | ⟨_, builtin, rfl⟩
    · rfl
    · cases builtin
      trivial
  method offers found := absurd found (offers.method_ne_ok _)
  objects offers found := absurd found (offers.method_ne_ok _)

/-- Calls of a method halt in all machines that offer these methods. -/
def HaltsAmong (methods : List Method) (declared : Method) : Prop :=
  ∀ scope, (Callable.method declared scope).Halts (Machine.Offers methods) Machine.Owns

/-- Calls of a name halt if the method that answers them does, or if none answers. -/
theorem halting_of_answers {call : String × Nat}
    (halts : ∀ target, methods.find? (·.answers call.1 call.2) = some target →
      HaltsAmong methods target) :
    Halting (Machine.Offers methods) Machine.Owns call := by
  intro machine callable offers found
  rcases offers.of_findFunction? found with ⟨target, answers, rfl⟩ | ⟨_, builtin, rfl⟩
  · exact halts target answers machine.globals
  · cases builtin
    exact Effect.halts_native Host.print

/-- Methods halt if they have no loop with a condition, and call builtins and methods before them
alone. -/
theorem halts_of_precedes {program : Program}
    (unlooped : ∀ declared ∈ program.methods, Stmt.repeatsAny declared.body = false)
    (precedes : ∀ earlier declared later, program.methods = earlier ++ declared :: later →
      ∀ call ∈ declared.callees, program.Precedes earlier call) :
    ∀ declared ∈ program.methods, HaltsAmong program.methods declared := by
  -- The induction adds methods at the end, where each may call those that are there already.
  suffices initial : ∀ earlier later, program.methods = earlier ++ later →
      ∀ declared ∈ earlier, HaltsAmong program.methods declared from
    initial program.methods [] (List.append_nil _).symm
  intro earlier
  induction earlier using List.reverseRecOn with
  | nil => exact fun _ _ => List.forall_mem_nil _
  | append_singleton earlier last ih =>
    intro later whole declared member
    have split : program.methods = earlier ++ last :: later := by
      rw [whole, List.append_assoc, List.singleton_append]
    have before := ih _ split
    rcases List.mem_append.mp member with front | same
    · exact before declared front
    · obtain rfl := List.mem_singleton.mp same
      have listed : declared ∈ program.methods :=
        split ▸ List.mem_append_right _ List.mem_cons_self
      have halting : ∀ call ∈ declared.callees,
          Halting (Machine.Offers program.methods) Machine.Owns call := by
        intro call called
        refine halting_of_answers fun target answers => ?_
        rcases precedes earlier declared later split call called with
          ⟨_, unanswered⟩ | ⟨other, front, found⟩
        · cases unanswered.symm.trans answers
        · have same : other = target := Option.some.inj (found.symm.trans answers)
          exact same ▸ before other front
      exact (settling_offers program.methods).halts_method (unlooped declared listed) halting

/-- The computation of fields settles, as long as there are no methods. -/
theorem settles_defineFields (fields : List Field) (offers : machine.Offers []) :
    Settles fun fuel => defineFields fuel fields machine := by
  have settling := settling_offers []
  induction fields generalizing machine with
  | nil => exact .of_ended rfl
  | cons first rest ih =>
    have halting : ∀ call ∈ Expr.calleesOption first.value,
        Halting (Machine.Offers []) Machine.Owns call :=
      fun _ _ => halting_of_answers fun _ answers => by cases answers
    have kept := fun fuel => (settling.runsWithin fuel).optional first.value machine offers
    refine settling.settles_andThen offers (settling.optional first.value halting offers)
      (fun fuel => (kept fuel).grows) fun value between offers => ?_
    cases defined : between.define first.name value with
    | mk success after =>
      cases success with
      | false => exact .of_ended rfl
      | true => exact ih (offers.become (settling.define defined))

end Machine

/-- A run of an accepted program settles if its methods halt once they are defined. -/
theorem Acceptance.settles_interpret (accepted : Acceptance)
    (halts : ∀ declared ∈ accepted.program.methods,
      Machine.HaltsAmong accepted.program.methods declared) (limit : Option Nat) :
    Settles fun fuel => Machine.interpret fuel accepted.program (.fresh limit) := by
  have blank := Machine.fresh_blank limit
  have begins : (Machine.fresh limit).Offers [] := ⟨Machine.fresh_standing limit, blank.functions⟩
  have settles := Machine.settles_defineFields accepted.program.fields begins
  refine settles.andThen fun fuel _ between computed => ?_
  have grown :=
    (Machine.settling_offers []).defineFields fuel accepted.program.fields begins
  obtain ⟨_, becomes⟩ := grown.of_done computed
  have empty : between.Holding between [] :=
    .nil (begins.become becomes).standing (blank.become becomes)
  obtain ⟨after, defined, holding⟩ := empty.exists_defineMethods accepted.methods_distinct
  have offers : after.Offers accepted.program.methods := ⟨holding.standing, holding.functions⟩
  rw [defined]
  cases found : after.findFunction? "main" 0 with
  | none =>
    simp only [Outcome.done_andThen, found]
    exact .of_ended rfl
  | some main =>
    simp only [Outcome.done_andThen, found]
    have halting : Halting (Machine.Offers accepted.program.methods) _ ("main", 0) :=
      Machine.halting_of_answers fun target answers =>
        halts target (List.mem_of_find?_eq_some answers)
    have owned : after.Owns main := (Machine.settling_offers _).function offers found
    exact halting after main offers found [] after offers owned

end LetDef
