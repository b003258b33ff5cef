import LetDef.Proofs.Agreement.Origins

/-!
# Methods of a run

Between its fields and `main`, a run defines all methods of the program at once, where the analysis
has defined them one by one between their bodies. No two methods of an accepted program answer the
same calls, so that every definition succeeds (`Machine.Holding.exists_defineMethods`), and the
state meets the same states of the analysis as before (`AcceptedRun.Meets.exists_loads`).
-/
namespace LetDef

open Outcome (done_andThen)

namespace Machine

/-- The global scope is active and has no function yet. -/
structure Blank (machine : Machine) : Prop where
  /-- The global scope is active. -/
  resting : machine.active = machine.globals
  /-- The global scope has no function. -/
  functions : ∀ name arity, machine.store.localFunction? machine.globals name arity = none

/-- A run begins in the global scope, which has no function. -/
theorem fresh_blank (limit : Option Nat) : (Machine.fresh limit).Blank where
  resting := rfl
  functions := Store.localFunction?_of_frames (frames_fresh limit) _

/-- The global scope has no function while a run changes scopes. -/
theorem Blank.become {before after : Machine} {scopes : FrameId → Prop} {names : List String}
    (blank : before.Blank) (becomes : before.Becomes scopes names after) : after.Blank where
  resting := by
    rw [becomes.active, becomes.globals]
    exact blank.resting
  functions name arity := by
    rw [becomes.globals, becomes.store.localFunction?_eq]
    exact blank.functions name arity

/-- A machine that differs from an earlier one in the functions of the global scope alone, which are
these methods. -/
structure Holding (before machine : Machine) (methods : List Method) : Prop where
  /-- The state stands. -/
  standing : machine.Standing
  /-- The base scope is the same. -/
  base : machine.base = before.base
  /-- The global scope is the same. -/
  globals : machine.globals = before.globals
  /-- The global scope is active in both. -/
  resting : machine.active = machine.globals ∧ before.active = before.globals
  /-- The same scopes are looked up. -/
  ancestors : ∀ id, machine.store.ancestors id = before.store.ancestors id
  /-- The variables are the same. -/
  locals : ∀ id name, machine.store.localVariable? id name = before.store.localVariable? id name
  /-- The functions of the global scope are the methods. -/
  functions : ∀ name arity, machine.store.localFunction? machine.globals name arity =
    (methods.find? (·.answers name arity)).map (Callable.method · machine.globals)

namespace Holding

variable {before machine : Machine} {earlier methods : List Method}

/-- Before the first method there is none. -/
theorem nil (standing : machine.Standing) (blank : machine.Blank) : machine.Holding machine [] :=
  ⟨standing, rfl, rfl, ⟨blank.resting, blank.resting⟩, fun _ => rfl, fun _ _ => rfl,
    blank.functions⟩

/-- A method that answers other calls than those before it can be added. -/
theorem exists_defineMethod (holding : before.Holding machine earlier) {declared : Method}
    (apart : ∀ other ∈ earlier, ¬ declared.answers other.name other.parameters.length) :
    ∃ after, machine.defineMethod declared = (true, after) ∧
      before.Holding after (earlier ++ [declared]) := by
  have missing : earlier.find? (·.answers declared.name declared.parameters.length) = none := by
    refine List.find?_eq_none.mpr fun other member answers => ?_
    obtain ⟨name, arity⟩ := Method.answers_iff.mp answers
    exact apart other member (Method.answers_iff.mpr ⟨name.symm, arity.symm⟩)
  have unbound := holding.functions declared.name declared.parameters.length
  rw [missing, Option.map_none, ← holding.resting.1] at unbound
  have old := Store.lt_size_of_isLive holding.standing.nested.liveGlobals
  refine ⟨{ machine with
    store := machine.store.bindFunction machine.active declared.name declared.parameters.length
      (.method declared machine.active) }, ?_, ?_⟩
  · simp only [defineMethod, onStore, Store.defineFunction, unbound, Option.isSome_none,
      Bool.false_eq_true, if_false]
  · rw [holding.resting.1]
    refine ⟨⟨?_, holding.standing.bare, fun name => ?_, fun name arity => ?_⟩, holding.base,
      holding.globals, ⟨rfl, holding.resting.2⟩, fun id => ?_, fun id name => ?_,
      fun name arity => ?_⟩
    · exact holding.standing.nested.atGlobals.bindFunction _ _ _
    · exact (Store.localVariable?_bindFunction name).trans (holding.standing.locals name)
    · refine (Store.localFunction?_bindFunction old name arity).trans ?_
      rw [if_neg fun all => Nat.ne_of_lt holding.standing.nested.base_lt all.1]
      exact holding.standing.functions name arity
    · exact Store.ancestors_bindFunction.trans (holding.ancestors id)
    · exact (Store.localVariable?_bindFunction name).trans (holding.locals id name)
    · refine (Store.localFunction?_bindFunction old name arity).trans ?_
      rw [holding.functions, List.find?_append]
      by_cases answers : declared.answers name arity
      · obtain ⟨rfl, rfl⟩ := Method.answers_iff.mp answers
        rw [if_pos ⟨rfl, rfl, rfl⟩, missing, Option.none_or, List.find?_singleton, if_pos answers]
        rfl
      · have other : ¬ (name = declared.name ∧ arity = declared.parameters.length) :=
          fun same => answers (Method.answers_iff.mpr ⟨same.1.symm, same.2.symm⟩)
        rw [if_neg fun all => other all.2, List.find?_singleton, if_neg answers, Option.or_none]

/-- Methods that answer different calls can be added one after the other. -/
theorem exists_defineMethods (holding : before.Holding machine earlier)
    (distinct : (earlier ++ methods).Pairwise fun one other =>
      ¬ other.answers one.name one.parameters.length) :
    ∃ after, defineMethods methods machine = .done () after ∧
      before.Holding after (earlier ++ methods) := by
  induction methods generalizing machine earlier with
  | nil => exact ⟨machine, rfl, (List.append_nil earlier).symm ▸ holding⟩
  | cons first rest ih =>
    have apart := fun other member =>
      (List.pairwise_append.mp distinct).2.2 other member first List.mem_cons_self
    obtain ⟨between, defined, added⟩ := holding.exists_defineMethod apart
    rw [List.append_cons] at distinct
    obtain ⟨after, loaded, holds⟩ := ih added distinct
    refine ⟨after, ?_, List.append_cons earlier first rest ▸ holds⟩
    rw [defineMethods, defined]
    exact loaded

end Holding

end Machine

/-- After the fields, the methods can be defined, and the state still meets that of the analysis. -/
theorem AcceptedRun.Meets.exists_loads {run : AcceptedRun} {machine : Machine}
    (meets : run.Meets false run.accepted.loaded machine) (blank : machine.Blank) :
    ∃ after, Machine.defineMethods run.accepted.program.methods machine = .done () after ∧
      run.Meets true run.accepted.loaded after := by
  obtain ⟨after, defined, holding⟩ :=
    (Machine.Holding.nil meets.agrees.running blank).exists_defineMethods
      run.accepted.methods_distinct
  have loads : after.Loads run.accepted := holding.functions
  have active : after.active = machine.active := by
    rw [holding.resting.1, holding.resting.2, holding.globals]
  have pairs : pairedScopes run.accepted.loaded after =
      pairedScopes run.accepted.loaded machine := by
    rw [pairedScopes, active, holding.ancestors, pairedScopes]
  refine ⟨after, defined, ⟨meets.agrees.standing, holding.standing, ?_, ?_, .inr
    ⟨run.accepted.rests_loaded.knows, loads⟩⟩, loads, ?_⟩
  · rw [active, holding.ancestors]
    exact meets.agrees.depth
  · intro pair member name
    rw [holding.locals]
    exact meets.agrees.values pair (pairs ▸ member) name
  · intro pair member name bound
    rw [holding.locals] at bound
    exact meets.sited pair (pairs ▸ member) name bound

end LetDef
