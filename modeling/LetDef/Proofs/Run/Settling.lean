import LetDef.Proofs.Program.Calls
import LetDef.Proofs.Run.Effect
import LetDef.Proofs.Run.Outcome

/-!
# Runs that end

A run takes its fuel as an argument. It *settles* if it ends with enough fuel, and in one way with
any amount of fuel that is enough. What has no loop with a condition in it settles where all that it
calls does: expressions and statements by induction on the tree, and a loop over items, whose items
only the run knows, by induction on these. Nothing is said here of how the calls come to settle;
machines are `ready`, and calls permitted, as the laws of an `Effect` say.
-/
namespace LetDef

open Outcome (ofExcept ofPair require ofExcept_eq_done)

section Settling

variable {α β : Type} {run : Nat → Outcome α}

/-- From some amount of fuel on, the run ends, and in one way. -/
def Settles (run : Nat → Outcome α) : Prop :=
  ∃ outcome, outcome.state?.isSome ∧ ∃ enough, ∀ fuel, enough ≤ fuel → run fuel = outcome

namespace Settles

/-- A run that does without fuel settles if it ends. -/
theorem of_ended {outcome : Outcome α} (ended : outcome.state?.isSome) :
    Settles fun _ => outcome :=
  ⟨outcome, ended, 0, fun _ _ => rfl⟩

/-- A result or an error that does without fuel. -/
theorem ofExcept (result : Except RuntimeError α) (machine : Machine) :
    Settles fun _ => Outcome.ofExcept result machine := by
  cases result <;> exact of_ended rfl

/-- A step that takes a unit of fuel settles if what follows does. -/
theorem succ (settles : Settles fun fuel => run (fuel + 1)) : Settles run := by
  obtain ⟨outcome, ended, enough, same⟩ := settles
  refine ⟨outcome, ended, enough + 1, fun fuel above => ?_⟩
  cases fuel with
  | zero => exact absurd above (Nat.not_succ_le_zero enough)
  | succ fuel => exact same fuel (Nat.le_of_succ_le_succ above)

/-- Two runs one after the other settle if the first does, and the second after each result. -/
theorem andThen {go : Nat → α → Machine → Outcome β} (first : Settles run)
    (second : ∀ fuel value after, run fuel = .done value after → Settles (go · value after)) :
    Settles fun fuel => (run fuel).andThen (go fuel) := by
  obtain ⟨outcome, ended, enough, same⟩ := first
  cases outcome with
  | exhausted => cases ended
  | failed error after =>
    refine ⟨.failed error after, rfl, enough, fun fuel above => ?_⟩
    simp only [same fuel above]
    rfl
  | done value after =>
    obtain ⟨last, ended, more, sameLast⟩ := second enough value after (same enough (Nat.le_refl _))
    refine ⟨last, ended, max enough more, fun fuel above => ?_⟩
    simp only [same fuel (Nat.le_trans (Nat.le_max_left _ _) above)]
    exact sameLast fuel (Nat.le_trans (Nat.le_max_right _ _) above)

/-- A check settles if what follows its success does. -/
theorem check {result : Except RuntimeError α} {go : Nat → α → Machine → Outcome β}
    {machine : Machine} (second : ∀ value, Settles (go · value machine)) :
    Settles fun fuel => (Outcome.ofExcept result machine).andThen (go fuel) :=
  (ofExcept result machine).andThen fun _ value _ checked => by
    obtain ⟨_, rfl⟩ := ofExcept_eq_done.mp checked
    exact second value

/-- A change of the state at the end is no hindrance. -/
theorem leaving (settles : Settles run) (change : Machine → Machine) :
    Settles fun fuel => (run fuel).leaving change := by
  obtain ⟨outcome, ended, enough, same⟩ := settles
  refine ⟨outcome.leaving change, ?_, enough, fun fuel above => ?_⟩
  · cases outcome with
    | exhausted => cases ended
    | _ => rfl
  · simp only [same fuel above]

end Settles

end Settling

/-- Calls of this settle in all machines that are ready and permit them. -/
def Callable.Halts (ready : Machine → Prop) (permits : Machine → Callable → Prop)
    (callable : Callable) : Prop :=
  ∀ arguments machine, ready machine → permits machine callable →
    Settles (invoke · callable arguments machine)

/-- What machines find for a name and a number of arguments halts. -/
def Halting (ready : Machine → Prop) (permits : Machine → Callable → Prop)
    (call : String × Nat) : Prop :=
  ∀ machine callable, ready machine → machine.findFunction? call.1 call.2 = some callable →
    callable.Halts ready permits

/-- There are as many values as expressions. -/
theorem length_of_evaluateAll {fuel : Nat} {values : List Expr} {results : List Value}
    {machine after : Machine} (evaluated : evaluateAll fuel values machine = .done results after) :
    results.length = values.length := by
  induction values generalizing fuel machine results with
  | nil =>
    cases fuel <;> cases evaluated
    rfl
  | cons first rest ih =>
    cases fuel with
    | zero => cases evaluated
    | succ fuel =>
      obtain ⟨value, between, _, others⟩ := Outcome.andThen_eq_done.mp evaluated
      obtain ⟨values, _, evaluatedRest, ended⟩ := Outcome.andThen_eq_done.mp others
      cases ended
      exact congrArg Nat.succ (ih evaluatedRest)

namespace Effect

variable {ready : Machine → Prop} {permits : Machine → Callable → Prop}
variable {change : List String → Machine → Machine → Prop}
variable {α β : Type} {run : Nat → Outcome α} {machine : Machine}

/-- What follows a run that settles begins in a machine that is ready. -/
theorem settles_andThen (effect : Effect ready permits change) (begins : ready machine)
    {go : Nat → α → Machine → Outcome β} (first : Settles run)
    (grows : ∀ fuel, (run fuel).Grows change machine)
    (second : ∀ value after, ready after → Settles (go · value after)) :
    Settles fun fuel => (run fuel).andThen (go fuel) :=
  first.andThen fun fuel value after ended => by
    obtain ⟨_, changed⟩ := (grows fuel).of_done ended
    exact second value after (effect.carry begins changed)

/-- What follows the value of an expression begins in a machine that is ready. -/
theorem settles_evaluate (effect : Effect ready permits change) (begins : ready machine)
    {value : Expr} {go : Nat → Value → Machine → Outcome β}
    (first : Settles (evaluate · value machine))
    (second : ∀ value after, ready after → Settles (go · value after)) :
    Settles fun fuel => (evaluate fuel value machine).andThen (go fuel) :=
  effect.settles_andThen begins first
    (fun fuel => ((effect.runsWithin fuel).expression value machine begins).grows) second

/-- What follows the values of expressions begins in a machine that is ready, and there are as many
of them. -/
theorem settles_evaluateAll (effect : Effect ready permits change) (begins : ready machine)
    {values : List Expr} {go : Nat → List Value → Machine → Outcome β}
    (first : Settles (evaluateAll · values machine))
    (second : ∀ results after, results.length = values.length → ready after →
      Settles (go · results after)) :
    Settles fun fuel => (evaluateAll fuel values machine).andThen (go fuel) :=
  first.andThen fun fuel results after ended => by
    have kept := (effect.runsWithin fuel).expressions values machine begins
    exact second results after (length_of_evaluateAll ended)
      (effect.carry begins (kept.of_done ended))

/-- A function of the host halts. -/
theorem halts_native (function : HostFunction) :
    (Callable.native function).Halts ready permits := by
  intro arguments machine _ _
  refine .succ ?_
  show Settles fun _ => ofPair (machine.onHost (function · arguments))
  cases machine.onHost (function · arguments) with
  | mk result after => cases result <;> exact .of_ended rfl

end Effect

/-- The laws by which runs settle: those of an effect, and methods of objects halt. -/
structure Settling (ready : Machine → Prop) (permits : Machine → Callable → Prop)
    (change : List String → Machine → Machine → Prop) : Prop
    extends Effect ready permits change where
  /-- The methods of objects halt. -/
  objects : ∀ {machine owner name arity callable}, ready machine →
    machine.method owner name arity = .ok callable → callable.Halts ready permits

namespace Settling

variable {ready : Machine → Prop} {permits : Machine → Callable → Prop}
variable {change : List String → Machine → Machine → Prop}

mutual

/-- An expression settles if what it calls halts. -/
theorem expression (settling : Settling ready permits change) (value : Expr)
    (halting : ∀ call ∈ value.callees, Halting ready permits call) {machine : Machine}
    (begins : ready machine) : Settles (evaluate · value machine) := by
  have effect := settling.toEffect
  refine .succ ?_
  cases value with
  | literal value type => exact .of_ended rfl
  | group inner type => exact expression settling inner halting begins
  | binary operator left right type =>
    rw [Expr.callees, List.forall_mem_append] at halting
    refine effect.settles_evaluate begins (expression settling left halting.1 begins)
      fun value between begins => ?_
    have second := expression settling right halting.2 begins
    by_cases logical : operator.isLogical
    · simp only [logical, if_true]
      refine .check fun condition => ?_
      by_cases decided : condition = operator.decisive
      · simp only [decided, if_true]
        exact .of_ended rfl
      · simp only [decided, if_false]
        exact effect.settles_evaluate begins second fun _ _ _ => .check fun _ => .of_ended rfl
    · simp only [logical]
      exact effect.settles_evaluate begins second fun _ _ _ => .ofExcept _ _
  | «variable» name slot type =>
    simp only [evaluate]
    cases machine.findVariable? name <;> exact .of_ended rfl
  | member receiver name slot type =>
    exact effect.settles_evaluate begins (expression settling receiver halting begins)
      fun _ _ _ => .ofExcept _ _
  | call name arguments slot type =>
    rw [Expr.callees, List.forall_mem_cons] at halting
    refine effect.settles_evaluateAll begins (expressions settling arguments halting.2 begins)
      fun values between sizes begins => ?_
    rw [sizes]
    cases found : between.findFunction? name arguments.length with
    | none => exact .of_ended rfl
    | some callable =>
      exact halting.1 between callable begins found values between begins
        (effect.function begins found)
  | memberCall receiver name arguments slot type =>
    rw [Expr.callees, List.forall_mem_append] at halting
    refine effect.settles_evaluate begins (expression settling receiver halting.1 begins)
      fun owner between begins => ?_
    refine effect.settles_evaluateAll begins (expressions settling arguments halting.2 begins)
      fun values after _ begins => ?_
    cases found : after.method owner name values.length with
    | error error => exact .of_ended rfl
    | ok callable =>
      exact settling.objects begins found (owner :: values) after begins
        (effect.method begins found)

/-- Expressions settle if what they call halts. -/
theorem expressions (settling : Settling ready permits change) (values : List Expr)
    (halting : ∀ call ∈ Expr.calleesAll values, Halting ready permits call) {machine : Machine}
    (begins : ready machine) : Settles (evaluateAll · values machine) := by
  have effect := settling.toEffect
  refine .succ ?_
  cases values with
  | nil => exact .of_ended rfl
  | cons first rest =>
    rw [Expr.calleesAll, List.forall_mem_append] at halting
    refine effect.settles_evaluate begins (expression settling first halting.1 begins)
      fun value between begins => ?_
    exact effect.settles_evaluateAll begins (expressions settling rest halting.2 begins)
      fun _ _ _ _ => .of_ended rfl

end

/-- An optional expression settles if what it calls halts. -/
theorem optional (settling : Settling ready permits change) (value : Option Expr)
    (halting : ∀ call ∈ Expr.calleesOption value, Halting ready permits call) {machine : Machine}
    (begins : ready machine) : Settles (evaluateOption · value machine) := by
  refine .succ ?_
  cases value with
  | none => exact .of_ended rfl
  | some value => exact settling.expression value halting begins

/-- A loop over items settles if its body does, whatever the items are. -/
theorem items (settling : Settling ready permits change) (name : String) (items : List Value)
    {body : List Stmt} (settles : ∀ machine, ready machine → Settles (executeAll · body machine))
    {machine : Machine} (begins : ready machine) :
    Settles (iterate · name items body machine) := by
  have effect := settling.toEffect
  induction items generalizing machine with
  | nil => exact .succ (.of_ended rfl)
  | cons item rest ih =>
    refine .succ ?_
    simp only [iterate]
    cases defined : machine.enter.define name item with
    | mk success between =>
      cases success with
      | false => exact .of_ended rfl
      | true =>
        have begun := effect.define defined
        have beginsBody := effect.carry (effect.enter begins) begun
        refine effect.settles_andThen begins ((settles between beginsBody).leaving _)
          (fun fuel => (effect.leaving (effect.follow (effect.enter begins) begun
            ((effect.runsWithin fuel).statements body between beginsBody))).grows)
          fun flow after begins => ?_
        cases flow with
        | normal => exact ih begins
        | returned value => exact .of_ended rfl

mutual

/-- A statement without loops with a condition settles if what it calls halts. -/
theorem statement (settling : Settling ready permits change) (executed : Stmt)
    (once : executed.repeats = false)
    (halting : ∀ call ∈ executed.callees, Halting ready permits call) {machine : Machine}
    (begins : ready machine) : Settles (execute · executed machine) := by
  have effect := settling.toEffect
  refine .succ ?_
  cases executed with
  | expression value =>
    exact effect.settles_evaluate begins (settling.expression value halting begins)
      fun _ _ _ => .of_ended rfl
  | declaration declared =>
    refine effect.settles_andThen begins (settling.optional declared.value halting begins)
      (fun fuel => ((effect.runsWithin fuel).optional declared.value machine begins).grows)
      fun value between _ => ?_
    cases between.define declared.name value with
    | mk success after => cases success <;> exact .of_ended rfl
  | assignment target value =>
    rw [Stmt.callees, List.forall_mem_append] at halting
    cases target with
    | «variable» name slot type =>
      refine effect.settles_evaluate begins (settling.expression value halting.2 begins)
        fun value between _ => ?_
      cases between.assign name value with
      | mk success after => cases success <;> exact .of_ended rfl
    | member receiver name slot type =>
      refine effect.settles_evaluate begins (settling.expression receiver halting.1 begins)
        fun owner between begins => ?_
      refine effect.settles_evaluate begins (settling.expression value halting.2 begins)
        fun value after _ => ?_
      cases after.assignField owner name value with
      | mk result after => cases result <;> exact .of_ended rfl
    | _ => exact .of_ended rfl
  | conditional condition accepted rejected =>
    rw [Stmt.repeats, Bool.or_eq_false_iff] at once
    rw [Stmt.callees, List.forall_mem_append, List.forall_mem_append] at halting
    refine effect.settles_evaluate begins (settling.expression condition halting.1 begins)
      fun value between begins => ?_
    refine .check fun holds => .succ (.leaving ?_ _)
    cases holds with
    | true => exact statements settling accepted once.1 halting.2.1 (effect.enter begins)
    | false => exact statements settling rejected once.2 halting.2.2 (effect.enter begins)
  | iteration name value body =>
    rw [Stmt.callees, List.forall_mem_append] at halting
    refine effect.settles_evaluate begins (settling.expression value halting.1 begins)
      fun value between begins => ?_
    cases value with
    | iterable items =>
      exact settling.items name items
        (fun _ begins => statements settling body once halting.2 begins) begins
    | _ => exact .of_ended rfl
  | repetition condition body => cases once
  | result value =>
    exact effect.settles_evaluate begins (settling.expression value halting begins)
      fun _ _ _ => .of_ended rfl

/-- Statements without loops with a condition settle if what they call halts. -/
theorem statements (settling : Settling ready permits change) (body : List Stmt)
    (once : Stmt.repeatsAny body = false)
    (halting : ∀ call ∈ Stmt.calleesAll body, Halting ready permits call) {machine : Machine}
    (begins : ready machine) : Settles (executeAll · body machine) := by
  have effect := settling.toEffect
  refine .succ ?_
  cases body with
  | nil => exact .of_ended rfl
  | cons first rest =>
    rw [Stmt.repeatsAny, Bool.or_eq_false_iff] at once
    rw [Stmt.calleesAll, List.forall_mem_append] at halting
    refine (statement settling first once.1 halting.1 begins).andThen
      fun fuel flow between ended => ?_
    have begun := ((effect.runsWithin fuel).statement first machine begins).of_done ended
    cases flow with
    | normal =>
      exact statements settling rest once.2 halting.2 (effect.carry begins begun)
    | returned value => exact .of_ended rfl

end

/-- A method without loops with a condition halts if what its body calls does. -/
theorem halts_method (settling : Settling ready permits change) {declared : Method}
    (once : Stmt.repeatsAny declared.body = false)
    (halting : ∀ call ∈ declared.callees, Halting ready permits call) (closure : FrameId) :
    (Callable.method declared closure).Halts ready permits := by
  have effect := settling.toEffect
  intro arguments machine begins permitted
  refine .succ ?_
  simp only [invoke]
  by_cases live : machine.store.isLive closure
  · simp only [live, if_true]
    cases defined : (machine.enterMethod closure).defineAll
        ((declared.parameters.map Parameter.name).zip arguments) with
    | mk refused between =>
      cases refused with
      | some name => exact .of_ended rfl
      | none =>
        have entered := effect.enterMethod begins permitted live
        obtain ⟨_, _, begun⟩ := effect.defineAll entered defined
        have settles :=
          settling.statements declared.body once halting (effect.carry entered begun)
        exact (settles.leaving _).andThen fun _ _ _ _ => .of_ended rfl
  · simp only [live]
    exact .of_ended rfl

end Settling

end LetDef
