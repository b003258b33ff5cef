import LetDef.Proofs.Agreement.Correspondence
import LetDef.Proofs.Agreement.Halting
import LetDef.Proofs.Typing.Decision

/-!
# Programs whose runs end

The analysis brings methods into scope one by one, so that a body sees itself and what comes before
it; a run looks names up among all methods at once. Where no method hides a builtin, both find the
same, and calls go backwards in the program: by the names in the bodies, and in every run
(`AcceptedRun.Reaches.target_precedes`). If further no method calls itself and none has a loop with
a condition, every run ends (`interpret_ends_of_not_recurs`).
-/
namespace LetDef

namespace Task

/-- The names that a task calls without leaving its method. -/
def callees : Task → List (String × Nat)
  | .program _ whole _ => whole.fields.flatMap (Expr.calleesOption ·.value)
  | .fields _ remaining _ => remaining.flatMap (Expr.calleesOption ·.value)
  | .expression _ value _ => value.callees
  | .expressions _ values _ => Expr.calleesAll values
  | .optional _ value _ => Expr.calleesOption value
  | .call _ (.method declared _) _ _ => declared.callees
  | .call _ (.native _) _ _ => []
  | .statements _ body _ | .block _ body _ | .items _ _ _ body _ => Stmt.calleesAll body
  | .statement _ executed _ => executed.callees
  | .rounds _ condition body _ => condition.callees ++ Stmt.calleesAll body

/-- What a task starts without a call lies in the same method, and calls what the task does. -/
theorem Starts.callees_subset {task part : Task} {turns : List Turn}
    (starts : task.Starts (.down turns) part) :
    Turn.methods ∉ turns ∧ part.callees ⊆ task.callees := by
  cases starts with
  | @branch _ _ _ _ _ _ _ holds =>
    cases holds <;> simp [callees, Stmt.callees]
  | _ =>
    simp [callees, Expr.callees, Expr.calleesAll, Expr.calleesOption, Stmt.callees,
      Stmt.calleesAll, Method.callees]

end Task

namespace AcceptedRun

variable {run : AcceptedRun} {address : Address}

/-- Whatever a run comes to in a method is called by the body of that method. -/
theorem Reaches.exists_caller {task : Task} (reached : run.Reaches address task)
    (inside : address.inMethod) :
    ∃ declared ∈ run.accepted.program.methods, run.accepted.program.addressOf declared <:+ address ∧
      task.callees ⊆ declared.callees := by
  have whole : run.Reaches address task := reached
  induction reached with
  | start => cases inside
  | @step address task move part before starts ih =>
    cases move with
    | down turns =>
      obtain ⟨apart, fewer⟩ := starts.callees_subset
      have around : address.inMethod := (Address.inMethod_append apart address).symm.trans inside
      obtain ⟨declared, member, behind, called⟩ := ih around before
      exact ⟨declared, member, behind.trans (List.suffix_append _ _),
        List.Subset.trans fewer called⟩
    | call callable =>
      obtain ⟨_, _, _, corresponds⟩ := whole.exists_spot
      cases starts <;> cases corresponds with
      | builtin builtin =>
        cases builtin
        obtain ⟨declared, member, behind, _⟩ := ih inside before
        exact ⟨declared, member, behind, List.nil_subset _⟩
      | method method rests member admitted meets =>
        exact ⟨_, member, List.suffix_rfl, fun _ called => called⟩

/-- The state of a run has no methods before they are defined, and those of the program then. -/
theorem Meets.offers {loaded : Bool} {analyzer : Analyzer} {machine : Machine}
    (meets : run.Meets loaded analyzer machine) :
    machine.Offers (if loaded then run.accepted.program.methods else []) where
  standing := meets.agrees.running
  functions name arity := by
    rw [meets.functions]
    cases loaded <;> rfl

/-- What an expression calls is a builtin, or a method that comes before the one that the expression
stands in. -/
theorem Reaches.target_precedes {fuel : Nat} {value : Expr} {machine : Machine}
    {callable : Callable} {part : Task}
    (reached : run.Reaches address (.expression fuel value machine))
    (starts : (Task.expression fuel value machine).Starts (.call callable) part)
    (precedes : ∀ earlier declared later,
      run.accepted.program.methods = earlier ++ declared :: later →
      ∀ call ∈ declared.callees, run.accepted.program.Precedes earlier call) :
    (∃ builtin : Builtin, callable = builtin.callable) ∨
      ∃ earlier declared later target scope,
        run.accepted.program.methods = earlier ++ declared :: later ∧
        run.accepted.program.addressOf declared <:+ address ∧ target ∈ earlier ∧
        callable = .method target scope := by
  obtain ⟨loaded, _, passes, corresponds⟩ := reached.exists_spot
  cases corresponds with
  | expression types meets =>
    have bare := meets.agrees.standing.bare
    cases starts with
    | memberInvocation => exact absurd types (Analyzer.Types.not_memberCall bare)
    | @invocation _ name arguments _ _ _ _ _ _ evaluated found =>
      obtain ⟨_, _, _, _, typesAll, _⟩ := types.call bare
      have offers := (meets.evaluateAll typesAll evaluated).2.offers
      rw [length_of_evaluateAll evaluated] at found
      rcases offers.of_findFunction? found with ⟨target, answers, rfl⟩ | ⟨_, builtin, same⟩
      · cases loaded with
        | false => cases answers
        | true =>
          obtain ⟨declared, member, behind, called⟩ := reached.exists_caller passes.inMethod
          obtain ⟨earlier, later, split⟩ := List.append_of_mem member
          rcases precedes earlier declared later split (name, arguments.length)
            (called List.mem_cons_self) with ⟨_, unanswered⟩ | ⟨other, before, known⟩
          · cases unanswered.symm.trans answers
          · obtain rfl := Option.some.inj (known.symm.trans answers)
            exact .inr ⟨earlier, declared, later, other, _, split, behind, before, rfl⟩
      · exact .inl ⟨builtin, same⟩

end AcceptedRun

/-- The runs of an accepted program end, if it has no loop with a condition, no method hides the
builtin `print`, and no method calls itself: with enough fuel there is a result or an error, and
more fuel does not change it. The reason is that every call goes backwards, by the names in the
bodies as well as in every run: what an expression calls is a builtin, or a method that comes
strictly before the one that the expression stands in. -/
theorem interpret_ends_of_not_recurs {text : String} {program : Program}
    (accepted : Program.ofTextAnalyzed text = .ok program)
    (unlooped : ∀ declared ∈ program.methods, Stmt.repeatsAny declared.body = false)
    (unshadowed : ∀ declared ∈ program.methods, ¬ declared.answers "print" 1)
    (direct : ∀ declared ∈ program.methods, declared.recurs = false) (limit : Option Nat) :
    (∃ outcome, outcome.state?.isSome ∧ ∃ enough, ∀ fuel, enough ≤ fuel →
      Machine.interpret fuel program (.fresh limit) = outcome) ∧
    (∀ field ∈ program.fields, ∀ call ∈ Expr.calleesOption field.value,
      (Builtin.find? call.1 call.2).isSome) ∧
    (∀ earlier declared later, program.methods = earlier ++ declared :: later →
      ∀ call ∈ declared.callees, program.Precedes earlier call) ∧
    ∀ fuel address left value machine callable part,
      program.Reaches fuel (.fresh limit) address (.expression left value machine) →
      (Task.expression left value machine).Starts (.call callable) part →
      (∃ builtin : Builtin, callable = builtin.callable) ∨
        ∃ earlier declared later target scope, program.methods = earlier ++ declared :: later ∧
          program.addressOf declared <:+ address ∧ target ∈ earlier ∧
          callable = .method target scope := by
  obtain ⟨acceptance, _, rfl⟩ := Acceptance.exists_of_ofTextAnalyzed accepted
  have precedes : ∀ earlier declared later,
      acceptance.program.methods = earlier ++ declared :: later →
      ∀ call ∈ declared.callees, acceptance.program.Precedes earlier call :=
    fun _ _ _ split => acceptance.judged.precedes unshadowed direct split
  refine ⟨?_, acceptance.judged.callees.1, precedes,
    fun fuel address left value machine callable part reached starts => ?_⟩
  · exact acceptance.settles_interpret (Machine.halts_of_precedes unlooped precedes) limit
  · have begun : AcceptedRun.Reaches ⟨acceptance, fuel, limit⟩ address
        (.expression left value machine) := reached
    exact begun.target_precedes starts precedes

/-- A program with a loop over items, in which every method calls those before it. -/
def precedingText : String :=
  "LET xs: IntegerIterable; DEF f() DO print(1); END DEF g() DO FOR x IN xs DO f(); END END " ++
    "DEF main(): Integer DO g(); f(); RETURN 2; END"

/-- The runs of a program end in which one method has a loop over items, and each calls those before
it. -/
theorem interpret_ends_of_not_recurs_chain :
    ∃ program, Program.ofTextAnalyzed precedingText = .ok program ∧
      (∀ declared ∈ program.methods, Stmt.repeatsAny declared.body = false) ∧
      (∀ declared ∈ program.methods, ¬ declared.answers "print" 1) ∧
      (∀ declared ∈ program.methods, declared.recurs = false) ∧
      program.methods.map Method.callees = [[("print", 1)], [("f", 0)], [("g", 0), ("f", 0)]] ∧
      ∃ outcome, outcome.state?.isSome ∧ ∃ enough, ∀ fuel, enough ≤ fuel →
        Machine.interpret fuel program (.fresh (some 3)) = outcome := by
  have computed : (Program.ofTextAnalyzed precedingText).toOption.any fun program =>
      (program.methods.all fun declared => !Stmt.repeatsAny declared.body &&
          !declared.answers "print" 1 && !declared.recurs) &&
        program.methods.map Method.callees =
          [[("print", 1)], [("f", 0)], [("g", 0), ("f", 0)]] := by decide +kernel
  obtain ⟨program, accepted, passed⟩ := exists_ok_of_any computed
  simp only [Bool.and_eq_true, List.all_eq_true, Bool.not_eq_true', decide_eq_true_eq] at passed
  obtain ⟨plain, called⟩ := passed
  have unlooped : ∀ declared ∈ program.methods, Stmt.repeatsAny declared.body = false :=
    fun declared member => (plain declared member).1.1
  have unshadowed : ∀ declared ∈ program.methods, ¬ declared.answers "print" 1 := by
    intro declared member
    rw [(plain declared member).1.2]
    exact Bool.false_ne_true
  have direct : ∀ declared ∈ program.methods, declared.recurs = false :=
    fun declared member => (plain declared member).2
  exact ⟨program, accepted, unlooped, unshadowed, direct, called,
    (interpret_ends_of_not_recurs accepted unlooped unshadowed direct (some 3)).1⟩

end LetDef
