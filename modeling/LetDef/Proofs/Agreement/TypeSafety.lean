import LetDef.Proofs.Agreement.Faults

/-!
# Type safety

The runs of accepted programs, as far as they go: every value of an expression is admitted by the
type that the analysis has written into its slot, and a run that fails does so at an operation that
the type rules leave open.
-/
namespace LetDef

/-- A type that the analysis has written into an expression admits its values. -/
theorem AcceptedRun.Reaches.admits {run : AcceptedRun} {address : Address} {fuel : Nat}
    {tree : Expr} {machine after : Machine} {value : Value}
    (reached : run.Reaches address (.expression fuel tree machine))
    (unshadowed : run.accepted.Unshadowed)
    (evaluated : evaluate fuel tree machine = .done value after) :
    ∃ type, tree.type = some type ∧ type.Admits value := by
  obtain ⟨_, _, _, corresponds⟩ := reached.exists_spot
  cases corresponds with
  | expression types meets =>
    have filled := types.type_eq meets.agrees.standing.bare
    exact ⟨_, filled, (meets.evaluate types evaluated).1 unshadowed⟩

/-- A run that fails does so at one of its tasks. -/
theorem AcceptedRun.exists_fault (run : AcceptedRun) {error : RuntimeError} {after : Machine}
    (failed : Machine.interpret run.fuel run.accepted.program (.fresh run.limit) =
      .failed error after) :
    ∃ address task, run.Reaches address task ∧ task.Faults error := by
  have begun : run.Reaches [] (.program run.fuel run.accepted.program (.fresh run.limit)) := .start
  exact Program.Reaches.exists_fault begun (congrArg Outcome.error? failed)

/-- A run of an accepted program is type safe, if no method takes the place of `print`: the type in
the slot of each expression admits every value that the run finds for it, and where the run fails
there is an operation that the type rules leave open. -/
theorem values_fit_slots_and_failures_excused {text : String} {program : Program}
    (accepted : Program.ofTextAnalyzed text = .ok program)
    (unshadowed : ∀ declared ∈ program.methods, ¬ declared.answers "print" 1)
    (fuel : Nat) (limit : Option Nat) :
    (∀ address left tree machine value after,
      program.Reaches fuel (.fresh limit) address (.expression left tree machine) →
      evaluate left tree machine = .done value after →
      ∃ type, tree.type = some type ∧ type.Admits value) ∧
    ∀ error after, Machine.interpret fuel program (.fresh limit) = .failed error after →
      ∃ address task, program.Reaches fuel (.fresh limit) address task ∧ task.Faults error ∧
        task.Excused := by
  obtain ⟨acceptance, _, rfl⟩ := Acceptance.exists_of_ofTextAnalyzed accepted
  let run : AcceptedRun := ⟨acceptance, fuel, limit⟩
  refine ⟨fun address left tree machine value after reached evaluated => ?_,
    fun error after failed => ?_⟩
  · have begun : run.Reaches address (.expression left tree machine) := reached
    exact begun.admits unshadowed evaluated
  · obtain ⟨address, task, reached, faults⟩ := run.exists_fault failed
    exact ⟨address, task, reached, faults, (reached.explains faults).2 unshadowed⟩

/-- A program that divides by zero in an argument. -/
def dividingText : String :=
  "DEF main(): Integer DO print(1 / 0); RETURN 0; END"

/-- A run that divides by zero in an argument is type safe. -/
theorem values_fit_slots_and_failures_excused_division :
    ∃ program, Program.ofTextAnalyzed dividingText = .ok program ∧
      (∀ declared ∈ program.methods, ¬ declared.answers "print" 1) ∧
      (Machine.interpret 9 program (.fresh none)).error?.map RuntimeError.reason =
        some RuntimeError.divisionByZero.reason ∧
      ∀ error after, Machine.interpret 9 program (.fresh none) = .failed error after →
        ∃ address task, program.Reaches 9 (.fresh none) address task ∧ task.Faults error ∧
          task.Excused := by
  have computed : (Program.ofTextAnalyzed dividingText).toOption.any fun program =>
      program.methods.all (!·.answers "print" 1) &&
        (Machine.interpret 9 program (.fresh none)).error?.map RuntimeError.reason =
          some RuntimeError.divisionByZero.reason := by decide +kernel
  obtain ⟨program, accepted, passed⟩ := exists_ok_of_any computed
  rw [Bool.and_eq_true, List.all_eq_true, decide_eq_true_iff] at passed
  obtain ⟨others, divided⟩ := passed
  have unshadowed : ∀ declared ∈ program.methods, ¬ declared.answers "print" 1 := by
    intro declared member
    simpa using others declared member
  exact ⟨program, accepted, unshadowed, divided,
    (values_fit_slots_and_failures_excused accepted unshadowed 9 none).2⟩

end LetDef
