import LetDef.Compilation
import LetDef.Proofs.Run.Outcome
import LetDef.Proofs.Run.Resumption
import LetDef.Proofs.Typing.Resumption

/-!
# Requests one after the other

An embedder keeps an analyzer and a machine over a sequence of requests, which may concern any
program, callable or expression, analysed or not. However each of them ends, the analyzer and the
machine are at rest again after it: the global scope is active, and no method's result is expected.
-/
namespace LetDef

/-- What an embedder asks of a machine. -/
inductive Request where
  /-- To run a program. -/
  | interpret (program : Program)
  /-- To call something with arguments. -/
  | invoke (callable : Callable) (arguments : List Value)
  /-- To evaluate an expression. -/
  | evaluate (value : Expr)

/-- What comes of a request. -/
def Request.perform (fuel : Nat) : Request → Machine → Outcome Value
  | .interpret program, machine => Machine.interpret fuel program machine
  | .invoke callable arguments, machine => LetDef.invoke fuel callable arguments machine
  | .evaluate value, machine => LetDef.evaluate fuel value machine

/-- A request leaves the machine where it was, with more methods of the active scope at most. -/
theorem Request.continues (fuel : Nat) (request : Request) (machine : Machine) :
    (request.perform fuel machine).Continues machine := by
  cases request with
  | interpret program => exact Machine.continues_interpret fuel program machine
  | invoke callable arguments =>
    exact ((runsResuming fuel).call callable arguments machine trivial trivial).continues
  | evaluate value => exact ((runsResuming fuel).expression value machine trivial).continues

/-- The machine has answered the requests one after the other, each with a result or with an error,
and is in the second state after the last one. -/
inductive Machine.Serves : Machine → List Request → Machine → Prop where
  | nil {machine} : Serves machine [] machine
  | cons {machine fuel request requests between after}
    (ended : (request.perform fuel machine).state? = some between)
    (rest : Serves between requests after) : Serves machine (request :: requests) after

/-- The machine continues over any number of requests. -/
theorem Machine.Serves.continues {machine after : Machine} {requests : List Request}
    (serves : machine.Serves requests after) : machine.Continues after := by
  induction serves with
  | nil => exact (Resumes.refl _).continues
  | cons ended _ ih => exact (Outcome.Leaves.state (Request.continues _ _ _) ended).trans ih

/-- The analyzer after it has analysed programs one after the other, each to its end or to its first
error. -/
def Analyzer.afterAll (analyzer : Analyzer) (programs : List Program) : Analyzer :=
  programs.foldl (fun analyzer program => (program.analyze analyzer).analyzer) analyzer

/-- The analyzer is where it was after any number of programs. -/
theorem Analyzer.resumes_afterAll (analyzer : Analyzer) (programs : List Program) :
    analyzer.Resumes (analyzer.afterAll programs) := by
  induction programs generalizing analyzer with
  | nil => exact Resumes.refl analyzer
  | cons first rest ih => exact (first.resumes_analyze analyzer).trans (ih _)

/-- The global scope of the analyzer is active, and no result of a method is expected. -/
structure Analyzer.AtRest (analyzer : Analyzer) : Prop where
  /-- The global scope is active. -/
  active : analyzer.active = analyzer.globals
  /-- No result is expected. -/
  returns : analyzer.returns = none

/-- The global scope of the machine is active. -/
def Machine.AtRest (machine : Machine) : Prop :=
  machine.active = machine.globals

/-- Analyzers and machines are made at rest and are at rest, with the same global scope, after any
requests, whatever these concern and however each of them ends. -/
theorem atRest_after_requests :
    (∀ store base types members, (Analyzer.inside store base types members).AtRest) ∧
    (∀ store base host methods, (Machine.inside store base host methods).AtRest) ∧
    (∀ (analyzer : Analyzer) (programs : List Program), analyzer.AtRest →
      (analyzer.afterAll programs).AtRest ∧
        (analyzer.afterAll programs).globals = analyzer.globals) ∧
    ∀ (machine after : Machine) (requests : List Request), machine.AtRest →
      machine.Serves requests after → after.AtRest ∧ after.globals = machine.globals := by
  refine ⟨fun _ _ _ _ => ⟨rfl, rfl⟩, fun _ _ _ _ => rfl, fun analyzer programs rests => ?_,
    fun machine after requests rests serves => ?_⟩
  · have resumes := analyzer.resumes_afterAll programs
    refine ⟨⟨?_, resumes.returns.trans rests.returns⟩, resumes.globals⟩
    rw [resumes.active, resumes.globals]
    exact rests.active
  · have continues := serves.continues
    refine ⟨?_, continues.globals⟩
    rw [Machine.AtRest, continues.active, continues.globals]
    exact rests

/-- A program with an unknown name inside a branch and a loop. -/
def unboundText : String :=
  "DEF main(): Integer DO IF 0 < 1 DO WHILE 0 < 1 DO RETURN x; END END RETURN 0; END"

/-- After a program that neither the analysis nor the run gets through, because of a name inside a
branch and a loop, and after an expression that fails as well, both are at rest. -/
theorem atRest_after_requests_failing :
    ∃ program after,
      Program.ofText unboundText = .ok program ∧
      (program.analyze .fresh).result.isOk = false ∧
      (Machine.interpret 20 program (.fresh none)).error?.isSome ∧
      (Analyzer.fresh.afterAll [program]).AtRest ∧
      (Machine.fresh none).Serves [.interpret program, .evaluate (.variable "x" none none)] after ∧
      after.AtRest := by
  have computed : (Program.ofText unboundText).toOption.any fun program =>
      !(program.analyze .fresh).result.isOk &&
        (Machine.interpret 20 program (.fresh none)).error?.isSome &&
        (Request.perform 20 (.interpret program) (.fresh none)).state?.any fun between =>
          (Request.perform 20 (.evaluate (.variable "x" none none)) between).state?.isSome := by
    decide +kernel
  obtain ⟨program, read, passed⟩ := exists_ok_of_any computed
  simp only [Bool.and_eq_true, Bool.not_eq_true'] at passed
  obtain ⟨⟨refused, failed⟩, served⟩ := passed
  obtain ⟨between, first, second⟩ := (Option.any_eq_true _ _).mp served
  obtain ⟨after, second⟩ := Option.isSome_iff_exists.mp second
  have serves : (Machine.fresh none).Serves
      [.interpret program, .evaluate (.variable "x" none none)] after :=
    .cons first (.cons second .nil)
  have rests : (Machine.fresh none).AtRest := rfl
  obtain ⟨_, _, analyzes, runs⟩ := atRest_after_requests
  exact ⟨program, after, read, refused, failed, (analyzes .fresh [program] ⟨rfl, rfl⟩).1, serves,
    (runs _ after _ rests serves).1⟩

end LetDef
