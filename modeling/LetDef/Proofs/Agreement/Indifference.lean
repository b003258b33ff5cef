import LetDef.Proofs.Run.Erasure
import LetDef.Proofs.Run.Outcome
import LetDef.Proofs.Typing.Annotation

/-!
# Runs are indifferent to the analysis

Programs that differ in their slots alone have the same results, errors, output and variables, from
every state and with every amount of fuel. In particular a program does the same before and after
its analysis, whether that accepts it or not.
-/
namespace LetDef

/-- Two machines that differ in the slots of their methods alone. -/
structure Machine.Alike (one other : Machine) : Prop where
  /-- They have the same output and the same fields of objects. -/
  host : one.host = other.host
  /-- They have the same base scope. -/
  base : one.base = other.base
  /-- They have the same global scope. -/
  globals : one.globals = other.globals
  /-- The same scope is active. -/
  active : one.active = other.active
  /-- There are as many scopes. -/
  size : one.store.frames.size = other.store.frames.size
  /-- The same scopes are alive. -/
  live : ∀ id, one.store.isLive id = other.store.isLive id
  /-- The same scopes are around each scope. -/
  ancestors : ∀ id, one.store.ancestors id = other.store.ancestors id
  /-- The variables of each scope have the same values. -/
  values : ∀ id name, one.store.localVariable? id name = other.store.localVariable? id name
  /-- The functions of each scope are the same but for their slots. -/
  functions : ∀ id name arity, (one.store.localFunction? id name arity).map Callable.erase =
    (other.store.localFunction? id name arity).map Callable.erase
  /-- The methods of each object are the same but for their slots. -/
  methods : ∀ owner name arity, (one.method owner name arity).map Callable.erase =
    (other.method owner name arity).map Callable.erase

/-- Two outcomes that end in the same way, with the same result or the same error, in machines that
differ in slots alone. -/
inductive Outcome.Alike {α : Type} : Outcome α → Outcome α → Prop where
  /-- Both end with the same result. -/
  | done {value one other} (alike : Machine.Alike one other) :
    Alike (.done value one) (.done value other)
  /-- Both end with the same error. -/
  | failed {error one other} (alike : Machine.Alike one other) :
    Alike (.failed error one) (.failed error other)
  /-- Both need more fuel. -/
  | exhausted : Alike .exhausted .exhausted

/-- What is like a result is that result. -/
theorem Outcome.Alike.of_done {α : Type} {value : α} {one : Machine} {outcome : Outcome α}
    (alike : (Outcome.done value one).Alike outcome) :
    ∃ other, outcome = .done value other ∧ one.Alike other := by
  cases alike with
  | done machines => exact ⟨_, rfl, machines⟩

/-- Machines that are equal without slots are alike. -/
theorem Machine.alike_of_erase {one other : Machine} (same : one.erase = other.erase) :
    one.Alike other where
  host := (congrArg host same :)
  base := (congrArg base same :)
  globals := (congrArg globals same :)
  active := (congrArg active same :)
  size := by
    have sizes := congrArg (·.store.frames.size) same
    simpa only [erase, Store.size_relabel] using sizes
  live id := by rw [← isLive_erase one, same, isLive_erase]
  ancestors id := by
    have chains := congrArg (·.store.ancestors id) same
    simpa only [erase, Store.ancestors_relabel] using chains
  values id name := by rw [← localVariable?_erase one, same, localVariable?_erase]
  functions id name arity := by
    have found := congrArg (·.store.localFunction? id name arity) same
    simpa only [erase, Store.localFunction?_relabel] using found
  methods owner name arity := by rw [← method_erase, same, method_erase]

/-- Outcomes that are equal without slots are alike. -/
theorem Outcome.alike_of_erase {α : Type} {one other : Outcome α}
    (same : one.erase = other.erase) : one.Alike other := by
  cases one with
  | done value machine =>
    cases other with
    | done =>
      obtain ⟨rfl, machines⟩ := Outcome.done.inj same
      exact .done (Machine.alike_of_erase machines)
    | failed => cases same
    | exhausted => cases same
  | failed error machine =>
    cases other with
    | done => cases same
    | failed =>
      obtain ⟨rfl, machines⟩ := Outcome.failed.inj same
      exact .failed (Machine.alike_of_erase machines)
    | exhausted => cases same
  | exhausted =>
    cases other with
    | done => cases same
    | failed => cases same
    | exhausted => exact .exhausted

/-- Programs that are equal without slots do the same. -/
theorem Machine.interpret_alike {one other : Program} (same : one.erase = other.erase) (fuel : Nat)
    (machine : Machine) : (interpret fuel one machine).Alike (interpret fuel other machine) := by
  apply Outcome.alike_of_erase
  rw [← interpret_erase, ← interpret_erase, same]

/-- Two programs that differ from a third in their slots alone do the same from every state and with
every amount of fuel: they end with the same result or the same error, with the same output and the
same variables in all scopes, or neither of them ends. The machine may have functions of the host
that fail, and its output may be limited, so this covers also what runs write that never end. In
particular, a program does the same before and after its analysis, whether it is accepted or not. -/
theorem interpret_alike_of_erase_eq (program one other : Program)
    (first : one.erase = program.erase) (second : other.erase = program.erase) (fuel : Nat)
    (machine : Machine) :
    (Machine.interpret fuel one machine).Alike (Machine.interpret fuel other machine) ∧
    ∀ analyzer, (Machine.interpret fuel program machine).Alike
      (Machine.interpret fuel (program.analyze analyzer).tree machine) :=
  ⟨Machine.interpret_alike (first.trans second.symm) fuel machine,
    fun analyzer => Machine.interpret_alike (program.erase_analyze analyzer).symm fuel machine⟩

/-- A program that writes in a loop has the same result and the same output with its slots filled as
without. -/
theorem interpret_alike_of_erase_eq_counting :
    (Program.counting.analyze .fresh).result = .ok () ∧
    (Program.counting.analyze .fresh).tree.erase = Program.counting.erase ∧
    ∃ value one other, value.same (.integer 3) ∧
      Machine.interpret 40 (Program.counting.analyze .fresh).tree (.fresh none) = .done value one ∧
      Machine.interpret 40 Program.counting (.fresh none) = .done value other ∧
      one.host.output = other.host.output := by
  have yields : (Machine.interpret 40 (Program.counting.analyze .fresh).tree
      (.fresh none)).value?.any (·.same (.integer 3)) := by decide +kernel
  obtain ⟨value, one, ended, same⟩ := Outcome.exists_of_any yields
  have bare := Program.counting.erase_analyze .fresh
  obtain ⟨alike, _⟩ := interpret_alike_of_erase_eq .counting _ .counting bare rfl 40 (.fresh none)
  rw [ended] at alike
  obtain ⟨other, again, machines⟩ := alike.of_done
  exact ⟨Program.accepted_counting, bare, value, one, other, same, ended, again,
    congrArg Host.output machines.host⟩

end LetDef
