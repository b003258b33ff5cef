import LetDef.Proofs.Agreement.TypeSafety

/-!
# Resolution of names

What a name means to the analysis and what it means to a run. Variables mean the same to both,
without exception: a run reads and overwrites the variable of the field, parameter, loop or
declaration that the analysis found, and it never fails in finding or defining a name
(`names_resolve_as_analyzed`). Calls mean the same unless a method has the name and the number of
parameters of a builtin: the methods of a run are all there when `main` begins, while the analysis
takes a call before that method for one of the builtin (`call_denotes_slot_iff_not_usurped`).
-/
namespace LetDef

/-- The nearest variable of a name has one origin in a state of the analysis and a state of a run;
in the latter it is bound in this scope. -/
def Program.Finds (source program : Program) (fuel : Nat) (limit : Option Nat) (analyzer : Analyzer)
    (machine : Machine) (name : String) (bound : FrameId) : Prop :=
  ∃ known, analyzer.store.binder? analyzer.active name = some known ∧
    machine.store.binder? machine.active name = some bound ∧
    source.Origin program fuel limit known bound name

namespace AcceptedRun

variable {run : AcceptedRun} {loaded : Bool} {address : Address} {analyzer : Analyzer}
variable {machine : Machine} {name : String}

/-- A variable that the analysis has found is found by the run where it has the same origin. -/
theorem Meets.exists_finds (meets : run.Meets loaded analyzer machine) {entry : Variable}
    (found : analyzer.findVariable? name = some entry) :
    ∃ bound value,
      run.accepted.source.Finds run.accepted.program run.fuel run.limit analyzer machine name
        bound ∧
      machine.store.localVariable? bound name = some value ∧
      machine.findVariable? name = some value := by
  obtain ⟨pair, member, value, known, bound, _, held, read, _⟩ := meets.agrees.exists_value found
  have isBound : (machine.store.localVariable? pair.2 name).isSome := held ▸ rfl
  exact ⟨pair.2, value, ⟨pair.1, known, bound, meets.sited pair member name isBound⟩, held, read⟩

/-- A run reads the variable that the analysis found. -/
theorem Reaches.exists_read {fuel : Nat} {slot : Option Variable} {type : Option Ty}
    (reached : run.Reaches address (.expression (fuel + 1) (.variable name slot type) machine)) :
    ∃ analyzer bound value,
      run.accepted.Visits address (.expression (.variable name none none) analyzer) ∧
      run.accepted.source.Finds run.accepted.program run.fuel run.limit analyzer machine name
        bound ∧
      machine.store.localVariable? bound name = some value ∧
      evaluate (fuel + 1) (.variable name slot type) machine = .done value machine := by
  obtain ⟨_, _, passes, corresponds⟩ := reached.exists_spot
  cases corresponds with
  | expression types meets =>
    obtain ⟨rfl, entry, known, _⟩ := types.variable
    obtain ⟨bound, value, finds, held, read⟩ := meets.exists_finds known
    refine ⟨_, bound, value, passes.visits, finds, held, ?_⟩
    rw [evaluate, read]

/-- A run overwrites the variable that the analysis found. -/
theorem Reaches.exists_write {fuel : Nat} {slot : Option Variable} {type : Option Ty}
    {value : Expr} {content : Value} {between : Machine}
    (reached : run.Reaches address
      (.statement (fuel + 1) (.assignment (.variable name slot type) value) machine))
    (evaluated : evaluate fuel value machine = .done content between) :
    ∃ analyzer bound,
      run.accepted.Visits (.target :: address) (.expression (.variable name none none) analyzer) ∧
      run.accepted.source.Finds run.accepted.program run.fuel run.limit analyzer between name
        bound ∧
      execute (fuel + 1) (.assignment (.variable name slot type) value) machine =
        .done .normal
          { between with store := between.store.bindVariable bound name content } := by
  obtain ⟨_, _, passes, corresponds⟩ := reached.exists_spot
  cases corresponds with
  | statement accepts _ meets =>
    obtain ⟨_, _, _, _, rfl, placed, typesTarget, typesValue, _⟩ :=
      accepts.assignment meets.agrees.standing.bare
    obtain ⟨rfl, entry, known, _⟩ := typesTarget.variable
    have met := (meets.evaluate typesValue evaluated).2
    obtain ⟨bound, _, finds, _, _⟩ := met.exists_finds known
    have visits := passes.visits.step (.target placed)
    refine ⟨_, bound, visits, finds, ?_⟩
    obtain ⟨_, _, binder, _⟩ := finds
    have assigned := Machine.assign_eq between name content
    rw [binder] at assigned
    rw [execute, evaluated, Outcome.done_andThen, assigned]
    rfl

end AcceptedRun

/-- No method stands for the same as a builtin: their names in Java differ. -/
theorem Acceptance.signature_ne_builtin (accepted : Acceptance) {declared : Method}
    {signature : Signature} (member : declared ∈ accepted.program.methods)
    (filled : declared.slot = some signature) (builtin : Builtin) :
    builtin.signature ≠ signature := by
  rintro rfl
  obtain ⟨source, _, _, _, _, ⟨method⟩⟩ := accepted.exists_method member
  obtain ⟨name, renderName, _⟩ := Method.signatureIn_eq_ok method.known
  have same := Option.some.inj (method.slot.symm.trans filled)
  rw [same] at name renderName
  cases builtin
  have equal : "print" = "System.out.println" := name.trans renderName.symm
  contradiction

/-- The callable is what the function in the slot of a call stands for: the builtin if the slot
holds a builtin, and otherwise the method that answers the call and whose own slot holds the
same. -/
inductive Program.Denotes (program : Program) (scope : FrameId) (name : String) (arity : Nat) :
    Signature → Callable → Prop where
  | builtin (builtin : Builtin) :
    Denotes program scope name arity builtin.signature builtin.callable
  | method {declared signature} (other : ∀ builtin : Builtin, builtin.signature ≠ signature)
    (member : declared ∈ program.methods) (answers : declared.answers name arity)
    (filled : declared.slot = some signature) :
    Denotes program scope name arity signature (.method declared scope)

/-- The call stands in a method, the analysis has taken it for one of a builtin, and a method of the
program answers it. -/
def Program.Usurped (program : Program) (address : Address) (found : Signature) (name : String)
    (arity : Nat) : Prop :=
  address.inMethod ∧ (∃ builtin : Builtin, builtin.signature = found) ∧
    ∃ declared ∈ program.methods, declared.answers name arity

namespace AcceptedRun

variable {run : AcceptedRun} {loaded : Bool} {address : Address} {analyzer : Analyzer}
variable {machine : Machine} {name : String}

/-- What a run calls is what the analysis has found, unless a method usurps the call. -/
theorem Meets.denotes_iff (meets : run.Meets loaded analyzer machine)
    (inMethod : address.inMethod = loaded) {arity : Nat} {signature : Signature}
    {callable : Callable}
    (resolves : run.accepted.Resolves machine name arity signature callable) :
    run.accepted.program.Denotes machine.globals name arity signature callable ↔
      ¬ run.accepted.program.Usurped address signature name arity := by
  cases resolves with
  | @builtin builtin _ free =>
    refine ⟨fun _ => ?_, fun _ => .builtin builtin⟩
    rintro ⟨inside, _, declared, member, answers⟩
    have known := run.accepted.method?_eq_some_iff.mpr ⟨member, answers⟩
    rcases free with missing | missing
    · rw [missing] at known
      contradiction
    · rw [meets.functions, inMethod.symm.trans inside, known] at missing
      contradiction
  | @method declared _ loads member answers filled =>
    have other := run.accepted.signature_ne_builtin member filled
    refine ⟨fun _ => ?_, fun _ => .method other member answers filled⟩
    rintro ⟨_, ⟨builtin, same⟩, _⟩
    exact other builtin same
  | @shadowing builtin declared _ loads member answers =>
    have inside : address.inMethod = true := inMethod.trans (meets.loaded_eq loads)
    refine ⟨fun denotes => ?_, fun free => ?_⟩
    · generalize same : builtin.signature = signature at denotes
      generalize called : Callable.method declared machine.globals = callable at denotes
      cases denotes with
      | builtin other =>
        cases other
        contradiction
      | method other => exact absurd same (other builtin)
    · exact absurd ⟨inside, ⟨builtin, rfl⟩, declared, member, answers⟩ free

/-- A call whose arguments have values is carried out, with the function that its slot holds unless
a method usurps it. -/
theorem Reaches.exists_dispatch {fuel : Nat} {arguments : List Expr} {slot : Option Signature}
    {type : Option Ty} {values : List Value} {between : Machine}
    (reached : run.Reaches address
      (.expression (fuel + 1) (.call name arguments slot type) machine))
    (evaluated : evaluateAll fuel arguments machine = .done values between) :
    ∃ found callable, slot = some found ∧
      between.findFunction? name values.length = some callable ∧
      evaluate (fuel + 1) (.call name arguments slot type) machine =
        invoke fuel callable values between ∧
      (run.accepted.program.Denotes between.globals name values.length found callable ↔
        ¬ run.accepted.program.Usurped address found name values.length) := by
  obtain ⟨_, _, passes, corresponds⟩ := reached.exists_spot
  cases corresponds with
  | expression types meets =>
    obtain ⟨_, _, found, _, typesAll, known, _, filled, _⟩ :=
      types.call meets.agrees.standing.bare
    obtain ⟨admitted, met⟩ := meets.evaluateAll typesAll evaluated
    rw [← admitted.length_eq] at known
    obtain ⟨callable, resolved, resolves⟩ := met.agrees.exists_callable known
    refine ⟨found, callable, filled, resolved, ?_, met.denotes_iff passes.inMethod resolves⟩
    rw [evaluate, evaluated, Outcome.done_andThen, resolved]

end AcceptedRun

/-- Once its fields are computed, a run comes to the body of `main`. -/
theorem AcceptedRun.exists_main_body (run : AcceptedRun) {afterFields : Machine} {fuel : Nat}
    (enough : run.fuel = fuel + 1)
    (computed : Machine.defineFields run.fuel run.accepted.program.fields (.fresh run.limit) =
      .done () afterFields) {main : Method} (member : main ∈ run.accepted.program.methods)
    (answers : main.answers "main" 0) :
    ∃ machine, run.Reaches (.body :: run.accepted.program.addressOf main)
      (.statements fuel main.body machine) := by
  have begun : run.Reaches [] (.program run.fuel run.accepted.program (.fresh run.limit)) := .start
  obtain ⟨after, methods, meets, found⟩ :=
    exists_loaded ⟨.start, rfl⟩ begun computed member answers
  have live : after.store.isLive after.globals := meets.agrees.running.nested.liveGlobals
  have bound : (after.enterMethod after.globals).defineAll
      ((main.parameters.map Parameter.name).zip []) = (none, after.enterMethod after.globals) := by
    rw [List.zip_nil_right]
    rfl
  have starts : (Task.call run.fuel (.method main after.globals) [] after).Starts (.down [.body])
      (.statements fuel main.body (after.enterMethod after.globals)) :=
    enough ▸ .methodBody live bound
  exact ⟨_, (begun.step (.main computed methods found)).step starts⟩

/-- The program has no fields, and its method `main` comes first and begins with a call of the
builtin `print` for a literal. -/
def Program.printsFirst (program : Program) : Bool :=
  match program with
  | ⟨[], main :: _⟩ =>
    main.answers "main" 0 &&
      match main.body with
      | .expression (.call "print" [.literal _ _] (some found) _) :: _ =>
        found = Builtin.print.signature
      | _ => false
  | _ => false

/-- A run of a program that prints first comes to a call of `print`, which stands in a method. -/
theorem Program.exists_print {text : String} {program : Program}
    (accepted : Program.ofTextAnalyzed text = .ok program) (prints : program.printsFirst)
    (fuel : Nat) (limit : Option Nat) :
    ∃ address value valueType type machine,
      program.Reaches (fuel + 3) (.fresh limit) address (.expression fuel
        (.call "print" [.literal value valueType] (some Builtin.print.signature) type) machine) ∧
      address.inMethod := by
  unfold printsFirst at prints
  split at prints
  next main others =>
    rw [Bool.and_eq_true] at prints
    obtain ⟨answers, shape⟩ := prints
    split at shape
    next value valueType found type rest body =>
      obtain rfl := of_decide_eq_true shape
      obtain ⟨acceptance, _, same⟩ := Acceptance.exists_of_ofTextAnalyzed accepted
      let run : AcceptedRun := ⟨acceptance, fuel + 3, limit⟩
      have computed : Machine.defineFields run.fuel run.accepted.program.fields
          (.fresh run.limit) = .done () (.fresh run.limit) := by
        rw [same]
        rfl
      have member : main ∈ run.accepted.program.methods := by
        rw [same]
        exact List.mem_cons_self
      obtain ⟨machine, reached⟩ := run.exists_main_body rfl computed member answers
      replace reached : acceptance.program.Reaches (fuel + 3) (.fresh limit)
        (.body :: acceptance.program.addressOf main)
        (.statements (fuel + 2) main.body machine) := reached
      rw [same, body] at reached
      refine ⟨_, value, valueType, type, machine, (reached.step .firstStatement).step .effect, ?_⟩
      have inside := Program.inMethod_addressOf ⟨[], main :: others⟩ main
      simpa [Address.inMethod, Program.destination] using inside
    next => contradiction
  next => contradiction

/-- Names mean the same to the analysis of an accepted program and to its runs. A run never fails
in finding or defining one; and when it reads or overwrites a variable, the analysis has come to
the same place, where the nearest variable of that name was the one that the same construct has
bound. -/
theorem names_resolve_as_analyzed {text : String} {program : Program}
    (accepted : Program.ofTextAnalyzed text = .ok program) (fuel : Nat) (limit : Option Nat) :
    (∀ error after, Machine.interpret fuel program (.fresh limit) = .failed error after →
      error.concernsNames = false) ∧
    ∃ source, Program.ofText text = .ok source ∧
      (∀ address left name slot type machine,
        program.Reaches fuel (.fresh limit) address
          (.expression (left + 1) (.variable name slot type) machine) →
        ∃ analyzer bound value,
          source.Visits .fresh address (.expression (.variable name none none) analyzer) ∧
          source.Finds program fuel limit analyzer machine name bound ∧
          machine.store.localVariable? bound name = some value ∧
          evaluate (left + 1) (.variable name slot type) machine = .done value machine) ∧
      ∀ address left name slot type value machine content between,
        program.Reaches fuel (.fresh limit) address
          (.statement (left + 1) (.assignment (.variable name slot type) value) machine) →
        evaluate left value machine = .done content between →
        ∃ analyzer bound,
          source.Visits .fresh (.target :: address)
            (.expression (.variable name none none) analyzer) ∧
          source.Finds program fuel limit analyzer between name bound ∧
          execute (left + 1) (.assignment (.variable name slot type) value) machine =
            .done .normal
              { between with store := between.store.bindVariable bound name content } := by
  obtain ⟨acceptance, read, rfl⟩ := Acceptance.exists_of_ofTextAnalyzed accepted
  let run : AcceptedRun := ⟨acceptance, fuel, limit⟩
  refine ⟨fun error after failed => ?_, acceptance.source, read,
    fun address left name slot type machine reached => ?_,
    fun address left name slot type value machine content between reached evaluated => ?_⟩
  · obtain ⟨address, task, reached, faults⟩ := run.exists_fault failed
    exact (reached.explains faults).1
  · have begun : run.Reaches address (.expression (left + 1) (.variable name slot type) machine) :=
      reached
    exact begun.exists_read
  · have begun : run.Reaches address
        (.statement (left + 1) (.assignment (.variable name slot type) value) machine) := reached
    exact begun.exists_write evaluated

/-- A program in which a variable hides another one. -/
def hidingText : String :=
  "DEF main(): Integer DO LET a = 1; IF TRUE DO LET a = 2; a = a + 1; END RETURN a; END"

/-- A run in which a variable hides another one never fails in finding a name. -/
theorem names_resolve_as_analyzed_hidden :
    ∃ program, Program.ofTextAnalyzed hidingText = .ok program ∧
      ∀ error after, Machine.interpret 20 program (.fresh none) = .failed error after →
        error.concernsNames = false := by
  have computed : (Program.ofTextAnalyzed hidingText).toOption.any fun _ => true := by
    decide +kernel
  obtain ⟨program, accepted, _⟩ := exists_ok_of_any computed
  exact ⟨program, accepted, (names_resolve_as_analyzed accepted 20 none).1⟩

/-- Wherever a run of an accepted program carries out a call without a receiver, it calls what the
function in the slot of the call stands for, exactly unless the slot holds a builtin and the call
stands in a method of a program in which a method answers it. -/
theorem call_denotes_slot_iff_not_usurped {text : String} {program : Program}
    (accepted : Program.ofTextAnalyzed text = .ok program) (fuel : Nat) (limit : Option Nat)
    {address : Address} {left : Nat} {name : String} {arguments : List Expr}
    {slot : Option Signature} {type : Option Ty} {machine between : Machine} {values : List Value}
    (reached : program.Reaches fuel (.fresh limit) address
      (.expression (left + 1) (.call name arguments slot type) machine))
    (evaluated : evaluateAll left arguments machine = .done values between) :
    ∃ found callable, slot = some found ∧
      between.findFunction? name values.length = some callable ∧
      evaluate (left + 1) (.call name arguments slot type) machine =
        invoke left callable values between ∧
      (program.Denotes between.globals name values.length found callable ↔
        ¬ program.Usurped address found name values.length) := by
  obtain ⟨acceptance, _, rfl⟩ := Acceptance.exists_of_ofTextAnalyzed accepted
  have begun : AcceptedRun.Reaches ⟨acceptance, fuel, limit⟩ address
      (.expression (left + 1) (.call name arguments slot type) machine) := reached
  exact begun.exists_dispatch evaluated

/-- A program that prints. -/
def printingText : String :=
  "DEF main(): Integer DO print(1); RETURN 0; END"

/-- Without a method of its name, `print` is what its calls stand for. -/
theorem call_denotes_slot_iff_not_usurped_builtin :
    ∃ program address arguments type machine values between callable,
      Program.ofTextAnalyzed printingText = .ok program ∧
      program.Reaches 9 (.fresh none) address
        (.expression 6 (.call "print" arguments (some Builtin.print.signature) type) machine) ∧
      evaluateAll 5 arguments machine = .done values between ∧
      between.findFunction? "print" values.length = some callable ∧
      program.Denotes between.globals "print" values.length Builtin.print.signature callable := by
  have computed : (Program.ofTextAnalyzed printingText).toOption.any fun program =>
      program.printsFirst && program.methods.all (!·.answers "print" 1) := by decide +kernel
  obtain ⟨program, accepted, passed⟩ := exists_ok_of_any computed
  rw [Bool.and_eq_true, List.all_eq_true] at passed
  obtain ⟨prints, others⟩ := passed
  obtain ⟨address, value, valueType, type, machine, reached, _⟩ :=
    Program.exists_print accepted prints 6 none
  have evaluated : evaluateAll 5 [.literal value valueType] machine =
    .done [.ofLiteral value] machine := rfl
  obtain ⟨_, callable, filled, found, _, denotes_iff⟩ :=
    call_denotes_slot_iff_not_usurped accepted 9 none reached evaluated
  obtain rfl := Option.some.inj filled
  refine ⟨program, address, _, type, machine, _, machine, callable, accepted, reached, evaluated,
    found, denotes_iff.mpr ?_⟩
  rintro ⟨_, _, declared, member, answers⟩
  have other := others declared member
  have taken : declared.answers "print" 1 = true := answers
  rw [taken] at other
  contradiction

/-- A program that prints, and in which a later method has the name of the builtin. -/
def usurpedText : String :=
  "DEF main(): Integer DO print(1); RETURN 0; END DEF print(x: Integer): Integer DO RETURN x; END"

/-- Where a method of its name comes later, that is called in the place of `print`. -/
theorem call_denotes_slot_iff_not_usurped_later :
    ∃ program address arguments type machine values between callable,
      Program.ofTextAnalyzed usurpedText = .ok program ∧
      program.Reaches 9 (.fresh none) address
        (.expression 6 (.call "print" arguments (some Builtin.print.signature) type) machine) ∧
      evaluateAll 5 arguments machine = .done values between ∧
      between.findFunction? "print" values.length = some callable ∧
      ¬ program.Denotes between.globals "print" values.length Builtin.print.signature callable := by
  have computed : (Program.ofTextAnalyzed usurpedText).toOption.any fun program =>
      program.printsFirst && program.methods.any (·.answers "print" 1) := by decide +kernel
  obtain ⟨program, accepted, passed⟩ := exists_ok_of_any computed
  rw [Bool.and_eq_true, List.any_eq_true] at passed
  obtain ⟨prints, declared, member, answers⟩ := passed
  obtain ⟨address, value, valueType, type, machine, reached, inside⟩ :=
    Program.exists_print accepted prints 6 none
  have evaluated : evaluateAll 5 [.literal value valueType] machine =
    .done [.ofLiteral value] machine := rfl
  obtain ⟨acceptance, _, rfl⟩ := Acceptance.exists_of_ofTextAnalyzed accepted
  have begun : AcceptedRun.Reaches ⟨acceptance, 9, none⟩ address (.expression 6 (.call "print"
      [.literal value valueType] (some Builtin.print.signature) type) machine) := reached
  obtain ⟨_, callable, filled, found, _, denotes_iff⟩ := begun.exists_dispatch evaluated
  obtain rfl := Option.some.inj filled
  refine ⟨acceptance.program, address, _, type, machine, _, machine, callable, accepted, reached,
    evaluated, found, fun denotes => denotes_iff.mp denotes ?_⟩
  exact ⟨inside, ⟨.print, rfl⟩, declared, member, answers⟩

end LetDef
