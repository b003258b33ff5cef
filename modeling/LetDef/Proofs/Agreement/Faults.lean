import LetDef.Proofs.Agreement.Correspondence
import LetDef.Proofs.Run.Breakage

/-!
# Failing operations

The operations at which a run of an accepted program can fail. It never fails in finding or defining
a name, whatever else the program does (`RuntimeError.concernsNames`); and if no method takes the
place of `print`, all that it can fail at is one of the operations that the type rules leave open
(`Task.Excused`): they admit `NIL` everywhere, allow orders of characters and texts, and do not look
at divisors. The proofs go through the operations that can fail (`Task.Breaks`), one kind of task
each.
-/
namespace LetDef

/-- A value that a type of conditions admits and that is no condition is `NIL`. -/
theorem Value.eq_nil_of_asBoolean {value : Value} {error : RuntimeError}
    (failed : value.asBoolean = .error error) (admits : Ty.boolean.Admits value) :
    value = .nil := by
  rcases Ty.admits_boolean_iff.mp admits with missing | ⟨truth, rfl⟩
  · exact missing
  · contradiction

/-- Printing fails if the output does not take the text. -/
theorem Host.eq_printFailed {host after : Host} {arguments : List Value} {error : RuntimeError}
    (failed : host.print arguments = (.error error, after)) : error = .printFailed := by
  induction arguments generalizing host with
  | nil => cases failed
  | cons first rest ih =>
    rw [Host.print] at failed
    split at failed
    · exact ih failed
    · injection failed with same _
      injection same with same
      exact same.symm

/-- What an accepted place becomes is a place. -/
theorem Analyzer.Types.isPlace {analyzer : Analyzer} {source tree : Expr} {type : Ty}
    (types : analyzer.Types source tree type) (placed : source.isPlace) : tree.isPlace := by
  have shape := types.erase_eq
  cases source <;> cases tree <;> simp_all [Expr.erase, Expr.isPlace]

namespace Task

/-- The operation of the task is one that the type rules leave open. -/
inductive Excused : Task → Prop where
  | print {fuel arguments machine after}
    (refused : machine.host.print arguments = (.error .printFailed, after)) :
    Excused (.call (fuel + 1) Builtin.print.callable arguments machine)
  | division {fuel left right slot machine first between second after}
    (evaluated : evaluate fuel left machine = .done first between)
    (evaluatedRight : evaluate fuel right between = .done second after) (zero : second.isZero) :
    Excused (.expression (fuel + 1) (.binary .div left right slot) machine)
  | leftMissing {fuel operator left right slot machine between}
    (evaluated : evaluate fuel left machine = .done .nil between) :
    Excused (.expression (fuel + 1) (.binary operator left right slot) machine)
  | rightMissing {fuel operator left right slot machine first between after}
    (evaluated : evaluate fuel left machine = .done first between)
    (continues : operator.Continues first)
    (evaluatedRight : evaluate fuel right between = .done .nil after) :
    Excused (.expression (fuel + 1) (.binary operator left right slot) machine)
  | order {fuel operator left right slot machine first between second after}
    (orders : operator.isOrder) (evaluated : evaluate fuel left machine = .done first between)
    (evaluatedRight : evaluate fuel right between = .done second after)
    (textual : first.bothTextual second) :
    Excused (.expression (fuel + 1) (.binary operator left right slot) machine)
  | choice {fuel condition accepted rejected machine between}
    (evaluated : evaluate fuel condition machine = .done .nil between) :
    Excused (.statement (fuel + 1) (.conditional condition accepted rejected) machine)
  | round {fuel condition body machine between}
    (evaluated : evaluate fuel condition machine = .done .nil between) :
    Excused (.rounds (fuel + 1) condition body machine)
  | iteration {fuel name value body machine between}
    (evaluated : evaluate fuel value machine = .done .nil between) :
    Excused (.statement (fuel + 1) (.iteration name value body) machine)

end Task

namespace AcceptedRun

/-- The error is none about names; and if no method takes the place of `print`, the operation of the
task is one that the type rules leave open. -/
def Explains (run : AcceptedRun) (task : Task) (error : RuntimeError) : Prop :=
  error.concernsNames = false ∧ (run.accepted.Unshadowed → task.Excused)

variable {run : AcceptedRun} {loaded : Bool} {address : Address} {analyzer last : Analyzer}
variable {machine : Machine} {fuel : Nat} {error : RuntimeError}

/-- Where an operator fails. -/
theorem explains_binary {source left right : Expr} {operator : BinaryOp} {slot : Option Ty}
    {type : Ty}
    (types : analyzer.Types source (.binary operator left right slot) type)
    (meets : run.Meets loaded analyzer machine)
    (breaks : (Task.expression fuel (.binary operator left right slot) machine).Breaks error) :
    run.Explains (.expression fuel (.binary operator left right slot) machine) error := by
  obtain ⟨_, _, leftType, rightType, rfl, typesLeft, typesRight, typed, _⟩ :=
    types.binary meets.agrees.standing.bare
  cases breaks with
  | leftOperand logical evaluated refused =>
    obtain ⟨_, takes, _⟩ := Typing.binaryType_of_isLogical logical typed
    refine ⟨Value.eq_notBoolean refused ▸ rfl, fun unshadowed => ?_⟩
    have admits := (meets.evaluate typesLeft evaluated).1 unshadowed
    obtain rfl := Value.eq_nil_of_asBoolean refused (admits.assign takes)
    exact .leftMissing evaluated
  | rightOperand logical evaluated continues evaluatedRight refused =>
    obtain ⟨_, _, takes⟩ := Typing.binaryType_of_isLogical logical typed
    refine ⟨Value.eq_notBoolean refused ▸ rfl, fun unshadowed => ?_⟩
    have met := (meets.evaluate typesLeft evaluated).2
    have admits := (met.evaluate typesRight evaluatedRight).1 unshadowed
    obtain rfl := Value.eq_nil_of_asBoolean refused (admits.assign takes)
    exact .rightMissing evaluated continues evaluatedRight
  | operator strict evaluated continues evaluatedRight refused =>
    refine ⟨Value.concernsNames_of_binary refused, fun unshadowed => ?_⟩
    obtain ⟨admits, met⟩ := meets.evaluate typesLeft evaluated
    have admitsRight := (met.evaluate typesRight evaluatedRight).1
    have reasons :=
      Typing.binary_error strict typed (admits unshadowed) (admitsRight unshadowed) refused
    rcases reasons with rfl | rfl | ⟨rfl, zero, _⟩ | ⟨orders, textual⟩
    · exact .leftMissing evaluated
    · exact .rightMissing evaluated continues evaluatedRight
    · exact .division evaluated evaluatedRight zero
    · exact .order orders evaluated evaluatedRight textual

/-- Where an expression fails. -/
theorem explains_expression {source tree : Expr} {type : Ty}
    (types : analyzer.Types source tree type) (meets : run.Meets loaded analyzer machine)
    (breaks : (Task.expression fuel tree machine).Breaks error) :
    run.Explains (.expression fuel tree machine) error := by
  have bare := meets.agrees.standing.bare
  cases tree with
  | literal | group => cases breaks
  | binary => exact explains_binary types meets breaks
  | «variable» =>
    cases breaks with
    | «variable» missing =>
      obtain ⟨_, entry, known, _⟩ := types.variable
      obtain ⟨_, _, _, _, _, _, _, found, _⟩ := meets.agrees.exists_value known
      rw [missing] at found
      contradiction
  | member => exact absurd types (Analyzer.Types.not_member bare)
  | call =>
    cases breaks with
    | function evaluated missing =>
      obtain ⟨_, argumentTypes, found, _, typesAll, known, _⟩ := types.call bare
      obtain ⟨admitted, met⟩ := meets.evaluateAll typesAll evaluated
      rw [← admitted.length_eq] at known
      obtain ⟨callable, resolved, _⟩ := met.agrees.exists_callable known
      rw [missing] at resolved
      contradiction
  | memberCall => exact absurd types (Analyzer.Types.not_memberCall bare)

/-- Where a builtin fails. -/
theorem explains_builtin {arguments : List Value} (builtin : Builtin)
    (breaks : (Task.call fuel builtin.callable arguments machine).Breaks error) :
    run.Explains (.call fuel builtin.callable arguments machine) error := by
  cases builtin
  cases breaks with
  | foreign refused =>
    obtain rfl := Host.eq_printFailed refused
    exact ⟨rfl, fun _ => .print refused⟩

/-- A method does not fail by itself. -/
theorem not_breaks_method {source declared : Method} {after : Analyzer} {arguments : List Value}
    (method : source.Accepted declared analyzer after) (rests : analyzer.Rests run.accepted)
    (member : declared ∈ run.accepted.program.methods)
    (admitted : run.accepted.AdmitsAll method.signature.parameters arguments)
    (meets : run.Meets true analyzer machine.atGlobals) :
    ¬ (Task.call fuel (.method declared machine.globals) arguments machine).Breaks error := by
  intro breaks
  cases breaks with
  | closure dead => exact dead meets.agrees.running.nested.liveGlobals
  | parameter _ taken =>
    have named : run.Meets true method.named machine.atGlobals :=
      meets.callee (rests.named method member)
    obtain ⟨between, defined, _⟩ := named.agrees.exists_body admitted
    cases taken.symm.trans defined

/-- Where a statement fails. -/
theorem explains_statement {source tree : Stmt} (accepts : analyzer.Accepts source tree last)
    (apart : analyzer.active ≠ analyzer.globals) (meets : run.Meets loaded analyzer machine)
    (breaks : (Task.statement fuel tree machine).Breaks error) :
    run.Explains (.statement fuel tree machine) error := by
  have bare := meets.agrees.standing.bare
  cases breaks with
  | declaration evaluated taken =>
    obtain ⟨_, _, type, _, _, types, takes, defined, _⟩ := accepts.declaration bare
    obtain ⟨admits, met⟩ := meets.evaluateOption types evaluated
    obtain ⟨_, bound, _⟩ := met.agrees.define (fun _ => apart) defined (admits type takes)
    cases taken.symm.trans bound
  | assignment evaluated missing =>
    obtain ⟨_, _, _, _, _, _, typesTarget, typesValue, takes, _⟩ := accepts.assignment bare
    obtain ⟨_, entry, known, _, rfl, _⟩ := typesTarget.variable
    obtain ⟨admits, met⟩ := meets.evaluate typesValue evaluated
    obtain ⟨_, bound, _⟩ := met.agrees.assign known (admits.assign takes)
    cases missing.symm.trans bound
  | fieldAssignment =>
    obtain ⟨_, _, _, _, _, _, typesTarget, _⟩ := accepts.assignment bare
    exact absurd typesTarget (Analyzer.Types.not_member bare)
  | target misplaced =>
    obtain ⟨_, _, _, _, _, placed, typesTarget, _⟩ := accepts.assignment bare
    rw [typesTarget.isPlace placed] at misplaced
    contradiction
  | choice evaluated refused =>
    obtain ⟨_, _, _, _, _, _, types, takes, _⟩ := accepts.conditional bare
    refine ⟨Value.eq_notBoolean refused ▸ rfl, fun unshadowed => ?_⟩
    have admits := (meets.evaluate types evaluated).1.assign takes
    obtain rfl := Value.eq_nil_of_asBoolean refused (admits unshadowed)
    exact .choice evaluated
  | range evaluated unlisted =>
    obtain ⟨_, _, _, _, _, _, types, takes, _⟩ := accepts.iteration bare
    refine ⟨rfl, fun unshadowed => ?_⟩
    have admits := (meets.evaluate types evaluated).1.assign takes
    rcases admits unshadowed with rfl | ⟨items, same, _⟩
    · exact .iteration evaluated
    · exact absurd same (unlisted items)

/-- The rounds of a loop do not fail by themselves. -/
theorem not_breaks_items {source : Stmt} {name : String} {range : Expr} {items : List Value}
    {body : List Stmt} (accepts : analyzer.Accepts source (.iteration name range body) last)
    (whole : ∀ item ∈ items, run.accepted.Admits .integer item)
    (meets : run.Meets loaded analyzer machine) :
    ¬ (Task.items fuel name items body machine).Breaks error := by
  intro breaks
  cases breaks with
  | item taken =>
    obtain ⟨_, _, _, _, _, _, _, _, _, defined, _⟩ := accepts.iteration meets.agrees.standing.bare
    have apart : analyzer.enter.active ≠ analyzer.enter.globals :=
      Nat.ne_of_gt (Store.lt_size_of_isLive meets.agrees.standing.nested.liveGlobals)
    obtain ⟨between, bound, _⟩ := meets.agrees.enter.define (fun _ => apart) defined
      (whole _ List.mem_cons_self)
    cases taken.symm.trans bound

/-- Where the rounds of a loop with a condition fail. -/
theorem explains_rounds {source : Stmt} {condition : Expr} {body : List Stmt}
    (accepts : analyzer.Accepts source (.repetition condition body) last)
    (meets : run.Meets loaded analyzer machine)
    (breaks : (Task.rounds fuel condition body machine).Breaks error) :
    run.Explains (.rounds fuel condition body machine) error := by
  obtain ⟨_, _, _, _, types, takes, _⟩ := accepts.repetition meets.agrees.standing.bare
  cases breaks with
  | round evaluated refused =>
    refine ⟨Value.eq_notBoolean refused ▸ rfl, fun unshadowed => ?_⟩
    have admits := (meets.evaluate types evaluated).1.assign takes
    obtain rfl := Value.eq_nil_of_asBoolean refused (admits unshadowed)
    exact .round evaluated

/-- Fields do not fail by themselves. -/
theorem not_breaks_fields {sources trees : List Field} (blank : analyzer.Blank)
    (blankRun : machine.Blank) (passes : run.Passes false address (.fields sources analyzer))
    (reached : run.Reaches address (.fields fuel trees machine))
    (passed : Visit.each Field.analyze sources analyzer = ⟨trees, .ok (), run.accepted.loaded⟩)
    (meets : run.Meets false analyzer machine) :
    ¬ (Task.fields fuel trees machine).Breaks error := by
  intro breaks
  cases breaks with
  | field evaluated taken =>
    obtain ⟨after, _, _, bound, _⟩ :=
      exists_field blank blankRun passes reached passed meets evaluated
    cases taken.symm.trans bound

/-- A program does not fail by itself: its methods can be defined, and there is one to begin
with. -/
theorem not_breaks_program
    (passes : run.Passes false address (.program run.accepted.source .fresh))
    (reached : run.Reaches address (.program run.fuel run.accepted.program (.fresh run.limit))) :
    ¬ (Task.program run.fuel run.accepted.program (.fresh run.limit)).Breaks error := by
  intro breaks
  obtain ⟨declared, member, answers⟩ := run.accepted.exists_main
  cases breaks with
  | program fields refused =>
    obtain ⟨after, methods, _⟩ := exists_loaded passes reached fields member answers
    rw [methods] at refused
    contradiction
  | main fields methods missing =>
    obtain ⟨after, same, _, found⟩ := exists_loaded passes reached fields member answers
    cases methods.symm.trans same
    rw [missing] at found
    contradiction

/-- Where a run fails, the failing operation is one that the type rules leave open. -/
theorem Reaches.explains {task : Task} (reached : run.Reaches address task)
    (faults : task.Faults error) : run.Explains task error := by
  have breaks := faults.breaks
  obtain ⟨loaded, spot, passes, corresponds⟩ := reached.exists_spot
  cases corresponds with
  | program => exact absurd breaks (not_breaks_program passes reached)
  | fields blank blankRun passed meets =>
    exact absurd breaks (not_breaks_fields blank blankRun passes reached passed meets)
  | expression types meets => exact explains_expression types meets breaks
  | expressions => cases breaks
  | optional => cases breaks
  | builtin builtin => exact explains_builtin builtin breaks
  | method method rests member admitted meets =>
    exact absurd breaks (not_breaks_method method rests member admitted meets)
  | statements => cases breaks
  | block => cases breaks
  | statement accepts apart meets => exact explains_statement accepts apart meets breaks
  | items accepts whole meets => exact absurd breaks (not_breaks_items accepts whole meets)
  | rounds accepts meets => exact explains_rounds accepts meets breaks

end AcceptedRun

end LetDef
