import LetDef.Proofs.Agreement.Constructs
import LetDef.Proofs.Agreement.Termination
import LetDef.Proofs.Java.Calls
import LetDef.Proofs.Run.Breakage
import LetDef.Proofs.Run.Truncation

/-!
# The builtins of a program

The list of builtins that comes with the Java text of a program is exact: a builtin is in it if and
only if the slot of some call holds it, and if and only if the Java text calls it
(`mem_builtins_iff_called_iff_rendered`). Whatever a run calls besides methods stands in a slot
(`AcceptedRun.Reaches.exists_builtin`), and without a call of a builtin there is no output
(`Program.remains_of_silent`).
-/
namespace LetDef

section Trees

variable {function : Signature}

/-- The function is in the slot of a call without a receiver that stands among the expressions. -/
def Signature.CalledAmong (function : Signature) (values : List Expr) : Prop :=
  ∃ name arguments type, .call name arguments (some function) type ∈ values

/-- A function is called among the first expressions or among the others. -/
theorem Signature.calledAmong_append {one two : List Expr} :
    function.CalledAmong (one ++ two) ↔ function.CalledAmong one ∨ function.CalledAmong two := by
  simp only [CalledAmong, List.mem_append, exists_or]

/-- An expression that is no call without a receiver calls what the others do. -/
theorem Signature.calledAmong_cons {value : Expr} {values : List Expr}
    (other : ∀ name arguments type, .call name arguments (some function) type ≠ value) :
    function.CalledAmong (value :: values) ↔ function.CalledAmong values := by
  simp only [CalledAmong, List.mem_cons, other, false_or]

open Signature (calledAmong_append calledAmong_cons)

mutual

/-- The calls that are listed are those within the expression. -/
theorem Expr.mem_called (value : Expr) :
    function ∈ value.called ↔ function.CalledAmong value.within := by
  cases value with
  | literal | «variable» => simp [Expr.called, Expr.within, Signature.CalledAmong]
  | group inner =>
    rw [Expr.within, calledAmong_cons (by simp), ← Expr.mem_called inner, Expr.called]
  | binary operator left right =>
    rw [Expr.within, calledAmong_cons (by simp), calledAmong_append, ← Expr.mem_called left,
      ← Expr.mem_called right, Expr.called, List.mem_append]
  | member receiver =>
    rw [Expr.within, calledAmong_cons (by simp), ← Expr.mem_called receiver, Expr.called]
  | call name arguments slot type =>
    have first : function.CalledAmong [.call name arguments slot type] ↔ slot = some function := by
      simp [Signature.CalledAmong, eq_comm]
    rw [Expr.within, ← List.singleton_append, calledAmong_append, first,
      ← Expr.mem_calledInAll arguments, Expr.called, List.mem_append, Option.mem_toList, or_comm]
  | memberCall receiver name arguments =>
    rw [Expr.within, calledAmong_cons (by simp), calledAmong_append, ← Expr.mem_called receiver,
      ← Expr.mem_calledInAll arguments, Expr.called, List.mem_append]

/-- The calls that are listed are those within the expressions. -/
theorem Expr.mem_calledInAll (values : List Expr) :
    function ∈ Expr.calledInAll values ↔ function.CalledAmong (Expr.withinAll values) := by
  cases values with
  | nil => simp [Expr.calledInAll, Expr.withinAll, Signature.CalledAmong]
  | cons first rest =>
    rw [Expr.withinAll, calledAmong_append, ← Expr.mem_called first, ← Expr.mem_calledInAll rest,
      Expr.calledInAll, List.mem_append]

end

/-- The calls in an optional expression are those in the one that it is. -/
theorem Expr.calledInOption_eq (value : Option Expr) :
    Expr.calledInOption value = value.toList.flatMap Expr.called := by
  cases value <;> simp [Expr.calledInOption]

mutual

/-- The calls in a statement are those in its expressions. -/
theorem Stmt.called_eq (statement : Stmt) :
    statement.called = statement.outermost.flatMap Expr.called := by
  cases statement with
  | expression | result => simp [Stmt.called, Stmt.outermost]
  | declaration declared => exact Expr.calledInOption_eq declared.value
  | assignment => simp [Stmt.called, Stmt.outermost]
  | conditional condition accepted rejected =>
    rw [Stmt.called, Stmt.calledInAll_eq accepted, Stmt.calledInAll_eq rejected, Stmt.outermost,
      List.flatMap_cons, List.flatMap_append, List.append_assoc]
  | iteration name value body =>
    rw [Stmt.called, Stmt.calledInAll_eq body, Stmt.outermost, List.flatMap_cons]
  | repetition condition body =>
    rw [Stmt.called, Stmt.calledInAll_eq body, Stmt.outermost, List.flatMap_cons]

/-- The calls in statements are those in their expressions. -/
theorem Stmt.calledInAll_eq (statements : List Stmt) :
    Stmt.calledInAll statements = (Stmt.outermostAll statements).flatMap Expr.called := by
  cases statements with
  | nil => rfl
  | cons first rest =>
    rw [Stmt.calledInAll, Stmt.called_eq first, Stmt.calledInAll_eq rest, Stmt.outermostAll,
      List.flatMap_append]

end

/-- The calls in a program are those among its expressions. -/
theorem Program.mem_called {program : Program} :
    function ∈ program.called ↔ function.CalledAmong program.expressions := by
  have parts : program.called = program.outermost.flatMap Expr.called := by
    simp only [Program.called, Program.outermost, List.flatMap_append, List.flatMap_assoc,
      Expr.calledInOption_eq, Stmt.calledInAll_eq]
  rw [parts, List.mem_flatMap]
  simp only [Expr.mem_called, Signature.CalledAmong, Program.expressions, List.mem_flatMap]
  constructor
  · rintro ⟨value, outermost, name, arguments, type, inside⟩
    exact ⟨name, arguments, type, value, outermost, inside⟩
  · rintro ⟨name, arguments, type, value, outermost, inside⟩
    exact ⟨value, outermost, name, arguments, type, inside⟩

end Trees

/-- The builtins of a program whose calls are known are those that its slots hold. -/
theorem Program.Known.mem_usedBy {program : Program} (known : program.Known) (builtin : Builtin) :
    builtin ∈ Builtin.usedBy program ↔
      ∃ node ∈ program.expressions, node.function? = some builtin.signature := by
  have listed : builtin ∈ Builtin.all := by
    cases builtin
    decide
  rw [Builtin.usedBy, List.mem_filter, and_iff_right listed, List.any_eq_true]
  constructor
  · rintro ⟨function, called, described⟩
    obtain ⟨name, arguments, type, member⟩ := Program.mem_called.mp called
    obtain ⟨_, same, known⟩ := known.calls _ member
    obtain rfl := Option.some.inj same
    obtain rfl := (known.describes_iff builtin).mp described
    exact ⟨_, member, rfl⟩
  · rintro ⟨node, member, filled⟩
    have found := known.calls node member
    cases node with
    | call name arguments slot type =>
      obtain rfl : slot = some builtin.signature := filled
      obtain ⟨_, same, known⟩ := found
      obtain rfl := Option.some.inj same
      exact ⟨_, Program.mem_called.mpr ⟨name, arguments, type, member⟩,
        (known.describes_iff builtin).mpr rfl⟩
    | memberCall => exact found.elim
    | literal | group | binary | «variable» | member => cases filled

namespace AcceptedRun

variable {run : AcceptedRun} {address : Address}

/-- What the run of an accepted program calls first is a method. -/
theorem Reaches.main_ne_native {fuel : Nat} {whole : Program} {machine between after : Machine}
    {native : HostFunction} (reached : run.Reaches address (.program fuel whole machine))
    (fields : Machine.defineFields fuel whole.fields machine = .done () between)
    (methods : Machine.defineMethods whole.methods between = .done () after) :
    after.findFunction? "main" 0 ≠ some (.native native) := by
  intro found
  obtain ⟨_, _, passes, corresponds⟩ := reached.exists_spot
  cases corresponds with
  | program =>
    obtain ⟨declared, member, answers⟩ := run.accepted.exists_main
    obtain ⟨_, same, _, called⟩ := exists_loaded passes reached fields member answers
    cases same.symm.trans methods
    cases called.symm.trans found

/-- If a run calls a function of the host, then a builtin is in the slot of a call. -/
theorem Reaches.exists_builtin {fuel : Nat} {native : HostFunction} {arguments : List Value}
    {machine : Machine}
    (reached : run.Reaches address (.call fuel (.native native) arguments machine)) :
    ∃ builtin : Builtin, builtin.signature ∈ run.accepted.program.called := by
  generalize arrived : Task.call fuel (.native native) arguments machine = task at reached
  cases reached with
  | start => cases arrived
  | @step earlier task move part before starts =>
    have begun : run.Reaches earlier task := before
    cases starts with
    | main fields methods found =>
      cases arrived
      exact absurd found (begun.main_ne_native fields methods)
    | invocation evaluated found =>
      cases arrived
      obtain ⟨_, _, _, corresponds⟩ := begun.exists_spot
      cases corresponds with
      | expression types meets =>
        obtain ⟨_, _, function, _, typesAll, known, _, rfl, _⟩ :=
          types.call meets.agrees.standing.bare
        obtain ⟨admitted, met⟩ := meets.evaluateAll typesAll evaluated
        rw [← admitted.length_eq] at known
        obtain ⟨callable, resolved, resolves⟩ := met.agrees.exists_callable known
        obtain rfl := Option.some.inj (resolved.symm.trans found)
        have called : function ∈ run.accepted.program.called :=
          Program.mem_called.mpr ⟨_, _, _, begun.mem_expressions⟩
        generalize same : Callable.native native = callable at resolves
        cases resolves with
        | @builtin builtin => exact ⟨builtin, called⟩
        | method | shadowing => cases same
    | memberInvocation =>
      obtain ⟨_, _, _, corresponds⟩ := begun.exists_spot
      cases corresponds with
      | expression types meets =>
        exact absurd types (Analyzer.Types.not_memberCall meets.agrees.standing.bare)
    | _ => cases arrived

end AcceptedRun

namespace Program

variable {program : Program}

/-- No run of the program calls a function of the host. -/
def Silent (program : Program) : Prop :=
  ∀ (fuel : Nat) (limit : Option Nat) (address : Address) (left : Nat) (native : HostFunction)
    (arguments : List Value) (machine : Machine),
    ¬ program.Reaches fuel (.fresh limit) address (.call left (.native native) arguments machine)

/-- Where no function of the host is called, nothing fails to be written. -/
theorem Silent.ne_printFailed (silent : program.Silent) {fuel : Nat} {limit : Option Nat}
    {error : RuntimeError} {after : Machine}
    (failed : Machine.interpret fuel program (.fresh limit) = .failed error after) :
    error ≠ .printFailed := by
  intro printed
  have begun : program.Reaches fuel (.fresh limit) [] (.program fuel program (.fresh limit)) :=
    .start
  obtain ⟨address, task, reached, faults⟩ :=
    Program.Reaches.exists_fault begun (congrArg Outcome.error? failed)
  obtain ⟨_, _, _, _, rfl⟩ := faults.breaks.prints printed
  exact silent _ _ _ _ _ _ _ reached

/-- Where no function of the host is called, the output is within every limit, which changes
nothing. -/
theorem Silent.remains_eq (silent : program.Silent) (fuel cap : Nat) :
    (Machine.interpret fuel program (.fresh (some cap))).remains? =
        (Machine.interpret fuel program (.fresh none)).remains? ∧
      ∀ result bytes, (Machine.interpret fuel program (.fresh none)).remains? =
        some (result, bytes) → bytes.size ≤ cap := by
  have coupled := coupled_interpret program cap fuel
  have sound := @Silent.ne_printFailed program silent fuel (some cap)
  generalize Machine.interpret fuel program (.fresh (some cap)) = limited at coupled sound ⊢
  generalize Machine.interpret fuel program (.fresh none) = whole at coupled ⊢
  cases coupled with
  | done stands =>
    obtain ⟨rfl, within⟩ := stands
    refine ⟨rfl, fun result bytes ended => ?_⟩
    cases ended
    exact within.fits
  | failed stands =>
    obtain ⟨rfl, within⟩ := stands
    refine ⟨rfl, fun result bytes ended => ?_⟩
    cases ended
    exact within.fits
  | exhausted => exact ⟨rfl, fun _ _ ended => nomatch ended⟩
  | parted begun => exact absurd begun.1 (sound rfl)

/-- Where no function of the host is called, there is no output. -/
theorem Silent.eq_empty (silent : program.Silent) {fuel : Nat} {limit : Option Nat}
    {result : Except RuntimeError Value} {bytes : ByteArray}
    (ended : (Machine.interpret fuel program (.fresh limit)).remains? = some (result, bytes)) :
    bytes = .empty := by
  have unlimited : (Machine.interpret fuel program (.fresh none)).remains? =
      some (result, bytes) := by
    cases limit with
    | none => exact ended
    | some cap => exact (silent.remains_eq fuel cap).1.symm.trans ended
  have nothing := (silent.remains_eq fuel 0).2 result bytes unlimited
  exact ByteArray.size_eq_zero_iff.mp (Nat.le_zero.mp nothing)

end Program

/-- An accepted program has no other calls than known ones, and they are written in its Java
text. -/
theorem Acceptance.known (accepted : Acceptance) {text : String}
    (read : Program.ofText text = .ok accepted.source) :
    Java.heads (Java.generate accepted.program) = accepted.program.heads ∧
      accepted.program.Known :=
  accepted.judged.heads_generate (Program.binders_ofText read)

/-- Without builtins among its slots an accepted program is silent. -/
theorem Acceptance.silent (accepted : Acceptance) (known : accepted.program.Known)
    (unused : Builtin.usedBy accepted.program = []) : accepted.program.Silent := by
  intro fuel limit address left native arguments machine reached
  have begun : AcceptedRun.Reaches ⟨accepted, fuel, limit⟩ address
      (.call left (.native native) arguments machine) := reached
  obtain ⟨builtin, called⟩ := begun.exists_builtin
  obtain ⟨name, given, type, member⟩ := Program.mem_called.mp called
  have used := (known.mem_usedBy builtin).mpr ⟨_, member, rfl⟩
  rw [unused] at used
  exact absurd used List.not_mem_nil

/-- The builtins that are returned with the Java text of an accepted program are exact. A builtin is
among them if and only if some call, wherever it stands in the tree, has it in its slot, and if and
only if the Java text has its name in front of a parenthesis, outside of quotes. If there are none,
then no run comes to a call of a function of the host, whether it ends or not, and every run that
ends leaves the output empty, with or without a limit. -/
theorem mem_builtins_iff_called_iff_rendered {text : String} {compilation : Compilation}
    (compiled : Compilation.ofText text = .ok compilation) :
    ∃ program, Program.ofTextAnalyzed text = .ok program ∧ compilation = program.compile ∧
      (∀ builtin : Builtin,
        (builtin ∈ compilation.builtins ↔
          ∃ node ∈ program.expressions, node.function? = some builtin.signature) ∧
        (builtin ∈ compilation.builtins ↔
          builtin.renderName ∈ Java.heads compilation.java)) ∧
      (compilation.builtins = [] → program.Silent ∧
        ∀ fuel limit result bytes,
          (Machine.interpret fuel program (.fresh limit)).remains? = some (result, bytes) →
          bytes = .empty) := by
  rw [Compilation.ofText] at compiled
  cases analyzed : Program.ofTextAnalyzed text with
  | error error =>
    rw [analyzed] at compiled
    cases compiled
  | ok program =>
    rw [analyzed] at compiled
    cases compiled
    obtain ⟨accepted, read, rfl⟩ := Acceptance.exists_of_ofTextAnalyzed analyzed
    obtain ⟨written, known⟩ := accepted.known read
    refine ⟨accepted.program, rfl, rfl, fun builtin => ?_, fun unused => ?_⟩
    · have used := known.mem_usedBy builtin
      refine ⟨used, used.trans ?_⟩
      rw [← known.mem_heads_iff builtin, ← written]
      rfl
    · have silent := accepted.silent known unused
      exact ⟨silent, fun _ _ _ _ ended => silent.eq_empty ended⟩

/-- A program that calls no builtin and has the name of one in Java in a text. -/
def quotedText : String :=
  "LET s: String = \"System.out.println(1)\"; DEF f(x: Integer) DO LET t = s; END " ++
    "DEF main(): Integer DO f(1); RETURN 0; END"

/-- The name of `print` in Java in a text of the program is no call: the builtins are none, and so
the runs write nothing. -/
theorem mem_builtins_iff_called_iff_rendered_quoted :
    ∃ (compilation : Compilation) (program : Program),
      Compilation.ofText quotedText = .ok compilation ∧ compilation.builtins = [] ∧
      Builtin.print.renderName ∉ Java.heads compilation.java ∧
      compilation = program.compile ∧ program.Silent := by
  have computed : (Compilation.ofText quotedText).toOption.any (·.builtins = []) := by
    decide +kernel
  obtain ⟨compilation, compiled, none⟩ := exists_ok_of_any computed
  have unused : compilation.builtins = [] := of_decide_eq_true none
  obtain ⟨program, _, same, exact, silent⟩ := mem_builtins_iff_called_iff_rendered compiled
  refine ⟨compilation, program, compiled, unused, fun member => ?_, same, (silent unused).1⟩
  have used := (exact .print).2.mpr member
  rw [unused] at used
  exact absurd used List.not_mem_nil

end LetDef
