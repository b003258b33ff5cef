import LetDef.Proofs.Agreement.Constructs
import LetDef.Proofs.Decimal.Scales
import LetDef.Proofs.Java.Relexing
import LetDef.Proofs.Run.Values

/-!
# The scales of a run

A run makes decimals of literals, whose places have been counted when the text was read, and of
other decimals. Sums, differences and quotients keep within the scales of their operands, and
builtins make no decimals. So every decimal of a run can be stored with its scale, unless the run
multiplies two that can be stored and whose product cannot (`stores_iff_products_fit`). Products are
exact here, whatever their scale, so that such a product is told from others; a loop comes to it in
few rounds, also with zeros (`stores_iff_products_fit_squares`).
-/
namespace LetDef

/-- Writing changes no field of an object. -/
theorem Host.fields_print (host : Host) (arguments : List Value) :
    (host.print arguments).2.fields = host.fields := by
  induction arguments generalizing host with
  | nil => rfl
  | cons first rest ih =>
    rw [print]
    split
    · exact ih _
    · rfl

/-- The value of a literal that a token writes can be stored. -/
theorem Literal.storable_of_writes {token : Token} {value : Literal} (writes : token.Writes value) :
    (Value.ofLiteral value).Storable := by
  cases value with
  | decimal number => exact Value.storable_decimal.mpr (scale_of_writes writes).2
  | _ => exact Value.storable_of_eq_nil rfl

/-- Each literal of an accepted program is written by a token of its text. -/
theorem Acceptance.exists_writes (accepted : Acceptance) {text : String}
    (read : Program.ofText text = .ok accepted.source) {value : Literal} {slot : Option Ty}
    (member : .literal value slot ∈ accepted.program.expressions) :
    ∃ token : Token, token.Writes value := by
  have bare : (Expr.literal value slot).erase ∈ accepted.source.erase.expressions := by
    rw [← accepted.erase_eq, Program.expressions_erase]
    exact List.mem_map_of_mem member
  rw [Program.expressions_erase] at bare
  obtain ⟨tree, source, same⟩ := List.mem_map.mp bare
  cases tree with
  | literal =>
    cases same
    exact Program.exists_writes read source
  | _ => cases same

namespace Program

/-- Every value of the run, in each of its states and however it ends, can be stored with the scales
of its decimals. -/
def Stores (program : Program) (fuel : Nat) (machine : Machine) : Prop :=
  ∀ address task, program.Reaches fuel machine address task →
    task.Begins Value.Storable ∧ task.Ends Value.Storable

/-- The run comes to a product of these two decimals. -/
inductive Multiplies (program : Program) (fuel : Nat) (machine : Machine) (left right : Decimal) :
    Prop where
  | product {address one other slot rest before between after}
    (reached : program.Reaches fuel machine address
      (.expression (rest + 1) (.binary .mul one other slot) before))
    (evaluated : evaluate rest one before = .done (.decimal left) between)
    (evaluatedOther : evaluate rest other between = .done (.decimal right) after) :
    Multiplies program fuel machine left right

variable {program : Program} {fuel : Nat} {machine : Machine}

/-- The scale of a product of a run that stores its values fits. -/
theorem Stores.productFits (stores : program.Stores fuel machine) {left right : Decimal}
    (multiplies : program.Multiplies fuel machine left right) : left.ProductFits right := by
  obtain ⟨reached, evaluated, evaluatedOther⟩ := multiplies
  have ends := (stores _ _ reached).2
  simp only [Task.Ends, evaluate, evaluated, evaluatedOther, Outcome.done_andThen] at ends
  exact Decimal.storable_mul_iff.mp (Value.storable_decimal.mp ends.1)

/-- What a variable is at the end of a run that stores its values can be stored. -/
theorem Stores.content (stores : program.Stores fuel machine) {after : Machine} {name : String}
    {value : Value} (ended : (Machine.interpret fuel program machine).state? = some after)
    (found : after.findVariable? name = some value) : value.Storable := by
  have ends : (Machine.interpret fuel program machine).Yields _ Value.Storable :=
    (stores _ _ .start).2
  exact (ends.state ended).of_findVariable? found

end Program

namespace AcceptedRun

variable {run : AcceptedRun}

/-- Where the scales of all products fit, what a run of an accepted program makes of values that can
be stored can be stored. -/
theorem inheritance_storable {text : String} (read : Program.ofText text = .ok run.accepted.source)
    (products : ∀ left right,
      run.accepted.program.Multiplies run.fuel (.fresh run.limit) left right →
      left.Storable → right.Storable → left.ProductFits right) :
    Inheritance (fun task => ∃ address, run.Reaches address task) Value.Storable where
  closed := by
    rintro task move part ⟨address, reached⟩ starts
    exact ⟨_, reached.step starts⟩
  nil := Value.storable_of_eq_nil rfl
  boolean _ := Value.storable_of_eq_nil rfl
  item stored member := stored.item member
  literal := by
    rintro fuel value slot machine ⟨address, reached⟩
    obtain ⟨token, writes⟩ := run.accepted.exists_writes read reached.mem_expressions
    exact Literal.storable_of_writes writes
  operator := by
    rintro fuel operator left right slot machine first between second after value ⟨_, reached⟩
      evaluated evaluatedRight one other computed
    refine Value.storable_binary one other ?_ computed
    rintro left right rfl rfl rfl
    rw [Value.storable_decimal] at one other
    exact products left right ⟨reached, evaluated, evaluatedRight⟩ one other
  native := by
    rintro fuel native arguments machine result host ⟨address, reached⟩ holds given acted
    obtain ⟨_, _, _, corresponds⟩ := Reaches.exists_spot reached
    generalize same : Callable.native native = callable at corresponds
    cases corresponds with
    | builtin builtin =>
      cases builtin
      cases same
      have fields := machine.host.fields_print arguments
      rw [acted] at fields
      refine ⟨⟨holds.locals, fun id name value held => ?_⟩, fun value printed => ?_⟩
      · exact holds.fields id name value (by rwa [Host.field?, ← fields])
      · obtain rfl := Host.eq_nil_of_print (printed ▸ acted)
        exact Value.storable_of_eq_nil rfl
    | method => cases same

end AcceptedRun

/-- Every value of a run of an accepted program, in each of its states and however the run ends, can
be stored with the scales of its decimals exactly if the run comes to no product of two decimals
that can be stored whose own scale does not fit: literals, sums, differences and quotients never
leave 64 bits. -/
theorem stores_iff_products_fit {text : String} {program : Program}
    (accepted : Program.ofTextAnalyzed text = .ok program) (fuel : Nat) (limit : Option Nat) :
    program.Stores fuel (.fresh limit) ↔
      ∀ left right, program.Multiplies fuel (.fresh limit) left right →
        left.Storable → right.Storable → left.ProductFits right := by
  obtain ⟨acceptance, read, rfl⟩ := Acceptance.exists_of_ofTextAnalyzed accepted
  constructor
  · intro stores left right multiplies _ _
    exact stores.productFits multiplies
  · intro products address task reached
    let run : AcceptedRun := ⟨acceptance, fuel, limit⟩
    have inherits := run.inheritance_storable read products
    exact inherits.reaches ⟨[], .start⟩ (Machine.Holds.fresh _ limit) reached

/-- A program that squares ten, which is kept as one ten. -/
def tensText : String :=
  "LET x: Decimal = 1.0 * 10.0; DEF main(): Integer DO LET i: Integer = 0; WHILE i < 64 DO " ++
    "x = x * x; i = i + 1; END RETURN 0; END"

/-- Ten, which is kept as one ten, is squared until it counts more tens than can be told: after 63
rounds its scale is the least that can be stored, and that of the next product is not. -/
theorem stores_iff_products_fit_tens :
    ∃ program left right, Program.ofTextAnalyzed tensText = .ok program ∧
      program.Multiplies 80 (.fresh none) left right ∧ left.Storable ∧ right.Storable ∧
      ¬ left.ProductFits right := by
  have computed : (Program.ofTextAnalyzed tensText).toOption.any fun program =>
      (Machine.interpret 80 program (.fresh none)).state?.any fun after =>
        (after.findVariable? "x").any fun value => ¬ value.Storable := by decide +kernel
  obtain ⟨program, accepted, passed⟩ := exists_ok_of_any computed
  obtain ⟨after, ended, passed⟩ := (Option.any_eq_true _ _).mp passed
  obtain ⟨value, found, large⟩ := (Option.any_eq_true _ _).mp passed
  by_contra missing
  simp only [not_exists, not_and, not_not] at missing
  have stores : program.Stores 80 (.fresh none) := (stores_iff_products_fit accepted 80 none).mpr
    fun left right multiplies => missing program left right accepted multiplies
  exact of_decide_eq_true large (stores.content ended found)

/-- A program that squares zero with a place. -/
def squaresText : String :=
  "LET x: Decimal = 0.0; DEF main(): Integer DO LET i: Integer = 0; WHILE i < 63 DO " ++
    "x = x * x; i = i + 1; END RETURN 0; END"

/-- Zero with a place is squared until it has more places than can be counted: the program is
accepted, its run ends with its result, and after 63 rounds the scale of the product is the first
one that cannot be stored. -/
theorem stores_iff_products_fit_squares :
    ∃ program after content, Program.ofTextAnalyzed squaresText = .ok program ∧
      (Machine.interpret 80 program (.fresh none)).state? = some after ∧
      after.findVariable? "x" = some content ∧ content.decimals = [⟨0, 2 ^ 63⟩] ∧
      ¬ content.Storable ∧ ¬ program.Stores 80 (.fresh none) := by
  have computed : (Program.ofTextAnalyzed squaresText).toOption.any fun program =>
      (Machine.interpret 80 program (.fresh none)).state?.any fun after =>
        (after.findVariable? "x").any (·.decimals = [⟨0, 2 ^ 63⟩]) := by decide +kernel
  obtain ⟨program, accepted, passed⟩ := exists_ok_of_any computed
  obtain ⟨after, ended, passed⟩ := (Option.any_eq_true _ _).mp passed
  obtain ⟨content, found, listed⟩ := (Option.any_eq_true _ _).mp passed
  have large : ¬ content.Storable := by
    rw [Value.Storable, of_decide_eq_true listed]
    decide +kernel
  exact ⟨program, after, content, accepted, ended, found, of_decide_eq_true listed, large,
    fun stores => large (stores.content ended found)⟩

end LetDef
