import LetDef.Proofs.Java.Emission
import LetDef.Proofs.Java.Grammar
import LetDef.Proofs.Program.Levels
import LetDef.Proofs.Typing.Admission
import LetDef.Proofs.Typing.Expressions

/-!
# How Java nests the operators of a program

Java binds the operators of a tighter level more strongly. Within a level it differs twice: it binds
an order more strongly than an equation, and `&&` more strongly than `||`. The first does not
matter, since no operand of a comparison is one (`Expr.Typed.not_isComparison`). The second does:
where `AND` has an `OR` on its left, Java joins the right operand of the `OR` to the `AND`. Java
reads an expression of a compiled program as the program has it exactly where there is no such `AND`
(`java_reads_tree_iff_not_mixes`).
-/
namespace LetDef

/-- The operator of the expression is `OR`. -/
def Expr.isOr : Expr → Bool
  | .binary .or _ _ _ => true
  | _ => false

/-- Among the operators that the expression is read from, some `AND` has an `OR` as its left
operand, without a group around it. -/
def Expr.mixes : Expr → Bool
  | .group inner _ => inner.mixes
  | .binary operator left right _ =>
    operator = .and && left.isOr || left.mixes || right.mixes
  | .member receiver _ _ _ | .memberCall receiver _ _ _ _ => receiver.mixes
  | _ => false

/-- The left operand of a typed comparison is not one itself. -/
theorem Expr.Typed.not_isComparison {operator inner : BinaryOp} {left right first second : Expr}
    {type innerType : Option Ty} (typed : (Expr.binary operator left right type).Typed)
    (compares : operator.isComparison) (same : left = .binary inner first second innerType) :
    inner.isComparison = false := by
  obtain ⟨analyzer, source, found, bare, types⟩ := typed
  obtain ⟨_, _, leftType, rightType, _, typesLeft, _, suits, _⟩ := types.binary bare
  obtain ⟨_, _, primitive⟩ := Typing.binaryType_of_isComparison compares suits
  subst same
  obtain ⟨_, _, _, _, _, _, _, suitsInner, _⟩ := typesLeft.binary bare
  rw [Bool.eq_false_iff]
  intro comparesInner
  obtain ⟨boolean, _, _⟩ := Typing.binaryType_of_isComparison comparesInner suitsInner
  subst boolean
  contradiction

namespace Java

/-- How strongly the operator binds that divides an expression. -/
def bond : Expr → Nat
  | .binary operator _ _ _ => strength operator
  | _ => strongest

/-- Java binds the operators of tighter levels more strongly. -/
theorem strength_lt_of_rank_lt {operator tighter : BinaryOp}
    (tight : tighter.level.rank < operator.level.rank) : strength operator < strength tighter := by
  revert tight
  cases operator <;> cases tighter <;> decide

/-- Within a level, Java binds no operator more strongly than one on its left, unless the level is
that of the comparisons, or it is an `AND` and the other an `OR`. -/
theorem strength_le_iff {operator other : BinaryOp} (same : other.level.rank = operator.level.rank)
    (neither : operator.isComparison → other.isComparison = false) :
    strength operator ≤ strength other ↔ ¬ (operator = .and ∧ other = .or) := by
  revert same neither
  cases operator <;> cases other <;> decide

/-- How a tree stands in a place is decided by the operator that divides it. -/
theorem fits_tree_iff (value : Expr) {least : Nat} (weak : least ≤ strongest) :
    (tree value).Fits least ↔ least ≤ bond value ∧ (tree value).Fits 0 := by
  cases value with
  | binary operator left right type => simp [tree, Tree.Fits, bond]
  | _ => simp [tree, Tree.Fits, bond, weak]

/-- A right operand stands as Java reads it where its own operators do. -/
theorem lt_bond_right {operator : BinaryOp} {left right : Expr} {type : Option Ty}
    (levelled : (Expr.binary operator left right type).Levelled) :
    strength operator < bond right := by
  have tight := levelled.2
  cases right with
  | binary inner first second innerType =>
    exact strength_lt_of_rank_lt tight
  | _ => exact strength_lt_strongest operator

/-- A left operand stands as Java reads it, unless it is an `OR` before an `AND`. -/
theorem le_bond_left_iff {operator : BinaryOp} {left right : Expr} {type : Option Ty}
    (levelled : (Expr.binary operator left right type).Levelled)
    (typed : (Expr.binary operator left right type).Typed) :
    strength operator ≤ bond left ↔ (operator = .and && left.isOr) = false := by
  have tight := levelled.1
  cases left with
  | binary inner first second innerType =>
    have rank : inner.level.rank ≤ operator.level.rank := Nat.le_of_succ_le_succ tight
    have mixed : (operator = .and && (Expr.binary inner first second innerType).isOr) = false ↔
        ¬ (operator = .and ∧ inner = .or) := by
      cases inner <;> simp [Expr.isOr]
    rw [mixed, bond]
    rcases Nat.lt_or_eq_of_le rank with tighter | same
    · have stronger := strength_lt_of_rank_lt tighter
      refine iff_of_true (Nat.le_of_lt stronger) ?_
      rintro ⟨rfl, rfl⟩
      exact absurd tighter (Nat.lt_irrefl _)
    · exact strength_le_iff same fun compares => typed.not_isComparison compares rfl
  | _ =>
    have weak := Nat.le_of_lt (strength_lt_strongest operator)
    simp [bond, weak, Expr.isOr]

/-- An object stands as Java reads it where its own operators do. -/
theorem fits_receiver_iff {receiver : Expr} (tight : receiver.looseness = 0) :
    (tree receiver).Fits strongest ↔ (tree receiver).Fits 0 := by
  have strong : bond receiver = strongest := by
    cases receiver with
    | binary operator left right type => contradiction
    | _ => rfl
  rw [fits_tree_iff receiver (Nat.le_refl strongest), strong]
  simp

/-- Java reads an expression as the program has it exactly if no `AND` in it has an `OR` as its left
operand. -/
theorem fits_iff (value : Expr) (levelled : ∀ part ∈ value.within, part.Levelled)
    (typed : ∀ part ∈ value.within, part.Typed) :
    (tree value).Fits 0 ↔ value.mixes = false := by
  have whole := levelled value value.mem_within
  cases value with
  | group inner type =>
    rw [Expr.within, List.forall_mem_cons] at levelled typed
    exact fits_iff inner levelled.2 typed.2
  | binary operator left right type =>
    have wholeTyped := typed _ (Expr.mem_within _)
    rw [Expr.within, List.forall_mem_cons, List.forall_mem_append] at levelled typed
    have first := fits_iff left levelled.2.1 typed.2.1
    have second := fits_iff right levelled.2.2 typed.2.2
    have strong := strength_lt_strongest operator
    calc (tree (.binary operator left right type)).Fits 0
      _ ↔ (tree left).Fits (strength operator) ∧ (tree right).Fits (strength operator + 1) := by
        simp [tree, Tree.Fits]
      _ ↔ (strength operator ≤ bond left ∧ (tree left).Fits 0) ∧
          (strength operator < bond right ∧ (tree right).Fits 0) := by
        rw [fits_tree_iff left (Nat.le_of_lt strong), fits_tree_iff right strong]
        rfl
      _ ↔ (operator = .and && left.isOr) = false ∧ left.mixes = false ∧ right.mixes = false := by
        rw [le_bond_left_iff whole wholeTyped, first, second]
        simp [lt_bond_right whole, and_assoc]
      _ ↔ (Expr.binary operator left right type).mixes = false := by
        simp [Expr.mixes, and_assoc]
  | member receiver name slot type =>
    rw [Expr.within, List.forall_mem_cons] at levelled typed
    exact (fits_receiver_iff whole).trans (fits_iff receiver levelled.2 typed.2)
  | memberCall receiver name arguments slot type =>
    rw [Expr.within, List.forall_mem_cons, List.forall_mem_append] at levelled typed
    exact (fits_receiver_iff whole).trans (fits_iff receiver levelled.2.1 typed.2.1)
  | _ => simp [tree, Tree.Fits, Expr.mixes]

end Java

/-- The expression is an `OR` of literals before an `AND` with another one. -/
def Expr.mixesLiterals : Expr → Bool
  | .binary .and (.binary .or (.literal _ _) (.literal _ _) _) (.literal _ _) _ => true
  | _ => false

/-- Java joins the second and the third literal first. -/
theorem Java.exists_misread {value : Expr} (mixes : value.mixesLiterals) :
    ∃ found, Java.Reads 0 (Java.pieces value) found ∧ found ≠ Java.tree value := by
  unfold Expr.mixesLiterals at mixes
  split at mixes
  next first firstType second secondType innerType third thirdType type =>
    let one : Java.Tree := .operand (.literal first firstType)
    let two : Java.Tree := .operand (.literal second secondType)
    let three : Java.Tree := .operand (.literal third thirdType)
    refine ⟨.binary .or one (.binary .and two three), Java.reads_iff.mpr ⟨rfl, ?_⟩, ?_⟩
    · simp [one, two, three, Java.Tree.Fits, Java.strength]
    · simp [Java.tree]
  next => contradiction

/-- A text that is compiled is the text of an accepted program, which is the one that is run and
written in Java. The pieces of each of its expressions are a part of the Java text, and Java reads
them as the expression is, and in no other way, exactly if no `AND` among the operators of the
expression has an `OR` as its left operand, without a group around it. -/
theorem java_reads_tree_iff_not_mixes {text : String} {compilation : Compilation}
    (compiled : Compilation.ofText text = .ok compilation) :
    ∃ source program, Program.ofText text = .ok source ∧
      Program.ofTextAnalyzed text = .ok program ∧ program.erase = source.erase ∧
      ∀ value ∈ program.expressions,
        Java.Occurs (String.join ((Java.pieces value).map Java.Piece.text)) compilation.java ∧
        ((∀ found, Java.Reads 0 (Java.pieces value) found ↔ found = Java.tree value) ↔
          value.mixes = false) := by
  cases analyzed : Program.ofTextAnalyzed text with
  | error error =>
    rw [Compilation.ofText, analyzed] at compiled
    contradiction
  | ok program =>
    rw [Compilation.ofText, analyzed] at compiled
    injection compiled with same
    subst same
    obtain ⟨accepted, read, rfl⟩ := Acceptance.exists_of_ofTextAnalyzed analyzed
    have kept := accepted.erase_eq
    have tight := Program.levelled_of_erase_eq kept.symm (Program.levelled_of_ofText read)
    refine ⟨accepted.source, accepted.program, read, rfl, kept, fun value member => ?_⟩
    have levelled : ∀ part ∈ value.within, part.Levelled := fun part inside =>
      tight part (Program.mem_expressions_of_within member inside)
    have typed : ∀ part ∈ value.within, part.Typed := fun part inside =>
      accepted.typed part (Program.mem_expressions_of_within member inside)
    constructor
    · rw [Java.join_pieces]
      exact Java.Occurs.generate member
    · rw [Java.reads_tree_iff, Java.fits_iff value levelled typed]

/-- A program with operators of all levels and without `AND`. -/
def chainedText : String :=
  "DEF main(): Integer DO IF 9 - 4 - 3 * 2 < 1 OR 1 == 2 DO RETURN 1; END RETURN 0; END"

/-- In a program without `AND`, Java reads every expression as the program has it. -/
theorem java_reads_tree_iff_not_mixes_chain :
    ∃ program, Program.ofTextAnalyzed chainedText = .ok program ∧
      ∀ value ∈ program.expressions, ∀ found,
        Java.Reads 0 (Java.pieces value) found ↔ found = Java.tree value := by
  have computed : (Program.ofTextAnalyzed chainedText).toOption.any fun program =>
      program.expressions.all (!·.mixes) := by decide +kernel
  obtain ⟨program, analyzed, passed⟩ := exists_ok_of_any computed
  refine ⟨program, analyzed, fun value member => ?_⟩
  have compiled : Compilation.ofText chainedText = .ok program.compile := by
    rw [Compilation.ofText, analyzed]
    rfl
  obtain ⟨_, found, _, same, _, reads⟩ := java_reads_tree_iff_not_mixes compiled
  obtain rfl : program = found := by
    injection analyzed.symm.trans same
  have unmixed := List.all_eq_true.mp passed value member
  exact (reads value member).2.mpr (by simpa using unmixed)

/-- A program with an `OR` to the left of an `AND`. -/
def mixedText : String :=
  "DEF main(): Integer DO IF TRUE OR TRUE AND FALSE DO RETURN 1; END RETURN 0; END"

/-- Java reads a condition of a compiled program in another way than the program has it. -/
theorem java_reads_tree_iff_not_mixes_or_and :
    ∃ program, Program.ofTextAnalyzed mixedText = .ok program ∧
      ∃ value ∈ program.expressions, ∃ found, Java.Reads 0 (Java.pieces value) found ∧
        found ≠ Java.tree value := by
  have computed : (Program.ofTextAnalyzed mixedText).toOption.any fun program =>
      program.expressions.any Expr.mixesLiterals := by decide +kernel
  obtain ⟨program, analyzed, passed⟩ := exists_ok_of_any computed
  obtain ⟨value, member, mixes⟩ := List.any_eq_true.mp passed
  obtain ⟨found, read, other⟩ := Java.exists_misread mixes
  exact ⟨program, analyzed, value, member, found, read, other⟩

end LetDef
