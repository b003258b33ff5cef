import LetDef.Proofs.Program.Expressions
import LetDef.Proofs.Program.Grammar

/-!
# Literals in programs

Each literal that stands in a program is written by one of the tokens that the program is derived
from: the token is a keyword for it, or it denotes it (`Grammar.IsProgram.spelled`).
-/
namespace LetDef

/-- The token is a keyword for a value, or it denotes it. -/
def Token.Writes (token : Token) (value : Literal) : Prop :=
  Literal.ofKeyword? token = some value ∨ token.Denotes value

/-- Each literal that stands in the expression is written by one of the tokens. -/
def Expr.Spelled (tokens : List Token) (tree : Expr) : Prop :=
  ∀ value slot, .literal value slot ∈ tree.within → ∃ token ∈ tokens, token.Writes value

namespace Expr

variable {tokens more : List Token} {token : Token} {value : Literal} {tree left right : Expr}
variable {trees : List Expr} {name : String} {operator : BinaryOp}

/-- More tokens spell what some of them do. -/
theorem Spelled.mono (spelled : tree.Spelled tokens) (subset : tokens ⊆ more) :
    tree.Spelled more := by
  intro value slot member
  obtain ⟨token, among, writes⟩ := spelled value slot member
  exact ⟨token, subset among, writes⟩

/-- More tokens spell each of the expressions that some of them do. -/
theorem Spelled.mono_all (spelled : ∀ tree ∈ trees, tree.Spelled tokens) (subset : tokens ⊆ more) :
    ∀ tree ∈ trees, tree.Spelled more := fun tree member => (spelled tree member).mono subset

/-- A literal is spelled by the token that writes it. -/
theorem spelled_literal (writes : token.Writes value) :
    (Expr.literal value none).Spelled [token] := by
  intro other slot member
  rw [within, List.mem_singleton, Expr.literal.injEq] at member
  obtain ⟨rfl, rfl⟩ := member
  exact ⟨token, List.mem_singleton_self token, writes⟩

/-- A name has no literals. -/
theorem spelled_variable : (Expr.variable name none none).Spelled tokens := by
  intro value slot member
  simp [within] at member

/-- A group is spelled as what stands in it. -/
theorem Spelled.group (spelled : tree.Spelled tokens) :
    (Expr.group tree none).Spelled tokens := by
  intro value slot member
  rw [within, List.mem_cons] at member
  rcases member with same | member
  · contradiction
  · exact spelled value slot member

/-- An operator is spelled as its operands. -/
theorem Spelled.binary (first : left.Spelled tokens) (second : right.Spelled tokens) :
    (Expr.binary operator left right none).Spelled tokens := by
  intro value slot member
  rw [within, List.mem_cons, List.mem_append] at member
  rcases member with same | member | member
  · contradiction
  · exact first value slot member
  · exact second value slot member

/-- A member is spelled as its object. -/
theorem Spelled.member (spelled : tree.Spelled tokens) :
    (Expr.member tree name none none).Spelled tokens := by
  intro value slot inside
  rw [within, List.mem_cons] at inside
  rcases inside with same | inside
  · contradiction
  · exact spelled value slot inside

/-- What stands in expressions is spelled if each of them is. -/
theorem exists_writes_of_mem_withinAll (spelled : ∀ tree ∈ trees, tree.Spelled tokens)
    {slot : Option Ty} (member : .literal value slot ∈ withinAll trees) :
    ∃ token ∈ tokens, token.Writes value := by
  obtain ⟨tree, among, inside⟩ := mem_withinAll.mp member
  exact spelled tree among value slot inside

/-- A call is spelled as its arguments. -/
theorem Spelled.call (spelled : ∀ tree ∈ trees, tree.Spelled tokens) :
    (Expr.call name trees none none).Spelled tokens := by
  intro value slot member
  rw [within, List.mem_cons] at member
  rcases member with same | member
  · contradiction
  · exact exists_writes_of_mem_withinAll spelled member

/-- A call of a method is spelled as its object and its arguments. -/
theorem Spelled.memberCall (object : tree.Spelled tokens)
    (spelled : ∀ tree ∈ trees, tree.Spelled tokens) :
    (Expr.memberCall tree name trees none none).Spelled tokens := by
  intro value slot member
  rw [within, List.mem_cons, List.mem_append] at member
  rcases member with same | member | member
  · contradiction
  · exact object value slot member
  · exact exists_writes_of_mem_withinAll spelled member

end Expr

namespace Grammar

variable {permitted : String → Prop}

mutual

/-- A chain is spelled by its tokens. -/
theorem Chain.spelled : ∀ {level : Level} {tokens : List Token} {tree : Expr},
    Chain permitted level tokens tree → tree.Spelled tokens
  | _, _, _, .operand only => only.spelled
  | _, _, _, .operator first _ _ second =>
    .binary (first.spelled.mono (by simp)) (second.spelled.mono (by simp))

/-- An operand is spelled by its tokens. -/
theorem Operand.spelled : ∀ {level : Level} {tokens : List Token} {tree : Expr},
    Operand permitted level tokens tree → tree.Spelled tokens
  | _, _, _, .chain _ inner => inner.spelled
  | _, _, _, .selection _ inner => inner.spelled

/-- A selection is spelled by its tokens. -/
theorem Selection.spelled : ∀ {tokens : List Token} {tree : Expr},
    Selection permitted tokens tree → tree.Spelled tokens
  | _, _, .primary only => only.spelled
  | _, _, .member object _ _ => .member (object.spelled.mono (by simp))
  | _, _, .memberCall object _ _ _ arguments =>
    .memberCall (object.spelled.mono (by simp))
      (Expr.Spelled.mono_all arguments.spelled fun _ member => by simp [member])

/-- A primary expression is spelled by its tokens. -/
theorem Primary.spelled : ∀ {tokens : List Token} {tree : Expr},
    Primary permitted tokens tree → tree.Spelled tokens
  | _, _, .nil written =>
    Expr.spelled_literal (.inl (by simp [Literal.ofKeyword?, Token.reads, written]))
  | _, _, .true written =>
    Expr.spelled_literal (.inl (by simp [Literal.ofKeyword?, Token.reads, written]))
  | _, _, .false written =>
    Expr.spelled_literal (.inl (by simp [Literal.ofKeyword?, Token.reads, written]))
  | _, _, .literal denotes => Expr.spelled_literal (.inr denotes)
  | _, _, .name _ => Expr.spelled_variable
  | _, _, .call _ _ arguments => .call (Expr.Spelled.mono_all arguments.spelled (by simp))
  | _, _, .group _ inner _ => .group (inner.spelled.mono (by simp))

/-- Arguments are spelled by their tokens. -/
theorem Arguments.spelled : ∀ {tokens : List Token} {trees : List Expr},
    Arguments permitted tokens trees → ∀ tree ∈ trees, tree.Spelled tokens
  | _, _, .none _ => fun _ member => nomatch member
  | _, _, .some listed _ => Expr.Spelled.mono_all listed.spelled (by simp)

/-- One argument or more are spelled by their tokens. -/
theorem ArgumentList.spelled : ∀ {tokens : List Token} {trees : List Expr},
    ArgumentList permitted tokens trees → ∀ tree ∈ trees, tree.Spelled tokens
  | _, _, .one first => List.forall_mem_singleton.mpr first.spelled
  | _, _, .more first _ rest => List.forall_mem_cons.mpr
    ⟨first.spelled.mono (by simp), Expr.Spelled.mono_all rest.spelled (by simp)⟩

end

/-- An optional expression is spelled by its tokens. -/
theorem Initial.spelled {tokens : List Token} {initial : Option Expr}
    (derives : Initial permitted tokens initial) :
    ∀ tree ∈ initial.toList, tree.Spelled tokens := by
  cases derives with
  | none => exact fun _ member => nomatch member
  | some _ inner => exact List.forall_mem_singleton.mpr (inner.spelled.mono (by simp))

mutual

/-- The expressions of a statement are spelled by its tokens. -/
theorem Statement.spelled : ∀ {tokens : List Token} {statement : Stmt},
    Statement permitted tokens statement → ∀ tree ∈ statement.outermost, tree.Spelled tokens
  | _, _, .declaration _ _ _ initial _ =>
    Expr.Spelled.mono_all initial.spelled fun _ member => by simp [member]
  | _, _, .conditional _ test _ body _ => by
    rw [Stmt.outermost, Stmt.outermostAll, List.append_nil, List.forall_mem_cons]
    exact ⟨test.spelled.mono fun _ member => by simp [member],
      Expr.Spelled.mono_all body.spelled fun _ member => by simp [member]⟩
  | _, _, .alternative _ test _ body _ alternative _ => by
    rw [Stmt.outermost, List.forall_mem_cons, List.forall_mem_append]
    exact ⟨test.spelled.mono fun _ member => by simp [member],
      Expr.Spelled.mono_all body.spelled fun _ member => by simp [member],
      Expr.Spelled.mono_all alternative.spelled fun _ member => by simp [member]⟩
  | _, _, .iteration _ _ _ loop _ inner _ => by
    rw [Stmt.outermost, List.forall_mem_cons]
    exact ⟨loop.spelled.mono fun _ member => by simp [member],
      Expr.Spelled.mono_all inner.spelled fun _ member => by simp [member]⟩
  | _, _, .repetition _ test _ inner _ => by
    rw [Stmt.outermost, List.forall_mem_cons]
    exact ⟨test.spelled.mono fun _ member => by simp [member],
      Expr.Spelled.mono_all inner.spelled fun _ member => by simp [member]⟩
  | _, _, .result _ inner _ =>
    List.forall_mem_singleton.mpr (inner.spelled.mono fun _ member => by simp [member])
  | _, _, .assignment goal _ inner _ => by
    rw [Stmt.outermost, List.forall_mem_cons, List.forall_mem_singleton]
    exact ⟨goal.spelled.mono fun _ member => by simp [member],
      inner.spelled.mono fun _ member => by simp [member]⟩
  | _, _, .expression inner _ =>
    List.forall_mem_singleton.mpr (inner.spelled.mono fun _ member => by simp [member])

/-- The expressions of a body are spelled by its tokens. -/
theorem Block.spelled : ∀ {tokens : List Token} {statements : List Stmt},
    Block permitted tokens statements →
      ∀ tree ∈ Stmt.outermostAll statements, tree.Spelled tokens
  | _, _, .nil => fun _ member => nomatch member
  | _, _, .blank _ later => Expr.Spelled.mono_all later.spelled fun _ member => by simp [member]
  | _, _, .cons first rest => by
    rw [Stmt.outermostAll, List.forall_mem_append]
    exact ⟨Expr.Spelled.mono_all first.spelled fun _ member => by simp [member],
      Expr.Spelled.mono_all rest.spelled fun _ member => by simp [member]⟩

end

/-- The expressions of constructs in a row are spelled by their tokens, if those of each are. -/
theorem Many.spelled {α : Type} {one : List Token → α → Prop} {tokens : List Token}
    {found : List α} {trees : α → List Expr}
    (each : ∀ {tokens value}, one tokens value → ∀ tree ∈ trees value, tree.Spelled tokens)
    (derives : Many one tokens found) : ∀ tree ∈ found.flatMap trees, tree.Spelled tokens := by
  induction derives with
  | nil => exact fun _ member => nomatch member
  | cons first _ ih =>
    rw [List.flatMap_cons, List.forall_mem_append]
    exact ⟨Expr.Spelled.mono_all (each first) (List.subset_append_left _ _),
      Expr.Spelled.mono_all ih (List.subset_append_right _ _)⟩

/-- The expressions of a program are spelled by its tokens. -/
theorem IsProgram.spelled {tokens : List Token} {program : Program}
    (derives : IsProgram permitted tokens program) :
    ∀ tree ∈ program.outermost, tree.Spelled tokens := by
  cases derives with
  | mk fields methods =>
    rw [Program.outermost, List.forall_mem_append]
    constructor
    · refine Expr.Spelled.mono_all (fields.spelled fun field => ?_) (List.subset_append_left _ _)
      cases field with
      | mk _ _ _ _ initial _ =>
        exact Expr.Spelled.mono_all initial.spelled fun _ member => by simp [member]
    · refine Expr.Spelled.mono_all (methods.spelled fun method => ?_) (List.subset_append_right _ _)
      cases method with
      | mk _ _ _ _ _ _ inner _ =>
        exact Expr.Spelled.mono_all inner.spelled fun _ member => by simp [member]

end Grammar

end LetDef
