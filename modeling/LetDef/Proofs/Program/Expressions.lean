import LetDef.Program.Basic

/-!
# The expressions of a program

`Program.outermost` lists the expressions that do not stand in another one, and `Expr.within` an
expression with all those that stand in it. Emptying the slots of a program empties those of its
expressions.
-/
namespace LetDef

mutual

/-- The expression and all those that stand in it. -/
def Expr.within : Expr → List Expr
  | .literal value type => [.literal value type]
  | .group inner type => .group inner type :: inner.within
  | .binary operator left right type =>
    .binary operator left right type :: (left.within ++ right.within)
  | .variable name slot type => [.variable name slot type]
  | .member receiver name slot type => .member receiver name slot type :: receiver.within
  | .call name arguments slot type => .call name arguments slot type :: Expr.withinAll arguments
  | .memberCall receiver name arguments slot type =>
    .memberCall receiver name arguments slot type ::
      (receiver.within ++ Expr.withinAll arguments)

/-- The expressions and all those that stand in them. -/
def Expr.withinAll : List Expr → List Expr
  | [] => []
  | first :: rest => first.within ++ Expr.withinAll rest

end

mutual

/-- The expressions of a statement that do not stand in another one. -/
def Stmt.outermost : Stmt → List Expr
  | .expression value => [value]
  | .declaration declared => declared.value.toList
  | .assignment target value => [target, value]
  | .conditional condition accepted rejected =>
    condition :: (Stmt.outermostAll accepted ++ Stmt.outermostAll rejected)
  | .iteration _ value body => value :: Stmt.outermostAll body
  | .repetition condition body => condition :: Stmt.outermostAll body
  | .result value => [value]

/-- The expressions of statements that do not stand in another one. -/
def Stmt.outermostAll : List Stmt → List Expr
  | [] => []
  | first :: rest => first.outermost ++ Stmt.outermostAll rest

end

namespace Program

/-- The expressions of a program that do not stand in another one. -/
def outermost (program : Program) : List Expr :=
  program.fields.flatMap (·.value.toList) ++
    program.methods.flatMap fun method => Stmt.outermostAll method.body

/-- All expressions of a program. -/
def expressions (program : Program) : List Expr :=
  program.outermost.flatMap Expr.within

end Program

/-- An expression is the first of those within it. -/
theorem Expr.mem_within (value : Expr) : value ∈ value.within := by
  cases value <;> exact List.mem_cons_self

/-- The expressions within some are those within one of them. -/
theorem Expr.mem_withinAll {values : List Expr} {part : Expr} :
    part ∈ Expr.withinAll values ↔ ∃ value ∈ values, part ∈ value.within := by
  induction values with
  | nil => simp [Expr.withinAll]
  | cons first rest ih => simp [Expr.withinAll, ih]

mutual

/-- What stands in an expression in another one stands in that. -/
theorem Expr.within_trans (value : Expr) {inner part : Expr} (outside : inner ∈ value.within)
    (inside : part ∈ inner.within) : part ∈ value.within := by
  cases value with
  | literal value type =>
    obtain rfl := List.mem_singleton.mp outside
    exact inside
  | group content type =>
    rcases List.mem_cons.mp outside with rfl | outside
    · exact inside
    · exact List.mem_cons_of_mem _ (Expr.within_trans content outside inside)
  | binary operator left right type =>
    rcases List.mem_cons.mp outside with rfl | outside
    · exact inside
    apply List.mem_cons_of_mem
    apply List.mem_append.mpr
    rcases List.mem_append.mp outside with outside | outside
    · exact .inl (Expr.within_trans left outside inside)
    · exact .inr (Expr.within_trans right outside inside)
  | «variable» name slot type =>
    obtain rfl := List.mem_singleton.mp outside
    exact inside
  | member receiver name slot type =>
    rcases List.mem_cons.mp outside with rfl | outside
    · exact inside
    · exact List.mem_cons_of_mem _ (Expr.within_trans receiver outside inside)
  | call name arguments slot type =>
    rcases List.mem_cons.mp outside with rfl | outside
    · exact inside
    · exact List.mem_cons_of_mem _ (Expr.withinAll_trans arguments outside inside)
  | memberCall receiver name arguments slot type =>
    rcases List.mem_cons.mp outside with rfl | outside
    · exact inside
    apply List.mem_cons_of_mem
    apply List.mem_append.mpr
    rcases List.mem_append.mp outside with outside | outside
    · exact .inl (Expr.within_trans receiver outside inside)
    · exact .inr (Expr.withinAll_trans arguments outside inside)

/-- What stands in an expression in one of others stands in these. -/
theorem Expr.withinAll_trans (values : List Expr) {inner part : Expr}
    (outside : inner ∈ Expr.withinAll values) (inside : part ∈ inner.within) :
    part ∈ Expr.withinAll values := by
  cases values with
  | nil => exact absurd outside List.not_mem_nil
  | cons first rest =>
    apply List.mem_append.mpr
    rcases List.mem_append.mp outside with outside | outside
    · exact .inl (Expr.within_trans first outside inside)
    · exact .inr (Expr.withinAll_trans rest outside inside)

end

mutual

/-- Emptying the slots of an expression empties those of the expressions in it. -/
theorem Expr.within_erase (value : Expr) : value.erase.within = value.within.map Expr.erase := by
  cases value with
  | literal value type => rfl
  | group inner type =>
    rw [Expr.erase, Expr.within, Expr.within_erase inner, Expr.within, List.map_cons, Expr.erase]
  | binary operator left right type =>
    rw [Expr.erase, Expr.within, Expr.within_erase left, Expr.within_erase right, Expr.within,
      List.map_cons, List.map_append, Expr.erase]
  | «variable» name slot type => rfl
  | member receiver name slot type =>
    rw [Expr.erase, Expr.within, Expr.within_erase receiver, Expr.within, List.map_cons, Expr.erase]
  | call name arguments slot type =>
    rw [Expr.erase, Expr.within, Expr.withinAll_eraseAll arguments, Expr.within, List.map_cons,
      Expr.erase]
  | memberCall receiver name arguments slot type =>
    rw [Expr.erase, Expr.within, Expr.within_erase receiver, Expr.withinAll_eraseAll arguments,
      Expr.within, List.map_cons, List.map_append, Expr.erase]

/-- Emptying the slots of expressions empties those of the expressions in them. -/
theorem Expr.withinAll_eraseAll (values : List Expr) :
    Expr.withinAll (Expr.eraseAll values) = (Expr.withinAll values).map Expr.erase := by
  cases values with
  | nil => rfl
  | cons first rest =>
    rw [Expr.eraseAll, Expr.withinAll, Expr.within_erase first, Expr.withinAll_eraseAll rest,
      Expr.withinAll, List.map_append]

end

/-- Emptying the slots of an expression that may be missing empties those of the one it is. -/
theorem Option.toList_map_erase (value : Option Expr) :
    (value.map Expr.erase).toList = value.toList.map Expr.erase := by
  cases value <;> rfl

mutual

/-- Emptying the slots of a statement empties those of its expressions. -/
theorem Stmt.outermost_erase (statement : Stmt) :
    statement.erase.outermost = statement.outermost.map Expr.erase := by
  cases statement with
  | expression value => rfl
  | declaration declared => exact Option.toList_map_erase declared.value
  | assignment target value => rfl
  | conditional condition accepted rejected =>
    rw [Stmt.erase, Stmt.outermost, Stmt.outermostAll_eraseAll accepted,
      Stmt.outermostAll_eraseAll rejected, Stmt.outermost, List.map_cons, List.map_append]
  | iteration name value body =>
    rw [Stmt.erase, Stmt.outermost, Stmt.outermostAll_eraseAll body, Stmt.outermost, List.map_cons]
  | repetition condition body =>
    rw [Stmt.erase, Stmt.outermost, Stmt.outermostAll_eraseAll body, Stmt.outermost, List.map_cons]
  | result value => rfl

/-- Emptying the slots of statements empties those of their expressions. -/
theorem Stmt.outermostAll_eraseAll (statements : List Stmt) :
    Stmt.outermostAll (Stmt.eraseAll statements) =
      (Stmt.outermostAll statements).map Expr.erase := by
  cases statements with
  | nil => rfl
  | cons first rest =>
    rw [Stmt.eraseAll, Stmt.outermostAll, Stmt.outermost_erase first,
      Stmt.outermostAll_eraseAll rest, Stmt.outermostAll, List.map_append]

end

namespace Program

/-- What stands in an expression of a program is one. -/
theorem mem_expressions_of_within {program : Program} {value part : Expr}
    (member : value ∈ program.expressions) (inside : part ∈ value.within) :
    part ∈ program.expressions := by
  obtain ⟨outer, outermost, within⟩ := List.mem_flatMap.mp member
  exact List.mem_flatMap.mpr ⟨outer, outermost, outer.within_trans within inside⟩

/-- Emptying the slots of a program empties those of its outermost expressions. -/
theorem outermost_erase (program : Program) :
    program.erase.outermost = program.outermost.map Expr.erase := by
  simp only [outermost, erase, List.flatMap_map, List.map_append, List.map_flatMap, Field.erase,
    Method.erase, Option.toList_map_erase, Stmt.outermostAll_eraseAll]

/-- Emptying the slots of a program empties those of its expressions. -/
theorem expressions_erase (program : Program) :
    program.erase.expressions = program.expressions.map Expr.erase := by
  simp only [expressions, outermost_erase, List.flatMap_map, List.map_flatMap, Expr.within_erase]

end Program

end LetDef
