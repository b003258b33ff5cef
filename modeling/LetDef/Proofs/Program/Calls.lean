import LetDef.Program.Basic

/-!
# Calls and loops in programs

What decides whether the runs of a program can go on forever: the functions that its bodies call,
by their names and numbers of arguments, and its loops with a condition. Calls of methods of objects
are not among the former; programs without a host have none.
-/
namespace LetDef

mutual

/-- The names that an expression calls, each with a number of arguments. -/
def Expr.callees : Expr → List (String × Nat)
  | .literal .. | .variable .. => []
  | .group inner _ => inner.callees
  | .binary _ left right _ => left.callees ++ right.callees
  | .member receiver _ _ _ => receiver.callees
  | .call name arguments _ _ => (name, arguments.length) :: Expr.calleesAll arguments
  | .memberCall receiver _ arguments _ _ => receiver.callees ++ Expr.calleesAll arguments

/-- The names that expressions call. -/
def Expr.calleesAll : List Expr → List (String × Nat)
  | [] => []
  | first :: rest => first.callees ++ Expr.calleesAll rest

end

/-- The names that an optional expression calls. -/
def Expr.calleesOption : Option Expr → List (String × Nat)
  | none => []
  | some value => value.callees

mutual

/-- The names that a statement calls. -/
def Stmt.callees : Stmt → List (String × Nat)
  | .expression value | .result value => value.callees
  | .declaration declared => Expr.calleesOption declared.value
  | .assignment target value => target.callees ++ value.callees
  | .conditional condition accepted rejected =>
    condition.callees ++ (Stmt.calleesAll accepted ++ Stmt.calleesAll rejected)
  | .iteration _ value body => value.callees ++ Stmt.calleesAll body
  | .repetition condition body => condition.callees ++ Stmt.calleesAll body

/-- The names that statements call. -/
def Stmt.calleesAll : List Stmt → List (String × Nat)
  | [] => []
  | first :: rest => first.callees ++ Stmt.calleesAll rest

end

mutual

/-- The statement is a loop with a condition, or has one in it. -/
def Stmt.repeats : Stmt → Bool
  | .repetition .. => true
  | .conditional _ accepted rejected => Stmt.repeatsAny accepted || Stmt.repeatsAny rejected
  | .iteration _ _ body => Stmt.repeatsAny body
  | .expression _ | .declaration _ | .assignment _ _ | .result _ => false

/-- There is a loop with a condition in the statements. -/
def Stmt.repeatsAny : List Stmt → Bool
  | [] => false
  | first :: rest => first.repeats || Stmt.repeatsAny rest

end

/-- The names that the body of a method calls. -/
def Method.callees (method : Method) : List (String × Nat) :=
  Stmt.calleesAll method.body

/-- The method calls itself in its own body. -/
def Method.recurs (method : Method) : Bool :=
  (method.name, method.parameters.length) ∈ method.callees

end LetDef
