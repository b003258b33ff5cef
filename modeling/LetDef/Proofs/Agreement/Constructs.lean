import LetDef.Proofs.Agreement.Correspondence
import LetDef.Proofs.Program.Expressions

/-!
# Whatever a run comes to stands in its program

A task comes to the expressions that are written in its construct (`Task.within`) and, by calls, to
the methods of the program. So every expression that a run of an accepted program evaluates is one
of the expressions of the program (`AcceptedRun.Reaches.within_subset`).
-/
namespace LetDef

namespace Task

/-- The expressions that a task comes to without leaving its method. -/
def within : Task → List Expr
  | .program _ whole _ => whole.expressions
  | .fields _ remaining _ => (remaining.flatMap (·.value.toList)).flatMap Expr.within
  | .expression _ value _ => value.within
  | .expressions _ values _ => Expr.withinAll values
  | .optional _ value _ => value.toList.flatMap Expr.within
  | .call _ (.method declared _) _ _ => (Stmt.outermostAll declared.body).flatMap Expr.within
  | .call _ (.native _) _ _ => []
  | .statements _ body _ | .block _ body _ | .items _ _ _ body _ =>
    (Stmt.outermostAll body).flatMap Expr.within
  | .statement _ executed _ => executed.outermost.flatMap Expr.within
  | .rounds _ condition body _ =>
    condition.within ++ (Stmt.outermostAll body).flatMap Expr.within

/-- What a task starts without a call has expressions of the task. -/
theorem Starts.within_subset {task part : Task} {turns : List Turn}
    (starts : task.Starts (.down turns) part) : part.within ⊆ task.within := by
  cases starts with
  | @branch _ _ _ _ _ _ _ holds => cases holds <;> simp [within, Stmt.outermost]
  | _ =>
    simp [within, Expr.within, Expr.withinAll, Stmt.outermost, Stmt.outermostAll,
      Program.expressions, Program.outermost]

end Task

namespace AcceptedRun

variable {run : AcceptedRun} {address : Address}

/-- The expressions of what a run comes to are expressions of the program. -/
theorem Reaches.within_subset {task : Task} (reached : run.Reaches address task) :
    task.within ⊆ run.accepted.program.expressions := by
  have whole : run.Reaches address task := reached
  induction reached with
  | start => exact List.Subset.refl _
  | @step address task move part before starts ih =>
    cases move with
    | down turns => exact List.Subset.trans starts.within_subset (ih before)
    | call callable =>
      obtain ⟨_, _, _, corresponds⟩ := whole.exists_spot
      cases starts <;> cases corresponds with
      | builtin builtin =>
        cases builtin
        exact List.nil_subset _
      | method method rests member admitted meets =>
        intro value inside
        obtain ⟨outer, outermost, within⟩ := List.mem_flatMap.mp inside
        refine List.mem_flatMap.mpr ⟨outer, List.mem_append_right _ ?_, within⟩
        exact List.mem_flatMap.mpr ⟨_, member, outermost⟩

/-- An expression that a run evaluates is one of the program. -/
theorem Reaches.mem_expressions {fuel : Nat} {value : Expr} {machine : Machine}
    (reached : run.Reaches address (.expression fuel value machine)) :
    value ∈ run.accepted.program.expressions :=
  reached.within_subset value.mem_within

end AcceptedRun

end LetDef
