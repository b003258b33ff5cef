import LetDef.Proofs.Program.Layout
import LetDef.Proofs.Program.Parsing

/-!
# The names that a program binds

Fields, methods, parameters, declarations and loops bind names. Each of these names is an identifier
among the tokens that the program is derived from (`Grammar.IsProgram.named`), and so it is a word
of that class (`Program.binders_ofText`).
-/
namespace LetDef

mutual

/-- The names that a statement binds, the ones in its blocks included. -/
def Stmt.binders : Stmt → List String
  | .declaration declared => [declared.name]
  | .conditional _ accepted rejected => Stmt.bindersAll accepted ++ Stmt.bindersAll rejected
  | .iteration name _ body => name :: Stmt.bindersAll body
  | .repetition _ body => Stmt.bindersAll body
  | .expression _ | .assignment _ _ | .result _ => []

/-- The names that statements bind. -/
def Stmt.bindersAll : List Stmt → List String
  | [] => []
  | first :: rest => first.binders ++ Stmt.bindersAll rest

end

/-- The name of a method and the names that it binds. -/
def Method.binders (method : Method) : List String :=
  method.name :: (method.parameters.map Parameter.name ++ Stmt.bindersAll method.body)

/-- The names that a program binds. -/
def Program.binders (program : Program) : List String :=
  program.fields.map Field.name ++ program.methods.flatMap Method.binders

namespace Grammar

/-- Each of the names is an identifier among the tokens. -/
def Named (tokens : List Token) (names : List String) : Prop :=
  ∀ name ∈ names, ∃ token ∈ tokens, token.kind = .identifier ∧ token.literal = name

variable {permitted : String → Prop} {tokens more : List Token} {token : Token}
variable {names others : List String}

/-- More tokens have the identifiers that some of them have. -/
theorem Named.mono (named : Named tokens names) (subset : tokens ⊆ more) : Named more names := by
  intro name member
  obtain ⟨token, among, kind, same⟩ := named name member
  exact ⟨token, subset among, kind, same⟩

/-- Names are identifiers if the first ones and the others are. -/
theorem Named.append (first : Named tokens names) (second : Named tokens others) :
    Named tokens (names ++ others) :=
  List.forall_mem_append.mpr ⟨first, second⟩

/-- A name is an identifier, and the others are as before. -/
theorem Named.cons (isName : IsName permitted token) (among : token ∈ tokens)
    (named : Named tokens names) : Named tokens (token.literal :: names) :=
  List.forall_mem_cons.mpr ⟨⟨token, among, isName.kind, rfl⟩, named⟩

/-- There are no names. -/
theorem named_nil : Named tokens [] :=
  List.forall_mem_nil _

mutual

/-- The names that a derived statement binds are identifiers among its tokens. -/
theorem Statement.named : ∀ {tokens : List Token} {statement : Stmt},
    Statement permitted tokens statement → Named tokens statement.binders
  | _, _, .declaration _ named _ _ _ => named_nil.cons named (by simp)
  | _, _, .conditional _ _ _ body _ => by
    rw [Stmt.binders, Stmt.bindersAll, List.append_nil]
    exact body.named.mono fun _ member => by simp [member]
  | _, _, .alternative _ _ _ body _ alternative _ =>
    (body.named.mono fun _ member => by simp [member]).append
      (alternative.named.mono fun _ member => by simp [member])
  | _, _, .iteration _ named _ _ _ inner _ =>
    (inner.named.mono fun _ member => by simp [member]).cons named (by simp)
  | _, _, .repetition _ _ _ inner _ => inner.named.mono fun _ member => by simp [member]
  | _, _, .result _ _ _ | _, _, .assignment _ _ _ _ | _, _, .expression _ _ => named_nil

/-- The names that derived statements bind are identifiers among their tokens. -/
theorem Block.named : ∀ {tokens : List Token} {statements : List Stmt},
    Block permitted tokens statements → Named tokens (Stmt.bindersAll statements)
  | _, _, .nil => named_nil
  | _, _, .blank _ later => later.named.mono fun _ member => by simp [member]
  | _, _, .cons first rest =>
    (first.named.mono (List.subset_append_left _ _)).append
      (rest.named.mono (List.subset_append_right _ _))

end

/-- The names of derived parameters are identifiers among their tokens. -/
theorem ParameterList.named {parameters : List Parameter}
    (derives : ParameterList permitted tokens parameters) :
    Named tokens (parameters.map Parameter.name) := by
  induction derives with
  | one named => exact named_nil.cons named (by simp)
  | more named _ _ _ _ ih =>
    exact (ih.mono fun _ member => by simp [member]).cons named (by simp)

/-- The names of derived parameters are identifiers among their tokens. -/
theorem Parameters.named {parameters : List Parameter}
    (derives : Parameters permitted tokens parameters) :
    Named tokens (parameters.map Parameter.name) := by
  cases derives with
  | none => exact named_nil
  | some listed => exact listed.named.mono (List.subset_append_left _ _)

/-- The names that a derived method binds are identifiers among its tokens. -/
theorem IsMethod.named {method : Method} (derives : IsMethod permitted tokens method) :
    Named tokens method.binders := by
  cases derives with
  | mk first named opened accepts noted begun inner closed =>
    have parameters := accepts.named
    have body := inner.named
    refine Named.cons named (by simp) (Named.append ?_ ?_)
    · exact parameters.mono fun _ member => by simp [member]
    · exact body.mono fun _ member => by simp [member]

/-- The names that constructs in a row bind are identifiers among their tokens, if those of each
are. -/
theorem Many.named {α : Type} {one : List Token → α → Prop} {found : List α}
    {binders : α → List String}
    (each : ∀ {tokens value}, one tokens value → Named tokens (binders value))
    (derives : Many one tokens found) : Named tokens (found.flatMap binders) := by
  induction derives with
  | nil => exact named_nil
  | cons first _ ih =>
    exact ((each first).mono (List.subset_append_left _ _)).append
      (ih.mono (List.subset_append_right _ _))

/-- The names that a derived program binds are identifiers among its tokens. -/
theorem IsProgram.named {program : Program} (derives : IsProgram permitted tokens program) :
    Named tokens program.binders := by
  cases derives with
  | @mk front back fields methods first second =>
    have fieldNames : Named front (fields.flatMap fun field => [field.name]) := by
      refine first.named fun field => ?_
      cases field with
      | mk _ named => exact named_nil.cons named (by simp)
    rw [← List.map_eq_flatMap] at fieldNames
    have methodNames := second.named fun method => method.named
    exact (fieldNames.mono (List.subset_append_left _ _)).append
      (methodNames.mono (List.subset_append_right _ _))

end Grammar

/-- The names that a program binds are identifiers. -/
theorem Program.binders_ofText {text : String} {program : Program}
    (read : Program.ofText text = .ok program) :
    ∀ name ∈ program.binders, TokenKind.identifier.Word name.toList := by
  obtain ⟨tokens, scanned, parsed⟩ := ofText_eq_ok.mp read
  have shaped := Token.allShaped_of_scan scanned
  have derives := Parser.program_isProgram shaped (Program.ofTokens_eq_ok.mp parsed)
  intro name member
  obtain ⟨token, among, kind, rfl⟩ := derives.named name member
  exact kind ▸ shaped token among

end LetDef
