import LetDef.Java.Program
import LetDef.Proofs.Program.Expressions

/-!
# Where expressions stand in the Java text

The text of each expression of a program is written in one of the lines of the Java text
(`Java.Occurs.generate`).
-/
namespace LetDef.Java

open Text (Line)

/-- A text is a part of another one. -/
def Occurs (part whole : String) : Prop :=
  ∃ before after, whole = before ++ part ++ after

namespace Occurs

variable {part middle whole : String}

/-- A text is a part of itself. -/
theorem refl (part : String) : Occurs part part :=
  ⟨"", "", by rw [String.empty_append, String.append_empty]⟩

/-- A part of a part is one. -/
theorem trans (first : Occurs part middle) (second : Occurs middle whole) : Occurs part whole := by
  obtain ⟨before, after, rfl⟩ := first
  obtain ⟨earlier, later, rfl⟩ := second
  exact ⟨earlier ++ before, after ++ later, by simp only [String.append_assoc]⟩

/-- A part of a text is one of that text with another one after it. -/
theorem left (occurs : Occurs part middle) (later : String) : Occurs part (middle ++ later) := by
  obtain ⟨before, after, rfl⟩ := occurs
  exact ⟨before, after ++ later, by simp only [String.append_assoc]⟩

/-- A part of a text is one of that text with another one before it. -/
theorem right (earlier : String) (occurs : Occurs part middle) :
    Occurs part (earlier ++ middle) := by
  obtain ⟨before, after, rfl⟩ := occurs
  exact ⟨earlier ++ before, after, by simp only [String.append_assoc]⟩

/-- Texts that are joined are parts of the whole. -/
theorem intercalate {separator : String} {texts : List String} (member : part ∈ texts) :
    Occurs part (separator.intercalate texts) := by
  induction texts with
  | nil => exact absurd member List.not_mem_nil
  | cons first rest ih =>
    cases rest with
    | nil =>
      obtain rfl := List.mem_singleton.mp member
      rw [String.intercalate_singleton]
      exact refl part
    | cons second others =>
      rw [String.intercalate_cons_cons]
      rcases List.mem_cons.mp member with rfl | member
      · exact ((refl part).left separator).left _
      · exact (ih member).right _

end Occurs

mutual

/-- What stands in an expression is a part of it in Java. -/
theorem Occurs.expression (value : Expr) {part : Expr} (inside : part ∈ value.within) :
    Occurs (expression part) (expression value) := by
  cases value with
  | literal value type =>
    obtain rfl := List.mem_singleton.mp inside
    exact .refl _
  | group inner type =>
    rcases List.mem_cons.mp inside with rfl | inside
    · exact .refl _
    · have occurs := Occurs.expression inner inside
      exact (occurs.right _).left _
  | binary operator left right type =>
    rcases List.mem_cons.mp inside with rfl | inside
    · exact .refl _
    rcases List.mem_append.mp inside with inside | inside
    · have occurs := Occurs.expression left inside
      exact (((occurs.left _).left _).left _).left _
    · have occurs := Occurs.expression right inside
      exact occurs.right _
  | «variable» name slot type =>
    obtain rfl := List.mem_singleton.mp inside
    exact .refl _
  | member receiver name slot type =>
    rcases List.mem_cons.mp inside with rfl | inside
    · exact .refl _
    · have occurs := Occurs.expression receiver inside
      exact (occurs.left _).left _
  | call name arguments slot type =>
    rcases List.mem_cons.mp inside with rfl | inside
    · exact .refl _
    · have occurs := Occurs.list arguments inside
      exact (occurs.right _).left _
  | memberCall receiver name arguments slot type =>
    rcases List.mem_cons.mp inside with rfl | inside
    · exact .refl _
    rcases List.mem_append.mp inside with inside | inside
    · have occurs := Occurs.expression receiver inside
      exact ((((occurs.left _).left _).left _).left _).left _
    · have occurs := Occurs.list arguments inside
      exact (occurs.right _).left _

/-- What stands in one of some expressions is a part of their list in Java. -/
theorem Occurs.list (values : List Expr) {part : Expr} (inside : part ∈ Expr.withinAll values) :
    Occurs (Java.expression part) (list values) := by
  cases values with
  | nil => exact absurd inside List.not_mem_nil
  | cons first rest =>
    rcases List.mem_append.mp inside with inside | inside
    · have occurs := Occurs.expression first inside
      exact occurs.left _
    · have occurs := Occurs.listAfter rest inside
      exact occurs.right _

/-- What stands in one of some further expressions is a part of their list in Java. -/
theorem Occurs.listAfter (values : List Expr) {part : Expr}
    (inside : part ∈ Expr.withinAll values) : Occurs (Java.expression part) (listAfter values) := by
  cases values with
  | nil => exact absurd inside List.not_mem_nil
  | cons first rest =>
    rcases List.mem_append.mp inside with inside | inside
    · have occurs := Occurs.expression first inside
      exact (occurs.right _).left _
    · have occurs := Occurs.listAfter rest inside
      exact occurs.right _

end

/-- The expression is a part of one of the lines. -/
def Shown (value : Expr) (lines : List Line) : Prop :=
  ∃ line ∈ lines, Occurs (expression value) line.text

namespace Shown

variable {value : Expr} {lines others : List Line}

/-- The expression is shown in more lines. -/
theorem mono (shown : Shown value lines) (more : lines ⊆ others) : Shown value others := by
  obtain ⟨line, member, occurs⟩ := shown
  exact ⟨line, more member, occurs⟩

/-- The expression is shown where other lines follow. -/
theorem append_left (shown : Shown value lines) : Shown value (lines ++ others) :=
  shown.mono (List.subset_append_left lines others)

/-- The expression is shown where other lines go before. -/
theorem append_right (shown : Shown value others) : Shown value (lines ++ others) :=
  shown.mono (List.subset_append_right lines others)

/-- The expression is shown in the one line that it is a part of. -/
theorem line {depth : Nat} {text : String} (occurs : Occurs (expression value) text) :
    Shown value [⟨depth, text⟩] :=
  ⟨_, List.mem_singleton.mpr rfl, occurs⟩

/-- The expression is shown in a block if it is a part of what is before the block. -/
theorem head {depth : Nat} {head tail : String} {body : List Line}
    (occurs : Occurs (expression value) head) : Shown value (Line.block depth head body tail) := by
  rw [Line.block]
  split
  · exact .line ((occurs.left _).left _)
  · exact ⟨_, List.mem_append_left _ List.mem_cons_self, occurs.left _⟩

/-- The expression is shown in a block if it is in the lines of that. -/
theorem body {depth : Nat} {head tail : String} {body : List Line} (shown : Shown value body) :
    Shown value (Line.block depth head body tail) := by
  rw [Line.block]
  split
  next empty =>
    obtain ⟨line, member, _⟩ := shown
    rw [List.isEmpty_iff.mp empty] at member
    exact absurd member List.not_mem_nil
  next =>
    apply Shown.append_left
    exact shown.mono fun line member => List.mem_cons_of_mem _ member

/-- An expression in the lines of a program is a part of its text. -/
theorem occurs_render (shown : Shown value lines) :
    Occurs (expression value) (Line.render lines) := by
  obtain ⟨line, member, occurs⟩ := shown
  exact (occurs.right _).trans (.intercalate (List.mem_map_of_mem member))

end Shown

/-- The first value of a variable is a part of its declaration. -/
theorem occurs_variableText {type name : String} {content : Option Expr} {value : Expr}
    (written : value ∈ content.toList) :
    Occurs (expression value) (variableText type name content) := by
  cases content with
  | none => exact absurd written List.not_mem_nil
  | some found =>
    obtain rfl := List.mem_singleton.mp written
    exact ((Occurs.refl _).right _).left _

mutual

/-- The outermost expressions of a statement are shown in its lines. -/
theorem shown_statement (depth : Nat) (stmt : Stmt) {value : Expr}
    (outermost : value ∈ stmt.outermost) :
    Shown value (statement depth stmt) := by
  cases stmt with
  | expression found =>
    obtain rfl := List.mem_singleton.mp outermost
    exact .line ((Occurs.refl _).left _)
  | declaration declared => exact .line (occurs_variableText outermost)
  | assignment target content =>
    rcases List.mem_cons.mp outermost with rfl | outermost
    · exact .line ((((Occurs.refl _).left _).left _).left _)
    · obtain rfl := List.mem_singleton.mp outermost
      exact .line (((Occurs.refl _).right _).left _)
  | conditional condition accepted rejected =>
    rw [statement]
    split
    next empty =>
      rw [Stmt.outermost, List.isEmpty_iff.mp empty, Stmt.outermostAll,
        List.append_nil] at outermost
      rcases List.mem_cons.mp outermost with rfl | outermost
      · exact .head (((Occurs.refl _).right _).left _)
      · exact .body (shown_statements (depth + 1) accepted outermost)
    next =>
      rcases List.mem_cons.mp outermost with rfl | outermost
      · apply Shown.append_left
        apply Shown.append_left
        exact .head (((Occurs.refl _).right _).left _)
      rcases List.mem_append.mp outermost with outermost | outermost
      · apply Shown.append_left
        apply Shown.append_left
        exact .body (shown_statements (depth + 1) accepted outermost)
      · apply Shown.append_left
        apply Shown.append_right
        exact shown_statements (depth + 1) rejected outermost
  | iteration name found body =>
    rcases List.mem_cons.mp outermost with rfl | outermost
    · exact .head (((Occurs.refl _).right _).left _)
    · exact .body (shown_statements (depth + 1) body outermost)
  | repetition condition body =>
    rcases List.mem_cons.mp outermost with rfl | outermost
    · exact .head (((Occurs.refl _).right _).left _)
    · exact .body (shown_statements (depth + 1) body outermost)
  | result found =>
    obtain rfl := List.mem_singleton.mp outermost
    exact .line (((Occurs.refl _).right _).left _)

/-- The outermost expressions of statements are shown in their lines. -/
theorem shown_statements (depth : Nat) (stmts : List Stmt) {value : Expr}
    (outermost : value ∈ Stmt.outermostAll stmts) : Shown value (statements depth stmts) := by
  cases stmts with
  | nil => exact absurd outermost List.not_mem_nil
  | cons first rest =>
    rcases List.mem_append.mp outermost with outermost | outermost
    · have shown := shown_statement depth first outermost
      exact shown.append_left
    · have shown := shown_statements depth rest outermost
      exact shown.append_right

end

/-- The outermost expressions of a program are shown in its lines. -/
theorem shown_lines {program : Program} {value : Expr} (outermost : value ∈ program.outermost) :
    Shown value (lines program) := by
  rcases List.mem_append.mp outermost with outermost | outermost
  · obtain ⟨declared, listed, written⟩ := List.mem_flatMap.mp outermost
    have shown : Shown value (fields program.fields) := by
      rw [fields, if_neg (by simp [List.ne_nil_of_mem listed])]
      refine ⟨field declared, ?_, occurs_variableText written⟩
      exact List.mem_append_left _ (List.mem_map_of_mem listed)
    exact shown.mono fun line member => by simp [lines, member]
  · obtain ⟨declared, listed, written⟩ := List.mem_flatMap.mp outermost
    have shown : Shown value (method declared) := .body (shown_statements 2 declared.body written)
    refine shown.mono fun line member => ?_
    have among : line ∈ program.methods.flatMap fun declared => Line.blank :: method declared :=
      List.mem_flatMap.mpr ⟨declared, listed, List.mem_cons_of_mem _ member⟩
    simp only [lines, List.mem_append, among, or_true, true_or]

/-- All expressions of a program are parts of its Java text. -/
theorem Occurs.generate {program : Program} {value : Expr} (member : value ∈ program.expressions) :
    Occurs (Java.expression value) (generate program) := by
  obtain ⟨outer, outermost, inside⟩ := List.mem_flatMap.mp member
  exact (Occurs.expression outer inside).trans (shown_lines outermost).occurs_render

end LetDef.Java
