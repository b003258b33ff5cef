import LetDef.Java.Expression

/-!
# How Java reads operators

The Java text of an expression is a row of operands, operators, parentheses and selections
(`Java.pieces`). Java reads a row by the strength of its operators, and operators of one strength
from the left (`Java.Reads`). A row can be read in one way at most (`Java.Reads.unique`): the
operator at which a tree is divided is the last of the weakest operators outside of parentheses.
-/
namespace LetDef.Java

/-- What is selected from an object. -/
inductive Selection where
  /-- A field. -/
  | field (name : String) (slot : Option Variable)
  /-- A method with its arguments. -/
  | method (name : String) (arguments : List Expr) (slot : Option Signature)

/-- The text of a selection. -/
def Selection.text : Selection → String
  | .field name slot => "." ++ variableName name slot
  | .method name arguments slot => "." ++ functionName name slot ++ "(" ++ list arguments ++ ")"

/-- A piece of an expression in Java. -/
inductive Piece where
  /-- A literal, a name or a call. -/
  | operand (value : Expr)
  /-- An operator. -/
  | sign (operator : BinaryOp)
  /-- An opening parenthesis. -/
  | opening
  /-- A closing parenthesis. -/
  | closing
  /-- A selection from what stands before it. -/
  | selection (selected : Selection)

/-- The text of a piece. -/
def Piece.text : Piece → String
  | .operand value => expression value
  | .sign operator => " " ++ operator.javaSymbol ++ " "
  | .opening => "("
  | .closing => ")"
  | .selection selected => selected.text

/-- The pieces of an expression in the order in which they are written. -/
def pieces : Expr → List Piece
  | .group inner _ => .opening :: pieces inner ++ [.closing]
  | .binary operator left right _ => pieces left ++ .sign operator :: pieces right
  | .member receiver name slot _ => pieces receiver ++ [.selection (.field name slot)]
  | .memberCall receiver name arguments slot _ =>
    pieces receiver ++ [.selection (.method name arguments slot)]
  | value => [.operand value]

/-- The texts of the pieces, one after the other, are the text of the expression. -/
theorem join_pieces (value : Expr) :
    String.join ((pieces value).map Piece.text) = expression value := by
  cases value with
  | group inner type =>
    have whole := join_pieces inner
    simp only [pieces, List.cons_append, List.map_cons, List.map_append, List.map_nil,
      String.join_cons, String.join_append, String.join_nil, whole, expression, Piece.text,
      String.append_empty, String.append_assoc]
  | binary operator left right type =>
    have first := join_pieces left
    have second := join_pieces right
    simp only [pieces, List.map_append, List.map_cons, String.join_append, String.join_cons, first,
      second, expression, Piece.text, String.append_assoc]
  | member receiver name slot type =>
    have object := join_pieces receiver
    simp only [pieces, List.map_append, List.map_cons, List.map_nil, String.join_append,
      String.join_cons, String.join_nil, object, expression, Piece.text, Selection.text,
      String.append_empty, String.append_assoc]
  | memberCall receiver name arguments slot type =>
    have object := join_pieces receiver
    simp only [pieces, List.map_append, List.map_cons, List.map_nil, String.join_append,
      String.join_cons, String.join_nil, object, expression, Piece.text, Selection.text,
      String.append_empty, String.append_assoc]
  | _ => simp [pieces, Piece.text, String.join_cons, String.join_nil]

/-- What a row of pieces is read as. -/
inductive Tree where
  /-- An operand. -/
  | operand (value : Expr)
  /-- A tree in parentheses. -/
  | group (inner : Tree)
  /-- An operator between two trees. -/
  | binary (operator : BinaryOp) (left right : Tree)
  /-- A selection from a tree. -/
  | selection (receiver : Tree) (selected : Selection)

/-- The tree that an expression is. -/
def tree : Expr → Tree
  | .group inner _ => .group (tree inner)
  | .binary operator left right _ => .binary operator (tree left) (tree right)
  | .member receiver name slot _ => .selection (tree receiver) (.field name slot)
  | .memberCall receiver name arguments slot _ =>
    .selection (tree receiver) (.method name arguments slot)
  | value => .operand value

/-- How strongly Java binds the operands of an operator. -/
def strength : BinaryOp → Nat
  | .or => 0
  | .and => 1
  | .equal | .notEqual => 2
  | .less | .lessEqual | .greater | .greaterEqual => 3
  | .add | .sub => 4
  | .mul | .div => 5

/-- More than any operator binds its operands. -/
def strongest : Nat := 6

/-- No operator binds its operands most strongly. -/
theorem strength_lt_strongest (operator : BinaryOp) : strength operator < strongest := by
  cases operator <;> decide

/-- Java reads a row as a tree, where only operators of at least some strength may divide it. An
operator is between a row that may be divided by operators of its own strength, and one that may be
divided by stronger ones alone. No operator divides what a selection is made from. -/
inductive Reads : Nat → List Piece → Tree → Prop where
  | operand {least value} : Reads least [.operand value] (.operand value)
  | group {least row inner} (read : Reads 0 row inner) :
    Reads least (.opening :: row ++ [.closing]) (.group inner)
  | binary {least operator row other left right} (strong : least ≤ strength operator)
    (first : Reads (strength operator) row left)
    (second : Reads (strength operator + 1) other right) :
    Reads least (row ++ .sign operator :: other) (.binary operator left right)
  | selection {least row receiver selected} (read : Reads strongest row receiver) :
    Reads least (row ++ [.selection selected]) (.selection receiver selected)

namespace Tree

/-- The pieces of a tree in order. -/
def pieces : Tree → List Piece
  | .operand value => [.operand value]
  | .group inner => .opening :: inner.pieces ++ [.closing]
  | .binary operator left right => left.pieces ++ .sign operator :: right.pieces
  | .selection receiver selected => receiver.pieces ++ [.selection selected]

/-- The operators of the tree stand as Java reads them, and those that divide it have at least some
strength. -/
def Fits : Nat → Tree → Prop
  | _, .operand _ => True
  | _, .group inner => inner.Fits 0
  | least, .binary operator left right =>
    least ≤ strength operator ∧ left.Fits (strength operator) ∧ right.Fits (strength operator + 1)
  | _, .selection receiver _ => receiver.Fits strongest

/-- The operators of the tree outside of parentheses. -/
def operators : Tree → List BinaryOp
  | .operand _ | .group _ => []
  | .binary operator left right => left.operators ++ operator :: right.operators
  | .selection receiver _ => receiver.operators

end Tree

/-- The pieces of an expression are those of its tree. -/
theorem pieces_tree (value : Expr) : (tree value).pieces = pieces value := by
  cases value with
  | group inner type => rw [tree, Tree.pieces, pieces_tree inner, pieces]
  | binary operator left right type =>
    rw [tree, Tree.pieces, pieces_tree left, pieces_tree right, pieces]
  | member receiver name slot type => rw [tree, Tree.pieces, pieces_tree receiver, pieces]
  | memberCall receiver name arguments slot type =>
    rw [tree, Tree.pieces, pieces_tree receiver, pieces]
  | _ => rfl

/-- A row is read as a tree exactly if it consists of the pieces of that tree, and the operators of
that stand as Java reads them. -/
theorem reads_iff {least : Nat} {row : List Piece} {tree : Tree} :
    Reads least row tree ↔ row = tree.pieces ∧ tree.Fits least := by
  constructor
  · intro reads
    induction reads with
    | operand => exact ⟨rfl, trivial⟩
    | group _ ih =>
      obtain ⟨rfl, fits⟩ := ih
      exact ⟨rfl, fits⟩
    | binary strong _ _ first second =>
      obtain ⟨rfl, fitsLeft⟩ := first
      obtain ⟨rfl, fitsRight⟩ := second
      exact ⟨rfl, strong, fitsLeft, fitsRight⟩
    | selection _ ih =>
      obtain ⟨rfl, fits⟩ := ih
      exact ⟨rfl, fits⟩
  · rintro ⟨rfl, fits⟩
    induction tree generalizing least with
    | operand value => exact .operand
    | group inner ih => exact .group (ih fits)
    | binary operator left right left_ih right_ih =>
      obtain ⟨strong, fitsLeft, fitsRight⟩ := fits
      exact .binary strong (left_ih fitsLeft) (right_ih fitsRight)
    | selection receiver selected ih => exact .selection (ih fits)

/-- How many parentheses are open after some pieces. -/
def depth : Nat → List Piece → Nat
  | level, [] => level
  | level, .opening :: rest => depth (level + 1) rest
  | level, .closing :: rest => depth (level - 1) rest
  | level, _ :: rest => depth level rest

/-- The operators at which no parenthesis is open. -/
def outer : Nat → List Piece → List BinaryOp
  | _, [] => []
  | level, .opening :: rest => outer (level + 1) rest
  | level, .closing :: rest => outer (level - 1) rest
  | 0, .sign operator :: rest => operator :: outer 0 rest
  | level, _ :: rest => outer level rest

/-- The parentheses of a second row are counted on. -/
theorem depth_append (level : Nat) (row other : List Piece) :
    depth level (row ++ other) = depth (depth level row) other := by
  induction row generalizing level with
  | nil => rfl
  | cons first rest ih => cases first <;> exact ih _

/-- The operators of a second row come after those of the first. -/
theorem outer_append (level : Nat) (row other : List Piece) :
    outer level (row ++ other) = outer level row ++ outer (depth level row) other := by
  induction row generalizing level with
  | nil => rfl
  | cons first rest ih =>
    cases first with
    | opening => exact ih (level + 1)
    | closing => exact ih (level - 1)
    | sign operator =>
      cases level with
      | zero => exact congrArg (operator :: ·) (ih 0)
      | succ level => exact ih (level + 1)
    | _ => cases level <;> exact ih _

namespace Tree

/-- The pieces of a tree close as many parentheses as they open. -/
theorem depth_pieces (tree : Tree) (level : Nat) : depth level tree.pieces = level := by
  induction tree generalizing level with
  | operand value => rfl
  | group inner ih =>
    rw [pieces, List.cons_append, depth, depth_append, ih]
    rfl
  | binary operator left right left_ih right_ih =>
    rw [pieces, depth_append, left_ih]
    exact right_ih level
  | selection receiver selected ih =>
    rw [pieces, depth_append, ih]
    rfl

/-- Inside of a parenthesis, no operator of a tree is outside of all of them. -/
theorem outer_pieces_succ (tree : Tree) (level : Nat) : outer (level + 1) tree.pieces = [] := by
  induction tree generalizing level with
  | operand value => rfl
  | group inner ih =>
    rw [pieces, List.cons_append, outer, outer_append, ih, depth_pieces]
    rfl
  | binary operator left right left_ih right_ih =>
    rw [pieces, outer_append, left_ih, depth_pieces, List.nil_append]
    exact right_ih level
  | selection receiver selected ih =>
    rw [pieces, outer_append, ih, depth_pieces]
    rfl

/-- The operators of a tree outside of parentheses are those of its pieces. -/
theorem outer_pieces (tree : Tree) : outer 0 tree.pieces = tree.operators := by
  induction tree with
  | operand value => rfl
  | group inner ih =>
    rw [pieces, List.cons_append, outer, outer_append, outer_pieces_succ, depth_pieces]
    rfl
  | binary operator left right left_ih right_ih =>
    rw [pieces, outer_append, left_ih, depth_pieces, outer, right_ih, operators]
  | selection receiver selected ih =>
    rw [pieces, outer_append, ih, depth_pieces, operators]
    exact List.append_nil _

/-- The operators outside of parentheses are at least as strong as those that may divide the
tree. -/
theorem Fits.le_strength {tree : Tree} {least : Nat} (fits : tree.Fits least)
    {operator : BinaryOp} (member : operator ∈ tree.operators) : least ≤ strength operator := by
  induction tree generalizing least with
  | operand value => contradiction
  | group inner => contradiction
  | binary top left right left_ih right_ih =>
    obtain ⟨strong, fitsLeft, fitsRight⟩ := fits
    rw [operators, List.mem_append, List.mem_cons] at member
    rcases member with member | rfl | member
    · exact Nat.le_trans strong (left_ih fitsLeft member)
    · exact strong
    · exact Nat.le_trans strong (Nat.le_of_succ_le (right_ih fitsRight member))
  | selection receiver selected ih =>
    have strong := ih fits member
    exact absurd (strength_lt_strongest operator) (Nat.not_lt.mpr strong)

/-- Only trees that an operator divides have operators outside of parentheses. -/
theorem Fits.operators_eq_nil {tree : Tree} {least : Nat} (fits : tree.Fits least)
    (undivided : ∀ operator left right, tree ≠ .binary operator left right) :
    tree.operators = [] := by
  cases tree with
  | operand value => rfl
  | group inner => rfl
  | binary operator left right => exact absurd rfl (undivided operator left right)
  | selection receiver selected =>
    refine List.eq_nil_iff_forall_not_mem.mpr fun operator member => ?_
    have fitsReceiver : receiver.Fits strongest := fits
    have strong := fitsReceiver.le_strength member
    exact absurd (strength_lt_strongest operator) (Nat.not_lt.mpr strong)

/-- A row does not have two operators at which it can be divided: the later one would have to be
stronger than the earlier one, and not be. -/
theorem Fits.not_both {left right before : Tree} {earlier later : BinaryOp}
    {between after : List Piece} (fitsRight : right.Fits (strength earlier + 1))
    (fitsBefore : before.Fits (strength later))
    (split : right.pieces = between ++ .sign later :: after)
    (joined : before.pieces = left.pieces ++ .sign earlier :: between) : False := by
  have closedLeft : depth 0 left.pieces = 0 := left.depth_pieces 0
  have closedBetween : depth 0 between = 0 := by
    have closed := before.depth_pieces 0
    rw [joined, depth_append, closedLeft] at closed
    exact closed
  have earlierMember : earlier ∈ before.operators := by
    rw [← outer_pieces, joined, outer_append, closedLeft, outer]
    exact List.mem_append_right _ List.mem_cons_self
  have laterMember : later ∈ right.operators := by
    rw [← outer_pieces, split, outer_append, closedBetween, outer]
    exact List.mem_append_right _ List.mem_cons_self
  have weaker := fitsBefore.le_strength earlierMember
  have stronger := fitsRight.le_strength laterMember
  omega

/-- A row is divided at one operator alone. -/
theorem Fits.split_unique {left right first second : Tree} {operator found : BinaryOp}
    (fitsLeft : left.Fits (strength operator)) (fitsRight : right.Fits (strength operator + 1))
    (fitsFirst : first.Fits (strength found)) (fitsSecond : second.Fits (strength found + 1))
    (same : left.pieces ++ .sign operator :: right.pieces =
      first.pieces ++ .sign found :: second.pieces) :
    left.pieces = first.pieces ∧ operator = found ∧ right.pieces = second.pieces := by
  rcases List.append_eq_append_iff.mp same with ⟨gap, joined, split⟩ | ⟨gap, joined, split⟩
  · cases gap with
    | nil =>
      rw [List.append_nil] at joined
      injection split with sameSign sameRest
      injection sameSign with sameOperator
      exact ⟨joined.symm, sameOperator, sameRest⟩
    | cons piece between =>
      injection split with sameSign sameRest
      subst sameSign
      exact (fitsRight.not_both fitsFirst sameRest joined).elim
  · cases gap with
    | nil =>
      rw [List.append_nil] at joined
      injection split with sameSign sameRest
      injection sameSign with sameOperator
      exact ⟨joined, sameOperator.symm, sameRest.symm⟩
    | cons piece between =>
      injection split with sameSign sameRest
      subst sameSign
      exact (fitsSecond.not_both fitsLeft sameRest joined).elim

/-- Two trees with the same pieces are one, if the operators of both stand as Java reads them. -/
theorem Fits.eq_of_pieces {one two : Tree} {least fewest : Nat} (fits : one.Fits least)
    (other : two.Fits fewest) (same : one.pieces = two.pieces) : one = two := by
  induction one generalizing two least fewest with
  | operand value =>
    have ends := congrArg List.getLast? same
    cases two with
    | operand found => simpa [pieces] using same
    | group inner => simp [pieces, List.getLast?_cons] at ends
    | selection receiver selected => simp [pieces] at ends
    | binary operator left right =>
      have operated := congrArg (outer 0) same
      simp [outer_pieces, operators] at operated
  | group inner ih =>
    have ends := congrArg List.getLast? same
    cases two with
    | operand found => simp [pieces, List.getLast?_cons] at ends
    | group found =>
      have inside : inner.pieces = found.pieces := by simpa [pieces] using same
      have fitsFound : found.Fits 0 := other
      rw [ih fits fitsFound inside]
    | selection receiver selected => simp [pieces, List.getLast?_cons] at ends
    | binary operator left right =>
      have operated := congrArg (outer 0) same
      simp [outer_pieces, operators] at operated
  | binary operator left right left_ih right_ih =>
    have operated := congrArg (outer 0) same
    rw [outer_pieces, outer_pieces] at operated
    cases two with
    | operand found => simp [operators] at operated
    | group inner => simp [operators] at operated
    | selection receiver selected =>
      rw [other.operators_eq_nil (fun _ _ _ => nofun)] at operated
      simp [operators] at operated
    | binary found first second =>
      obtain ⟨_, fitsLeft, fitsRight⟩ := fits
      obtain ⟨_, fitsFirst, fitsSecond⟩ := other
      obtain ⟨sameLeft, sameOperator, sameRight⟩ :=
        split_unique fitsLeft fitsRight fitsFirst fitsSecond same
      subst sameOperator
      rw [left_ih fitsLeft fitsFirst sameLeft, right_ih fitsRight fitsSecond sameRight]
  | selection receiver selected ih =>
    have ends := congrArg List.getLast? same
    cases two with
    | operand found => simp [pieces] at ends
    | group inner => simp [pieces, List.getLast?_cons] at ends
    | selection found chosen =>
      obtain ⟨before, sameSelection⟩ := List.append_inj' same rfl
      injection sameSelection with sameSelection
      injection sameSelection with sameSelection
      have fitsFound : found.Fits strongest := other
      rw [ih fits fitsFound before, sameSelection]
    | binary operator left right =>
      have operated := congrArg (outer 0) same
      rw [outer_pieces, outer_pieces, fits.operators_eq_nil (fun _ _ _ => nofun)] at operated
      simp [operators] at operated

end Tree

/-- A row can be read in one way at most. -/
theorem Reads.unique {least : Nat} {row : List Piece} {one two : Tree} (first : Reads least row one)
    (second : Reads least row two) : one = two := by
  obtain ⟨rfl, fits⟩ := reads_iff.mp first
  obtain ⟨same, other⟩ := reads_iff.mp second
  exact fits.eq_of_pieces other same

/-- Java reads an expression as the tree that it is, and as no other, exactly if the operators of
that tree stand as Java reads them. -/
theorem reads_tree_iff (value : Expr) :
    (∀ found, Reads 0 (pieces value) found ↔ found = tree value) ↔ (tree value).Fits 0 := by
  constructor
  · intro reads
    exact (reads_iff.mp ((reads (tree value)).mpr rfl)).2
  · intro fits found
    have right : Reads 0 (pieces value) (tree value) :=
      reads_iff.mpr ⟨(pieces_tree value).symm, fits⟩
    constructor
    · intro read
      exact read.unique right
    · rintro rfl
      exact right

end LetDef.Java
