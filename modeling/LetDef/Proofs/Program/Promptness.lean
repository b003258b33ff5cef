import LetDef.Proofs.Program.Recognition
import LetDef.Proofs.Program.Steps

/-!
# Readers fail at the first token that cannot stand there

A reader is prompt (`Parser.Prompt`) if what it does depends on the tokens that it takes and on one
token behind them alone, and if, where it fails, the tokens before the failure can be completed
to a construct. What may stand behind a construct is a parameter (`ends`), since an operand or a
list goes on if the right token follows it. A reader that has taken nothing yet can be refused
what was read before it: what it completes must then be what may stand behind that, which is the
other parameter (`enters`).

Completions are made of few tokens (`Parser.fillers`).
-/
namespace LetDef.Parser

open Token (AllShaped)

/-- The tokens from which constructs that were begun are completed. -/
def fillers : List Token :=
  [⟨.operator, ":", 0⟩, ⟨.operator, ";", 2⟩, ⟨.operator, ")", 4⟩, ⟨.operator, "(", 6⟩,
    ⟨.operator, ",", 8⟩, ⟨.identifier, "DO", 10⟩, ⟨.identifier, "IN", 13⟩,
    ⟨.identifier, "END", 16⟩, ⟨.identifier, "x", 20⟩]

/-- Any tokens. -/
abbrev Anything : List Token → Prop := fun _ => True

variable {α β : Type} {enters ends more less : List Token → Prop} {tokens rest : List Token}
  {token : Token}

/-- The reader succeeds and would do so with any other tokens behind what it takes that begin alike
or may stand there; or it fails, would do so whatever is behind the first token that is left,
and could be brought to succeed with other tokens in place of those. -/
inductive Prompt (enters ends : List Token → Prop) (read : Reader α) (tokens : List Token) : Prop
    where
  | reads (used rest : List Token) (value : α) (whole : tokens = used ++ rest)
    (begins : used = [] → ∀ other, ends other → enters other)
    (same : ∀ other, other.head? = rest.head? ∨ ends other →
      read (used ++ other) = .ok (value, other))
  | fails (used rest : List Token) (fault : ParseFault) (whole : tokens = used ++ rest)
    (same : ∀ other, other.head? = rest.head? → read (used ++ other) = .error ⟨fault, other⟩)
    (added : List Token) (value : α) (filled : added ⊆ fillers)
    (begins : used = [] → ∀ other, ends other → enters (added ++ other))
    (completed : ∀ other, ends other → read (used ++ (added ++ other)) = .ok (value, other))

/-- Without any token, a construct can be completed. -/
def Completes (enters ends : List Token → Prop) (read : Reader α) : Prop :=
  ∃ added value, added ⊆ fillers ∧ ∀ other, ends other →
    enters (added ++ other) ∧ read (added ++ other) = .ok (value, other)

namespace Prompt

variable {read taken : Reader α} {fault : ParseFault}

/-- Less may stand behind a construct, and more before it. -/
theorem mono (prompt : Prompt less more read tokens) (before : ∀ other, less other → enters other)
    (after : ∀ other, ends other → more other) : Prompt enters ends read tokens := by
  cases prompt with
  | reads used rest value whole begins same =>
    exact .reads used rest value whole
      (fun none other ended => before other (begins none other (after other ended)))
      fun other front => same other (front.imp_right (after other))
  | fails used rest fault whole same added value filled begins completed =>
    exact .fails used rest fault whole same added value filled
      (fun none other ended => before _ (begins none other (after other ended)))
      fun other ended => completed other (after other ended)

/-- A construct before which anything may stand. -/
theorem widen (prompt : Prompt less ends read tokens) : Prompt Anything ends read tokens :=
  prompt.mono (fun _ _ => trivial) fun _ ended => ended

/-- A construct that anything may follow, where anything may stand before it. -/
theorem anywhere (prompt : Prompt less Anything read tokens) : Prompt Anything ends read tokens :=
  prompt.mono (fun _ _ => trivial) fun _ _ => trivial

/-- From no tokens a construct is completed. -/
theorem completes (prompt : Prompt enters ends read []) : Completes enters ends read := by
  cases prompt with
  | reads used rest value whole begins same =>
    obtain ⟨rfl, rfl⟩ := List.append_eq_nil_iff.mp whole.symm
    exact ⟨[], value, List.nil_subset _, fun other ended =>
      ⟨begins rfl other ended, same other (.inr ended)⟩⟩
  | fails used rest fault whole same added value filled begins completed =>
    obtain ⟨rfl, rfl⟩ := List.append_eq_nil_iff.mp whole.symm
    exact ⟨added, value, filled, fun other ended =>
      ⟨begins rfl other ended, completed other ended⟩⟩

/-- A reader that fails at its first token is prompt if it can be completed from there. -/
theorem stuck (fault : ParseFault)
    (fails : ∀ other, other.head? = tokens.head? → read other = .error ⟨fault, other⟩)
    (completes : Completes enters ends read) : Prompt enters ends read tokens := by
  obtain ⟨added, value, filled, completed⟩ := completes
  exact .fails [] tokens fault rfl fails added value filled
    (fun _ other ended => (completed other ended).1) fun other ended => (completed other ended).2

/-- Where no token is, a reader that fails is stuck. -/
theorem empty (fails : read [] = .error ⟨fault, []⟩) (completes : Completes enters ends read) :
    Prompt enters ends read [] :=
  stuck fault (fun _ front => List.head?_eq_none_iff.mp front ▸ fails) completes

/-- A reader that refuses a token is stuck there. -/
theorem refused (fails : ∀ rest, read (token :: rest) = .error ⟨fault, token :: rest⟩)
    (completes : Completes enters ends read) : Prompt enters ends read (token :: rest) := by
  refine stuck fault (fun other front => ?_) completes
  obtain ⟨later, rfl⟩ : ∃ later, other = token :: later := List.head?_eq_some_iff.mp front
  exact fails later

/-- Nothing is read promptly. -/
theorem pure (value : α) : Prompt ends ends (Reader.pure value) tokens :=
  .reads [] tokens value rfl (fun _ _ ended => ended) fun _ _ => rfl

/-- What is read behind a token. -/
theorem next (same : ∀ rest, read (token :: rest) = taken rest)
    (prompt : Prompt less ends taken rest) : Prompt enters ends read (token :: rest) := by
  cases prompt with
  | reads used rest value whole _ reads =>
    refine .reads (token :: used) rest value (by rw [whole, List.cons_append]) (by simp) ?_
    exact fun other front => (same _).trans (reads other front)
  | fails used rest fault whole fails added value filled _ completed =>
    refine .fails (token :: used) rest fault (by rw [whole, List.cons_append]) ?_ added value filled
      (by simp) ?_
    · exact fun other front => (same _).trans (fails other front)
    · exact fun other ended => (same _).trans (completed other ended)

/-- A reader that does what another does for some first tokens is as prompt as that. -/
theorem congr {guard : List Token → Prop}
    (alike : ∀ one other : List Token, one.head? = other.head? → guard one → guard other)
    (same : ∀ other, guard other → read other = taken other)
    (entered : ∀ other, enters other → guard other) (front : guard tokens)
    (prompt : Prompt enters ends taken tokens) : Prompt enters ends read tokens := by
  -- Behind tokens that were taken, the first of them is in front whatever comes after.
  have guarded : ∀ used rest other : List Token, tokens = used ++ rest →
      (used = [] → other.head? = rest.head? ∨ guard other) → guard (used ++ other) := by
    rintro used rest other rfl untaken
    cases used with
    | nil =>
      rcases untaken rfl with same | guarded
      · exact alike rest other same.symm front
      · exact guarded
    | cons token used => exact alike (token :: used ++ rest) _ rfl front
  cases prompt with
  | reads used rest value whole begins reads =>
    refine .reads used rest value whole begins fun other front => ?_
    refine (same _ (guarded used rest other whole fun none => ?_)).trans (reads other front)
    exact front.imp_right fun ended => entered other (begins none other ended)
  | fails used rest fault whole fails added value filled begins completed =>
    refine .fails used rest fault whole (fun other front => ?_) added value filled begins
      fun other ended => ?_
    · exact (same _ (guarded used rest other whole fun _ => .inl front)).trans (fails other front)
    · refine (same _ (guarded used rest _ whole fun none => ?_)).trans (completed other ended)
      exact .inr (entered _ (begins none other ended))

/-- A step and what follows it are prompt if what may come first there may stand behind the
step. -/
theorem bind {size : List Token → Nat} {step : (tokens : List Token) → Parse β (size tokens)}
    {after : β → Reader α} {between : List Token → Prop}
    (first : Prompt enters more (.of step) tokens) (linked : ∀ other, between other → more other)
    (second : ∀ found rest, rest.length ≤ size tokens - 1 →
      Prompt between ends (after found) rest) :
    Prompt enters ends (Reader.bind (.of step) after) tokens := by
  cases first with
  | reads used rest found whole begins same =>
    have read := same rest (.inl rfl)
    have within : rest.length ≤ size tokens - 1 := by
      rw [← whole] at read
      exact Nat.le_sub_one_of_lt (plain_eq_ok.mp read).length_lt
    have continued : ∀ other, other.head? = rest.head? ∨ between other →
        Reader.bind (.of step) after (used ++ other) = after found other := by
      intro other front
      rw [Reader.bind, same other (front.imp_right (linked other))]
    cases second found rest within with
    | reads later behind value following also reads =>
      refine .reads (used ++ later) behind value (by rw [whole, following, List.append_assoc])
        (fun none other ended => ?_) fun other front => ?_
      · obtain ⟨noneUsed, noneLater⟩ := List.append_eq_nil_iff.mp none
        exact begins noneUsed other (linked other (also noneLater other ended))
      · rw [List.append_assoc, continued, reads other front]
        cases later with
        | nil => exact following ▸ front.imp_right (also rfl other)
        | cons token later => exact .inl (by rw [following]; rfl)
    | fails later behind fault following fails added value filled also completed =>
      refine .fails (used ++ later) behind fault (by rw [whole, following, List.append_assoc])
        (fun other front => ?_) added value filled (fun none other ended => ?_)
        fun other ended => ?_
      · rw [List.append_assoc, continued, fails other front]
        cases later with
        | nil => exact .inl (following ▸ front)
        | cons token later => exact .inl (by rw [following]; rfl)
      · obtain ⟨noneUsed, noneLater⟩ := List.append_eq_nil_iff.mp none
        exact begins noneUsed _ (linked _ (also noneLater other ended))
      · rw [List.append_assoc, continued, completed other ended]
        cases later with
        | nil => exact .inr (also rfl other ended)
        | cons token later => exact .inl (by rw [following]; rfl)
  | fails used rest fault whole same added found filled begins completed =>
    -- The rest of the construct is made up as well.
    obtain ⟨others, value, filledOthers, completedOthers⟩ :=
      (second found [] (Nat.zero_le _)).completes
    refine .fails used rest fault whole (fun other front => ?_) (added ++ others) value
      (List.append_subset.mpr ⟨filled, filledOthers⟩) (fun none other ended => ?_)
      fun other ended => ?_
    · rw [Reader.bind, same other front]
    · rw [List.append_assoc]
      exact begins none _ (linked _ (completedOthers other ended).1)
    · rw [List.append_assoc, Reader.bind,
        completed _ (linked _ (completedOthers other ended).1)]
      exact (completedOthers other ended).2

/-- A step that anything may follow and what follows it. -/
theorem before {size : List Token → Nat} {step : (tokens : List Token) → Parse β (size tokens)}
    {after : β → Reader α} (first : Prompt enters Anything (.of step) tokens)
    (second : ∀ found rest, rest.length ≤ size tokens - 1 →
      Prompt Anything ends (after found) rest) :
    Prompt enters ends (Reader.bind (.of step) after) tokens :=
  first.bind (fun _ _ => trivial) second

/-- A step whose construct is part of the one that is made. -/
theorem map {size : List Token → Nat} {step : (tokens : List Token) → Parse β (size tokens)}
    (make : β → α) (prompt : Prompt enters ends (.of step) tokens) :
    Prompt enters ends (Reader.bind (.of step) fun found => Reader.pure (make found)) tokens :=
  prompt.bind (fun _ ended => ended) fun _ _ _ => .pure _

/-- What is read behind a text, or else in its place. -/
theorem behind {literal : String} {other : Reader α}
    (apart : ∀ later, enters later → ¬ Starts literal later)
    (takes : ∀ token rest, tokens = token :: rest → Prompt Anything ends taken rest)
    (passes : Prompt enters ends other tokens) :
    Prompt enters ends (Reader.behind literal taken other) tokens := by
  by_cases starts : Starts literal tokens
  · obtain ⟨token, rest, rfl, reads⟩ := starts
    exact .next (Reader.behind_cons reads taken other) (takes token rest rfl)
  · have alike : ∀ one other : List Token, one.head? = other.head? →
        ¬ Starts literal one → ¬ Starts literal other := by
      intro one other front stops
      rintro ⟨token, later, rfl, reads⟩
      obtain ⟨behind, rfl⟩ := List.head?_eq_some_iff.mp front
      exact stops ⟨token, behind, rfl, reads⟩
    exact passes.congr alike
      (fun later stops => Reader.behind_of_not_starts stops taken other) apart starts

end Prompt

/-- A filler with this text. -/
def Filled (literal : String) : Prop :=
  ∃ token ∈ fillers, token.literal = literal

instance (literal : String) : Decidable (Filled literal) :=
  inferInstanceAs (Decidable (∃ token ∈ fillers, token.literal = literal))

/-- The texts that the parser looks for behind something. -/
theorem expect_prompt {literal : String} (what : Expectation) (filled : Filled literal)
    (tokens : List Token) :
    Prompt (Starts literal) Anything (.of (expect literal what)) tokens := by
  rw [Reader.of_expect]
  by_cases starts : Starts literal tokens
  · obtain ⟨token, rest, rfl, reads⟩ := starts
    exact .next (Reader.behind_cons reads _ _) (.pure ())
  · have fails : ∀ other : List Token, other.head? = tokens.head? →
        Reader.behind literal (Reader.pure ()) (Reader.missing what) other =
          .error ⟨.expected what, other⟩ := by
      intro other front
      refine Reader.behind_of_not_starts ?_ _ _
      rintro ⟨token, rest, rfl, reads⟩
      obtain ⟨later, rfl⟩ := List.head?_eq_some_iff.mp front.symm
      exact starts ⟨token, later, rfl, reads⟩
    obtain ⟨filler, member, reads⟩ := filled
    exact .stuck (.expected what) fails ⟨[filler], (), by simpa using member, fun other _ =>
      ⟨starts_cons.mpr reads, Reader.behind_cons reads _ _ other⟩⟩

/-- A name can be completed with one. -/
theorem name_completes (what : Expectation) :
    Completes (Starts "x") Anything (.of (name what)) := by
  refine ⟨[⟨.identifier, "x", 20⟩], "x", by decide, fun other _ => ⟨starts_cons.mpr rfl, ?_⟩⟩
  exact plain_eq_ok.mpr (gives_name.mpr ⟨_, rfl, ⟨rfl, by decide⟩, rfl⟩)

/-- A name is refused at its token, and any name can stand there instead. -/
theorem name_prompt (what : Expectation) (tokens : List Token) :
    Prompt (Starts "x") Anything (.of (name what)) tokens := by
  cases tokens with
  | nil => exact .empty rfl (name_completes what)
  | cons token rest =>
    rcases Reader.of_name_cons what token with read | ⟨fault, refused⟩
    · exact .next read (.pure token.literal)
    · exact .refused refused (name_completes what)

/-- What follows expressions ends chains of every level. -/
theorem ends_of_starts {levels : Nat} {literal : String} (terminal : literal ∈ terminals)
    (starts : Starts literal tokens) : Ends levels tokens := by
  obtain ⟨token, rest, rfl, rfl⟩ := starts
  exact ends_of_mem_terminals terminal

/-- No other text is in front of tokens that begin with one. -/
theorem Starts.not_starts {literal other : String} (starts : Starts literal tokens)
    (apart : literal ≠ other) : ¬ Starts other tokens := by
  obtain ⟨token, rest, rfl, rfl⟩ := starts
  exact fun also => apart (starts_cons.mp also)

/-- A construct that a text ends. -/
theorem ended_prompt {literal : String} (what : Expectation) (value : α) (tokens : List Token)
    (filled : Filled literal) : Prompt (Starts literal) Anything
      (Reader.bind (.of (expect literal what)) fun _ => Reader.pure value) tokens :=
  (expect_prompt what filled tokens).map fun _ => value

/-- A name stands for a primary expression. -/
theorem primary_completes : Completes (Starts "x") (¬ Starts "(" ·) (.of primary) := by
  refine ⟨[⟨.identifier, "x", 20⟩], .variable "x" none none, by decide, fun other ended =>
    ⟨starts_cons.mpr rfl, plain_eq_ok.mpr ?_⟩⟩
  exact (gives_primary_of_name (by decide) rfl).mpr ⟨by decide, .inl ⟨ended, rfl, rfl⟩⟩

mutual

/-- A chain of a level is prompt where what follows it ends the chains of this level. -/
theorem chain_prompt (level : Level) (tokens : List Token) :
    Prompt (Starts "x") (Ends (level.rank + 1)) (.of (chain level)) tokens := by
  rw [Reader.of_chain]
  exact (operand_prompt level tokens).bind (fun _ ended => ended) fun first rest _ =>
    chainAfter_prompt level first rest
  termination_by 16 * tokens.length + 2 * level.rank + 3

/-- What ends a chain ends its last operand as well. -/
theorem chainAfter_prompt (level : Level) (left : Expr) (tokens : List Token) :
    Prompt (Ends level.rank) (Ends (level.rank + 1)) (.of (chainAfter level left)) tokens := by
  by_cases stops : StopsAt level tokens
  · have unchanged : Prompt (Ends (level.rank + 1)) (Ends (level.rank + 1))
        (.of (chainAfter level left)) tokens :=
      .congr (fun _ _ front stops token member => stops token (front ▸ member))
        (fun _ => Reader.of_chainAfter_of_stopsAt)
        (fun _ ended => ended.stops level (Nat.lt_succ_self _)) stops (.pure left)
    exact unchanged.mono (fun _ ended => ended.mono (Nat.le_succ _)) fun _ ended => ended
  · obtain ⟨sign, later, operator, whole, found⟩ := exists_of_not_stopsAt stops
    have fewer := congrArg List.length whole
    rw [whole]
    have others := (operand_prompt level later).bind (fun _ ended => ended)
      fun right rest within =>
        chainAfter_prompt level (.binary operator left right none) rest
    exact .next (fun _ => Reader.of_chainAfter_cons found) others
  termination_by 16 * tokens.length
  decreasing_by
    · have := level.rank_le
      simp only [List.length_cons] at *
      omega
    · simp only [List.length_cons] at *
      omega

/-- An operand is prompt where what follows it ends the chains of tighter levels. -/
theorem operand_prompt (level : Level) (tokens : List Token) :
    Prompt (Starts "x") (Ends level.rank) (.of (operand level)) tokens := by
  cases next : level.tighter? with
  | some tighter =>
    have lower := Level.rank_lt_of_tighter? next
    rw [Reader.of_operand_of_tighter next]
    exact (chain_prompt tighter tokens).mono (fun _ front => front) fun _ ended => ended.mono lower
  | none =>
    rw [Reader.of_operand_of_last next]
    exact (selection_prompt tokens).mono (fun _ front => front) fun _ ended =>
      ended.mono (Nat.zero_le _)
  termination_by 16 * tokens.length + 2 * level.rank + 2

/-- A selection is prompt where neither a point nor a parenthesis follows it. -/
theorem selection_prompt (tokens : List Token) :
    Prompt (Starts "x") (Ends 0) (.of selection) tokens := by
  rw [Reader.of_selection]
  exact (primary_prompt tokens).bind (fun _ uncalled => uncalled) fun first rest _ =>
    selectionAfter_prompt first rest
  termination_by 16 * tokens.length + 1

/-- So are the members that are selected, unless a parenthesis calls the object. -/
theorem selectionAfter_prompt (receiver : Expr) (tokens : List Token) :
    Prompt (¬ Starts "(" ·) (Ends 0) (.of (selectionAfter receiver)) tokens := by
  rw [Reader.of_selectionAfter]
  have unchanged : Prompt (Ends 0) (Ends 0) (Reader.pure receiver) tokens := .pure receiver
  refine Prompt.mono (.behind (fun _ ended => ended.unselected) ?_ unchanged)
    (fun _ ended => ended.uncalled) fun _ ended => ended
  intro point rest whole
  have fewer := congrArg List.length whole
  refine (name_prompt .memberName rest).anywhere.before fun member rest within =>
    .widen (.behind (fun _ uncalled => uncalled) ?_ (selectionAfter_prompt _ rest))
  intro opening inside whole
  have fewer := congrArg List.length whole
  exact (arguments_prompt inside).anywhere.before fun values rest within =>
    (selectionAfter_prompt _ rest).widen
  termination_by 16 * tokens.length
  decreasing_by all_goals (simp only [List.length_cons] at *; omega)

/-- A primary expression is prompt where no parenthesis follows it. -/
theorem primary_prompt (tokens : List Token) :
    Prompt (Starts "x") (¬ Starts "(" ·) (.of primary) tokens := by
  match tokens with
  | [] => exact .empty Reader.of_primary_nil primary_completes
  | token :: rest =>
    cases Reader.readsPrimary token with
    | word value same => exact .next same (.pure value)
    | name value call same =>
      refine .next same (.behind (fun _ uncalled => uncalled) ?_ (.pure value))
      intro opening inside whole
      have fewer := congrArg List.length whole
      exact ((arguments_prompt inside).map call).anywhere
    | group same =>
      have inside := (chain_prompt .logical rest).bind
        (fun _ => ends_of_starts (show ")" ∈ terminals by decide))
        fun inner behind _ => ended_prompt .groupEnd (Expr.group inner none) behind (by decide)
      exact .next same inside.anywhere
    | refused fault same => exact .refused same primary_completes
  termination_by 16 * tokens.length
  decreasing_by all_goals (simp only [List.length_cons, Level.rank] at *; omega)

/-- Arguments are prompt whatever follows their parenthesis. -/
theorem arguments_prompt (tokens : List Token) :
    Prompt (Starts "x") Anything (.of arguments) tokens := by
  rw [Reader.of_arguments]
  refine .behind (fun _ front => front.not_starts (by decide)) ?_ (argumentsFrom_prompt tokens)
  exact fun _ _ _ => .pure []
  termination_by 16 * tokens.length + 11

/-- One argument or more are prompt whatever follows their parenthesis. -/
theorem argumentsFrom_prompt (tokens : List Token) :
    Prompt (Starts "x") Anything (.of argumentsFrom) tokens := by
  rw [Reader.of_argumentsFrom]
  refine (chain_prompt .logical tokens).bind
    (fun _ => ends_of_starts (show ")" ∈ terminals by decide)) fun first rest within => ?_
  refine .behind (fun _ closed => closed.not_starts (by decide)) ?_
    (ended_prompt .argumentsEnd [first] rest (by decide))
  intro comma later whole
  have fewer := congrArg List.length whole
  exact ((argumentsFrom_prompt later).map _).anywhere
  termination_by 16 * tokens.length + 10
  decreasing_by all_goals (simp only [List.length_cons, Level.rank] at *; omega)

end

/-- An expression is prompt where what follows it ends the chains of every level. -/
theorem expression_prompt (tokens : List Token) :
    Prompt (Starts "x") (Ends 4) (.of expression) tokens :=
  chain_prompt .logical tokens

/-- So is an optional one, if what follows it is not the sign before it either. -/
theorem expressionAfter_prompt {literal : String}
    (ended : ∀ other, ends other → Ends 4 other ∧ ¬ Starts literal other) (tokens : List Token) :
    Prompt ends ends (.of (expressionAfter literal)) tokens := by
  rw [Reader.of_expressionAfter]
  refine .behind (fun other front => (ended other front).2) (fun sign rest whole => ?_) (.pure none)
  exact ((expression_prompt rest).map _).mono (fun _ _ => trivial) fun other front =>
    (ended other front).1

/-- An optional type is prompt where no colon follows it. -/
theorem nameAfterColon_prompt (what : Expectation)
    (ended : ∀ other, ends other → ¬ Starts ":" other)
    (tokens : List Token) : Prompt ends ends (.of (nameAfterColon what)) tokens := by
  rw [Reader.of_nameAfterColon]
  refine .behind ended (fun colon rest whole => ?_) (.pure none)
  exact ((name_prompt what rest).map _).anywhere

/-- A semicolon ends every expression, and none is a sign. -/
theorem ended_of_semicolon {literal : String} (apart : ";" ≠ literal) (other : List Token)
    (front : Starts ";" other) : Ends 4 other ∧ ¬ Starts literal other :=
  ⟨ends_of_starts (by decide) front, front.not_starts apart⟩

/-- An optional value and a semicolon, whatever is before them. -/
theorem valued_prompt (what : Expectation) (make : Option Expr → α) (tokens : List Token) :
    Prompt (Starts ";") Anything (Reader.bind (.of (expressionAfter "=")) fun value =>
      Reader.bind (.of (expect ";" what)) fun _ => Reader.pure (make value)) tokens :=
  (expressionAfter_prompt (ended_of_semicolon (by decide)) tokens).bind (fun _ front => front)
    fun value rest _ => ended_prompt what (make value) rest (by decide)

/-- A declaration is prompt, since its semicolon ends it. -/
theorem declaration_prompt (tokens : List Token) :
    Prompt Anything Anything (.of declaration) tokens := by
  rw [Reader.of_declaration]
  refine (name_prompt .variableName tokens).anywhere.before fun text rest _ => ?_
  exact ((nameAfterColon_prompt .variableType
    (fun _ (front : Starts ";" _) => front.not_starts (by decide)) rest).bind
      (fun _ front => front) fun typeName rest _ => valued_prompt .declarationEnd _ rest).widen

/-- So is the value of a `RETURN` with its semicolon. -/
theorem result_prompt (tokens : List Token) : Prompt Anything Anything (.of result) tokens := by
  rw [Reader.of_result]
  exact ((expression_prompt tokens).bind (fun _ => ends_of_starts (show ";" ∈ terminals by decide))
    fun value rest _ => ended_prompt .resultEnd _ rest (by decide)).widen

/-- So are an assignment and an expression with their semicolons. -/
theorem expressionStatement_prompt (tokens : List Token) :
    Prompt (Starts "x") Anything (.of expressionStatement) tokens := by
  rw [Reader.of_expressionStatement]
  refine (expression_prompt tokens).bind (fun _ => ends_of_starts (show ";" ∈ terminals by decide))
    fun target rest _ => ?_
  exact (expressionAfter_prompt (ended_of_semicolon (by decide)) rest).bind (fun _ front => front)
    fun value rest _ => ended_prompt (Reader.assignedEnd value) _ rest (by decide)

/-- The word that ends a body completes one. -/
theorem block_completes (branch : Bool) : Completes Anything Anything (.of (block branch)) := by
  refine ⟨[⟨.identifier, "END", 16⟩], ([], .done), by decide, fun other _ => ⟨trivial, ?_⟩⟩
  exact Reader.of_block_of_closing (by cases branch <;> decide) other

mutual

/-- The statements of a body are prompt, since a word ends them. -/
theorem block_prompt (branch : Bool) (tokens : List Token) :
    Prompt Anything Anything (.of (block branch)) tokens := by
  match tokens with
  | [] => exact .empty (Reader.of_block_nil branch) (block_completes branch)
  | token :: rest =>
    cases closing : Closing.of? branch token with
    | some ending => exact .next (Reader.of_block_of_closing closing) (.pure ([], ending))
    | none =>
      by_cases blank : token.literal = ";"
      · exact .next (Reader.of_block_of_blank closing blank) (block_prompt branch rest)
      · have others := (statement_prompt (token :: rest)).before fun first behind within =>
          (block_prompt branch behind).map fun found => (first :: found.1, found.2)
        refine .widen (.congr (fun one other front => ?_)
          (fun _ => Reader.of_block_of_continues) ?_ ⟨token, rfl, closing, blank⟩ others)
        · rw [Reader.Continues, front]
          exact id
        · rintro _ ⟨name, later, rfl, named⟩
          refine ⟨name, rfl, ?_, by rw [named]; decide⟩
          cases branch <;> simp [Closing.of?, Token.reads, named]
  termination_by 4 * tokens.length + 1
  decreasing_by all_goals (simp only [List.length_cons] at *; omega)

/-- A body and the statement around it. -/
theorem statement_prompt (tokens : List Token) :
    Prompt (Starts "x") Anything (.of statement) tokens := by
  by_cases plain : Reader.BeginsExpression tokens
  · refine .congr (fun one other front => ?_) (fun _ => Reader.of_statement_of_expression) ?_ plain
      (expressionStatement_prompt tokens)
    · rw [Reader.BeginsExpression, front]
      exact id
    · rintro _ ⟨name, later, rfl, named⟩ token front
      obtain rfl := Option.some.inj front
      rw [named]
      decide
  · obtain ⟨token, rest, whole, word⟩ : ∃ token rest, tokens = token :: rest ∧
        token.literal ∈ statementWords := by
      cases tokens with
      | nil => simp [Reader.BeginsExpression] at plain
      | cons token rest => exact ⟨token, rest, rfl, by simpa [Reader.BeginsExpression] using plain⟩
    have fewer := congrArg List.length whole
    rw [whole]
    simp only [statementWords, List.mem_cons, List.not_mem_nil, or_false] at word
    have condition : Prompt Anything (Ends 4) (.of expression) rest :=
      (expression_prompt rest).widen
    have begun : ∀ other, Starts "DO" other → Ends 4 other := fun _ =>
      ends_of_starts (show "DO" ∈ terminals by decide)
    rcases word with word | word | word | word | word
    · exact .next (fun _ => Reader.of_statement_of_let word) ((declaration_prompt rest).map _)
    · refine .next (fun _ => Reader.of_statement_of_if word)
        (condition.bind begun fun condition rest within => ?_)
      refine (expect_prompt .branchStart (by decide) rest).before fun _ rest within => ?_
      refine (block_prompt true rest).before fun accepted rest within => ?_
      exact (alternative_prompt accepted.2 rest).map _
    · refine .next (fun _ => Reader.of_statement_of_for word)
        ((name_prompt .loopVariable rest).anywhere.before fun text rest within => ?_)
      refine (expect_prompt .loopValue (by decide) rest).anywhere.before fun _ rest within => ?_
      refine ((expression_prompt rest).bind begun fun value rest within => ?_).widen
      refine (expect_prompt .iterationStart (by decide) rest).before fun _ rest within => ?_
      exact (block_prompt false rest).map _
    · refine .next (fun _ => Reader.of_statement_of_while word)
        (condition.bind begun fun condition rest within => ?_)
      refine (expect_prompt .repetitionStart (by decide) rest).before fun _ rest within => ?_
      exact (block_prompt false rest).map _
    · exact .next (fun _ => Reader.of_statement_of_return word) (result_prompt rest)
  termination_by 4 * tokens.length
  decreasing_by all_goals (simp only [List.length_cons] at *; omega)

/-- The other branch of a choice is prompt, if there is one. -/
theorem alternative_prompt (closing : Closing) (tokens : List Token) :
    Prompt Anything Anything (.of (alternative closing)) tokens := by
  cases closing with
  | done =>
    rw [Reader.of_alternative_done]
    exact .pure []
  | otherwise =>
    rw [Reader.of_alternative_otherwise]
    exact (block_prompt false tokens).map _
  termination_by 4 * tokens.length + 2

end

/-- A field is prompt, since its semicolon ends it. -/
theorem field_prompt (tokens : List Token) : Prompt Anything Anything (.of field) tokens := by
  rw [Reader.of_field]
  refine (name_prompt .fieldName tokens).anywhere.before fun text rest _ => ?_
  refine (expect_prompt .fieldColon (by decide) rest).anywhere.before fun _ rest _ => ?_
  refine (name_prompt .fieldType rest).anywhere.before fun typeName rest _ => ?_
  exact (valued_prompt .fieldEnd _ rest).widen

/-- One parameter or more are prompt whatever follows their parenthesis. -/
theorem parametersFrom_prompt (tokens : List Token) :
    Prompt (Starts "x") Anything (.of parametersFrom) tokens := by
  rw [Reader.of_parametersFrom]
  refine (name_prompt .parameterName tokens).before fun text rest _ => ?_
  refine (expect_prompt .parameterColon (by decide) rest).anywhere.before fun _ rest _ => ?_
  refine (name_prompt .parameterType rest).anywhere.before fun typeName rest _ => ?_
  refine .widen (.behind (fun _ closed => closed.not_starts (by decide)) ?_
    (ended_prompt .parametersEnd _ rest (by decide)))
  intro comma later whole
  have fewer := congrArg List.length whole
  exact ((parametersFrom_prompt later).map _).anywhere
  termination_by tokens.length
  decreasing_by all_goals (simp only [List.length_cons] at *; omega)

/-- Parameters are prompt whatever follows their parenthesis. -/
theorem parameters_prompt (tokens : List Token) :
    Prompt Anything Anything (.of parameters) tokens := by
  rw [Reader.of_parameters]
  exact .widen (.behind (fun _ front => front.not_starts (by decide)) (fun _ _ _ => .pure [])
    (parametersFrom_prompt tokens))

/-- A method is prompt, since a word ends its body. -/
theorem method_prompt (tokens : List Token) : Prompt Anything Anything (.of method) tokens := by
  rw [Reader.of_method]
  refine (name_prompt .methodName tokens).anywhere.before fun text rest _ => ?_
  refine (expect_prompt .parametersStart (by decide) rest).anywhere.before fun _ rest _ => ?_
  refine (parameters_prompt rest).before fun parameters rest _ => ?_
  refine ((nameAfterColon_prompt .returnType
    (fun _ (front : Starts "DO" _) => front.not_starts (by decide)) rest).bind
      (fun _ front => front) fun returnTypeName rest _ => ?_).widen
  refine (expect_prompt .methodStart (by decide) rest).before fun _ rest _ => ?_
  exact (block_prompt false rest).map _

/-- Fields are prompt where none follows them. -/
theorem fields_prompt (tokens : List Token) :
    Prompt (¬ Starts "LET" ·) (¬ Starts "LET" ·) (.of fields) tokens := by
  rw [Reader.of_fields]
  refine .behind (fun _ stops => stops) ?_ (.pure [])
  intro word rest whole
  have fewer := congrArg List.length whole
  exact (field_prompt rest).before fun first behind within =>
    ((fields_prompt behind).map _).widen
  termination_by tokens.length
  decreasing_by all_goals (simp only [List.length_cons] at *; omega)

/-- Methods are prompt at the end of the tokens. -/
theorem methods_prompt (tokens : List Token) :
    Prompt (· = []) (· = []) (.of methods) tokens := by
  rw [Reader.of_methods]
  refine .behind ?_ ?_ (.pure [])
  · rintro _ rfl
    exact not_starts_nil
  intro word rest whole
  have fewer := congrArg List.length whole
  exact (method_prompt rest).before fun first behind within =>
    ((methods_prompt behind).map _).widen
  termination_by tokens.length
  decreasing_by all_goals (simp only [List.length_cons] at *; omega)

end LetDef.Parser
