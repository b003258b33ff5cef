import LetDef.Proofs.Agreement.Scopes

/-!
# Lookups of the analysis and lookups of a run

Where a state of the analysis and a state of a run agree, a name is found on both sides in scopes of
the same depth, or on neither side (`Acceptance.Agrees.binder?_eq`). What the analysis finds for a
call, the run finds as well (`Acceptance.Agrees.exists_callable`); `Acceptance.Resolves` lists the
three ways in which the two can belong together.
-/
namespace LetDef

/-- Lists with related items find an item at the same place, or both find none. -/
theorem find?_zip {α β : Type} {first : α → Bool} {second : β → Bool} {known : List α}
    {bound : List β} (sizes : known.length = bound.length)
    (same : ∀ pair ∈ known.zip bound, second pair.2 = first pair.1) :
    (known.find? first = none ∧ bound.find? second = none) ∨
      ∃ pair ∈ known.zip bound, known.find? first = some pair.1 ∧
        bound.find? second = some pair.2 := by
  induction known generalizing bound with
  | nil =>
    rw [List.length_eq_zero_iff.mp sizes.symm]
    exact .inl ⟨rfl, rfl⟩
  | cons one known ih =>
    cases bound with
    | nil => contradiction
    | cons two bound =>
      have here := same (one, two) List.mem_cons_self
      rw [List.zip_cons_cons, List.find?_cons, List.find?_cons, here]
      cases found : first one with
      | true => exact .inr ⟨(one, two), List.mem_cons_self, rfl, rfl⟩
      | false =>
        rcases ih (Nat.succ.inj sizes) fun pair member =>
            same pair (List.mem_cons_of_mem _ member) with neither | ⟨pair, member, both⟩
        · exact .inl neither
        · exact .inr ⟨pair, List.mem_cons_of_mem _ member, both⟩

/-- What the analysis takes a call for and what a run calls belong together: both are a builtin, or
the run calls the method whose slot the analysis has filled with its finding, or the analysis has
found a builtin before a method of the program took its place. -/
inductive Acceptance.Resolves (accepted : Acceptance) (machine : Machine) (name : String)
    (arity : Nat) : Signature → Callable → Prop where
  | builtin {builtin} (found : Builtin.find? name arity = some builtin)
    (free : accepted.program.method? name arity = none ∨
      machine.store.localFunction? machine.globals name arity = none) :
    Resolves accepted machine name arity builtin.signature builtin.callable
  | method {declared signature} (loads : machine.Loads accepted)
    (member : declared ∈ accepted.program.methods) (answers : declared.answers name arity)
    (filled : declared.slot = some signature) :
    Resolves accepted machine name arity signature (.method declared machine.globals)
  | shadowing {builtin declared} (found : Builtin.find? name arity = some builtin)
    (loads : machine.Loads accepted) (member : declared ∈ accepted.program.methods)
    (answers : declared.answers name arity) :
    Resolves accepted machine name arity builtin.signature (.method declared machine.globals)

namespace Acceptance.Agrees

variable {accepted : Acceptance} {analyzer : Analyzer} {machine : Machine} {name : String}
variable {arity : Nat}

/-- A name is bound in scopes of the same depth, or on neither side. -/
theorem binder?_eq (agrees : accepted.Agrees analyzer machine) (name : String) :
    (analyzer.store.binder? analyzer.active name = none ∧
        machine.store.binder? machine.active name = none) ∨
      ∃ pair ∈ pairedScopes analyzer machine,
        analyzer.store.binder? analyzer.active name = some pair.1 ∧
          machine.store.binder? machine.active name = some pair.2 :=
  find?_zip agrees.depth fun _ member => agrees.isSome_eq member name

/-- A variable that the analysis has found holds an admitted value, in the scope of the same
depth. -/
theorem exists_value (agrees : accepted.Agrees analyzer machine) {entry : Variable}
    (found : analyzer.findVariable? name = some entry) :
    ∃ pair ∈ pairedScopes analyzer machine, ∃ value,
      analyzer.store.binder? analyzer.active name = some pair.1 ∧
      machine.store.binder? machine.active name = some pair.2 ∧
      analyzer.store.localVariable? pair.1 name = some entry ∧
      machine.store.localVariable? pair.2 name = some value ∧
      machine.findVariable? name = some value ∧ accepted.Admits entry.type value := by
  rw [Analyzer.findVariable?, Store.findVariable?_eq_binder?] at found
  rcases agrees.binder?_eq name with ⟨missing, _⟩ | ⟨pair, member, known, bound⟩
  · rw [missing] at found
    contradiction
  · rw [known, Option.bind_some] at found
    have related := agrees.values pair member name
    rw [found] at related
    generalize held : machine.store.localVariable? pair.2 name = content at related
    cases related with
    | some admitted =>
      refine ⟨pair, member, _, known, bound, found, held, ?_, admitted⟩
      rw [Machine.findVariable?, Store.findVariable?_eq_binder?, bound, Option.bind_some, held]

/-- A variable that the analysis has found can be overwritten with an admitted value. -/
theorem assign (agrees : accepted.Agrees analyzer machine) {entry : Variable} {value : Value}
    (found : analyzer.findVariable? name = some entry)
    (admitted : accepted.Admits entry.type value) :
    ∃ after, machine.assign name value = (true, after) ∧ accepted.Agrees analyzer after := by
  obtain ⟨binders, bindersMember, _, _, bound, known, _⟩ := agrees.exists_value found
  have assigned := Machine.assign_eq machine name value
  rw [bound] at assigned
  refine ⟨_, assigned, ?_⟩
  have becomes : machine.Becomes machine.Outer [] _ := Machine.Becomes.ofAssign assigned
  have old := lt_size_of_mem_pairedScopes agrees.live agrees.liveRun bindersMember
  refine agrees.become becomes fun pair member other declared content knownOther held => ?_
  replace held : (machine.store.bindVariable binders.2 name value).localVariable? pair.2 other =
    some content := held
  rw [Store.localVariable?_bindVariable old.2] at held
  split at held
  next same =>
    injection held with held
    have both := (pairedScopes_unique member bindersMember).mpr same.1
    rw [both, same.2, known] at knownOther
    injection knownOther with knownOther
    exact held ▸ knownOther ▸ admitted
  next =>
    have related := agrees.values pair member other
    rw [knownOther, held] at related
    cases related with
    | some admits => exact admits

/-- What the analysis finds for a call, the run finds as well. -/
theorem exists_callable (agrees : accepted.Agrees analyzer machine) {signature : Signature}
    (found : analyzer.findFunction? name arity = some signature) :
    ∃ callable, machine.findFunction? name arity = some callable ∧
      accepted.Resolves machine name arity signature callable := by
  rw [Analyzer.findFunction?, agrees.standing.nested.findFunction?_eq,
    agrees.standing.functions] at found
  rw [Machine.findFunction?, agrees.running.nested.findFunction?_eq, agrees.running.functions]
  rcases agrees.phase with ⟨none, blank⟩ | ⟨knows, loads⟩
  · rw [none, Option.none_or] at found
    obtain ⟨builtin, isBuiltin, rfl⟩ := Option.map_eq_some_iff.mp found
    rw [blank, Option.none_or, isBuiltin]
    exact ⟨builtin.callable, rfl, .builtin isBuiltin (.inr (blank name arity))⟩
  · rw [loads]
    cases known : analyzer.store.localFunction? analyzer.globals name arity with
    | some inner =>
      rw [known] at found
      injection found with same
      subst same
      obtain ⟨declared, member, answers, filled⟩ := knows.functions name arity inner known
      rw [accepted.method?_eq_some_iff.mpr ⟨member, answers⟩]
      exact ⟨_, rfl, .method loads member answers filled⟩
    | none =>
      rw [known, Option.none_or] at found
      obtain ⟨builtin, isBuiltin, rfl⟩ := Option.map_eq_some_iff.mp found
      cases answered : accepted.program.method? name arity with
      | none =>
        rw [isBuiltin]
        exact ⟨builtin.callable, rfl, .builtin isBuiltin (.inl answered)⟩
      | some declared =>
        obtain ⟨member, answers⟩ := accepted.method?_eq_some_iff.mp answered
        exact ⟨_, rfl, .shadowing isBuiltin loads member answers⟩

end Acceptance.Agrees

end LetDef
