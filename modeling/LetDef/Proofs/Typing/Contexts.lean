import LetDef.Proofs.Typing.Acceptance
import LetDef.Proofs.Typing.Judgment

/-!
# Contexts of the rules and states of the analysis

A context describes a state of the analysis if the scopes that names are looked up in have the
variables of the frames of the context, one by one, and the global scope has its methods
(`Context.Describes`). Then names are found alike on both sides, and a variable can be added on one
side exactly if it can on the other. Entering a scope and adding a variable or a method lead to
described states, and so does everything that leaves the scopes around it alone: where a scope is
given up, the context from before it describes the state again.
-/
namespace LetDef

/-- These frames have these variables, in this order. -/
def Store.Holds (store : Store Variable Signature) : List FrameId → List (List Variable) → Prop
  | [], [] => True
  | id :: ids, frame :: frames =>
    (∀ name, store.localVariable? id name = frame.find? fun held => held.name = name) ∧
      store.Holds ids frames
  | _, _ => False

namespace Store.Holds

variable {before after : Store Variable Signature} {ids : List FrameId}
variable {frames : List (List Variable)}

/-- Frames that bind what they did have the variables that they had. -/
theorem congr (holds : before.Holds ids frames)
    (same : ∀ id ∈ ids, ∀ name, after.localVariable? id name = before.localVariable? id name) :
    after.Holds ids frames := by
  induction ids generalizing frames with
  | nil => cases frames <;> exact holds
  | cons id ids ih =>
    cases frames with
    | nil => exact holds
    | cons frame frames =>
      obtain ⟨sameFirst, sameRest⟩ := List.forall_mem_cons.mp same
      exact ⟨fun name => (sameFirst name).trans (holds.1 name), ih holds.2 sameRest⟩

/-- The nearest variable of a name is the same on both sides. -/
theorem findSome?_eq (holds : before.Holds ids frames) (name : String) :
    ids.findSome? (before.localVariable? · name) =
      frames.findSome? fun frame => frame.find? fun held => held.name = name := by
  induction ids generalizing frames with
  | nil =>
    cases frames with
    | nil => rfl
    | cons frame frames => exact holds.elim
  | cons id ids ih =>
    cases frames with
    | nil => exact holds.elim
    | cons frame frames =>
      rw [List.findSome?_cons, List.findSome?_cons, holds.1 name, ih holds.2]

end Store.Holds

namespace Context

/-- The frames of the context, and an empty one for the base scope. -/
def frames (context : Context) : List (List Variable) :=
  context.inner :: context.outer ++ [[]]

/-- The context is what the analysis has in scope in this state. -/
structure Describes (context : Context) (analyzer : Analyzer) : Prop where
  /-- The state stands. -/
  standing : analyzer.Standing
  /-- The types are the built-in ones. -/
  types : analyzer.types = .builtins
  /-- The results of the method are of the same type. -/
  returns : analyzer.returns = context.returns
  /-- The scopes that are looked up have the variables of the frames. -/
  holds : analyzer.store.Holds (analyzer.store.ancestors analyzer.active) context.frames
  /-- The functions of the global scope are the methods. -/
  functions : ∀ name arity, analyzer.store.localFunction? analyzer.globals name arity =
    context.methods.find? fun held => held.name = name && held.arity = arity

/-- At the beginning nothing but the builtins is in scope. -/
theorem describes_start : start.Describes .fresh where
  standing := Analyzer.fresh_standing
  types := rfl
  returns := rfl
  holds := by
    have made : Analyzer.fresh.store.ancestors Analyzer.fresh.active = [1, 0] :=
      Store.ancestors_of_frames Analyzer.frames_fresh
    have unbound := Store.localVariable?_of_frames Analyzer.frames_fresh
    rw [made]
    exact ⟨unbound 1, unbound 0, trivial⟩
  functions := Store.localFunction?_of_frames Analyzer.frames_fresh _

namespace Describes

variable {context : Context} {analyzer after : Analyzer}

/-- The active scope is there. -/
theorem active_lt (describes : context.Describes analyzer) :
    analyzer.active < analyzer.store.frames.size :=
  Store.lt_size_of_isLive describes.standing.nested.live

/-- A variable is found where the rules find it. -/
theorem findVariable?_eq (describes : context.Describes analyzer) (name : String) :
    analyzer.findVariable? name = context.findVariable? name := by
  have found := describes.holds.findSome?_eq name
  rw [frames, List.findSome?_append] at found
  have none : [([] : List Variable)].findSome? (fun frame => frame.find? fun held =>
    held.name = name) = none := rfl
  rw [none, Option.or_none] at found
  exact found

/-- A function is found where the rules find it. -/
theorem findFunction?_eq (describes : context.Describes analyzer) (name : String) (arity : Nat) :
    analyzer.findFunction? name arity = context.findFunction? name arity := by
  rw [Analyzer.findFunction?, describes.standing.nested.findFunction?_eq, describes.functions,
    describes.standing.functions, findFunction?]

/-- The active scope binds a name exactly if it is not free. -/
theorem free_iff (describes : context.Describes analyzer) {name : String} :
    context.Free name ↔ analyzer.store.localVariable? analyzer.active name = none := by
  obtain ⟨rest, lookup⟩ := analyzer.store.ancestors_eq_cons analyzer.active
  have holds := describes.holds
  rw [lookup] at holds
  rw [holds.1 name, List.find?_eq_none, Free]
  simp only [decide_eq_true_eq, ne_eq]

/-- The global scope has a function exactly if it is not undefined. -/
theorem undefined_iff (describes : context.Describes analyzer) {name : String} {arity : Nat} :
    context.Undefined name arity ↔
      analyzer.store.localFunction? analyzer.globals name arity = none := by
  rw [describes.functions, List.find?_eq_none, Undefined]
  simp only [Bool.and_eq_true, decide_eq_true_eq]

/-- Where the scopes are as they were, they are described as they were. -/
theorem extend (describes : context.Describes analyzer) (extension : analyzer.Extends after) :
    context.Describes after where
  standing := describes.standing.grow extension.grows
  types := extension.types.trans describes.types
  returns := extension.returns.trans describes.returns
  holds := by
    rw [extension.active, extension.store.ancestors_eq describes.active_lt]
    refine describes.holds.congr fun id member name => extension.localVariable?_eq ?_ name
    exact Nat.lt_of_le_of_lt (Store.le_of_mem_ancestors member) describes.active_lt
  functions name arity := by
    rw [extension.globals, extension.store.localFunction?_eq]
    exact describes.functions name arity

/-- In a new scope a new frame is described. -/
theorem enter (describes : context.Describes analyzer) :
    context.enter.Describes analyzer.enter where
  standing := describes.standing.enter
  types := describes.types
  returns := describes.returns
  holds := by
    show (analyzer.store.child analyzer.active).2.Holds
      ((analyzer.store.child analyzer.active).2.ancestors analyzer.store.frames.size) _
    rw [Store.ancestors_child_self describes.standing.nested.live]
    refine ⟨fun name => ?_, describes.holds.congr fun id member name => ?_⟩
    · rw [Store.localVariable?_child, if_pos rfl]
      rfl
    · have old := Nat.lt_of_le_of_lt (Store.le_of_mem_ancestors member) describes.active_lt
      rw [Store.localVariable?_child, if_neg (Nat.ne_of_lt old)]
  functions name arity :=
    (Store.localFunction?_child name arity).trans (describes.functions name arity)

/-- A variable that has been added is described. -/
theorem bind (describes : context.Describes analyzer) {entry : Variable}
    (defined : analyzer.define entry = (.ok (), after)) : (context.bind entry).Describes after := by
  have grown := Analyzer.Grows.ofDefine defined
  refine ⟨describes.standing.grow grown, grown.types.trans describes.types,
    grown.returns.trans describes.returns, ?_, fun name arity => ?_⟩
  · obtain ⟨_, rfl⟩ := Analyzer.define_eq_ok.mp defined
    obtain ⟨rest, lookup⟩ := analyzer.store.ancestors_eq_cons analyzer.active
    -- The scopes around the active one were made before it, so none of them is changed.
    have sorted := analyzer.store.ancestors_sorted analyzer.active
    have holds := describes.holds
    rw [grown.active, grown.store.ancestors_eq describes.active_lt]
    rw [lookup] at holds sorted ⊢
    have bound := Store.localVariable?_bindVariable describes.active_lt
    refine ⟨fun name => ?_, holds.2.congr fun id member name => ?_⟩
    · rw [bound, holds.1 name]
      show _ = (entry :: context.inner).find? _
      rw [List.find?_cons]
      by_cases same : name = entry.name
      · simp [same]
      · simp [same, Ne.symm same]
    · have older := Nat.ne_of_lt ((List.pairwise_cons.mp sorted).1 id member)
      rw [bound, if_neg fun both => older both.1]
  · rw [grown.globals, grown.store.localFunction?_eq]
    exact describes.functions name arity

/-- A variable can be added where the rules let it be. -/
theorem exists_define (describes : context.Describes analyzer) (entry : Variable)
    (free : context.Free entry.name) : ∃ after, analyzer.define entry = (.ok (), after) :=
  ⟨_, Analyzer.define_eq_ok.mpr ⟨describes.free_iff.mp free, rfl⟩⟩

/-- A variable has been added where the rules let it be. -/
theorem free_of_define (describes : context.Describes analyzer) {entry : Variable}
    (defined : analyzer.define entry = (.ok (), after)) : context.Free entry.name :=
  describes.free_iff.mpr (Analyzer.define_eq_ok.mp defined).1

/-- Variables that have been added one after the other are described. -/
theorem bindAll {entries : List Variable} {context : Context} {analyzer after : Analyzer}
    (describes : context.Describes analyzer)
    (defined : analyzer.defineAll entries = (.ok (), after)) :
    (entries.map Variable.name).Nodup ∧ (∀ entry ∈ entries, context.Free entry.name) ∧
      (context.bindAll entries).Describes after := by
  induction entries generalizing context analyzer with
  | nil =>
    cases defined
    exact ⟨List.nodup_nil, List.forall_mem_nil _, describes⟩
  | cons first rest ih =>
    cases begun : analyzer.define first with
    | mk result between =>
      simp only [Analyzer.defineAll, begun] at defined
      cases result with
      | error error => cases defined
      | ok done =>
        obtain ⟨distinct, free, described⟩ := ih (describes.bind begun) defined
        have apart : ∀ entry ∈ rest, first.name ≠ entry.name ∧ context.Free entry.name :=
          fun entry member => List.forall_mem_cons.mp (free entry member)
        refine ⟨List.nodup_cons.mpr ⟨fun again => ?_, distinct⟩, ?_, described⟩
        · obtain ⟨entry, member, same⟩ := List.mem_map.mp again
          exact (apart entry member).1 same.symm
        · exact List.forall_mem_cons.mpr
            ⟨describes.free_of_define begun, fun entry member => (apart entry member).2⟩

/-- Variables with different names that are free can be added one after the other. -/
theorem exists_defineAll {entries : List Variable} {context : Context} {analyzer : Analyzer}
    (describes : context.Describes analyzer) (distinct : (entries.map Variable.name).Nodup)
    (free : ∀ entry ∈ entries, context.Free entry.name) :
    ∃ after, analyzer.defineAll entries = (.ok (), after) := by
  induction entries generalizing context analyzer with
  | nil => exact ⟨analyzer, rfl⟩
  | cons first rest ih =>
    obtain ⟨freeFirst, freeRest⟩ := List.forall_mem_cons.mp free
    obtain ⟨new, others⟩ := List.nodup_cons.mp distinct
    obtain ⟨between, begun⟩ := describes.exists_define first freeFirst
    have apart : ∀ entry ∈ rest, (context.bind first).Free entry.name := fun entry member =>
      List.forall_mem_cons.mpr
        ⟨fun same => new (List.mem_map.mpr ⟨entry, member, same.symm⟩), freeRest entry member⟩
    obtain ⟨after, ended⟩ := ih (describes.bind begun) others apart
    exact ⟨after, by rw [Analyzer.defineAll, begun]; exact ended⟩

/-- A method that has been added is described. -/
theorem define (describes : context.Describes analyzer)
    (resting : analyzer.active = analyzer.globals) {function : Signature}
    (defined : analyzer.defineFunction function = (.ok (), after)) :
    (context.define function).Describes after ∧ after.active = after.globals := by
  obtain ⟨_, same⟩ := Analyzer.defineFunction_eq_ok.mp defined
  have old := Store.lt_size_of_isLive describes.standing.nested.liveGlobals
  obtain ⟨standing, rested⟩ := describes.standing.defineFunction resting defined
  refine ⟨⟨standing, ?_, ?_, ?_, fun name arity => ?_⟩, rested⟩
  · rw [same]
    exact describes.types
  · rw [same]
    exact describes.returns
  · rw [same]
    show (analyzer.store.bindFunction _ _ _ _).Holds
      ((analyzer.store.bindFunction _ _ _ _).ancestors analyzer.active) _
    rw [Store.ancestors_bindFunction]
    exact describes.holds.congr fun _ _ name => Store.localVariable?_bindFunction name
  · rw [same, resting]
    show (analyzer.store.bindFunction _ _ _ _).localFunction? analyzer.globals name arity =
      (function :: context.methods).find? _
    rw [Store.localFunction?_bindFunction old, List.find?_cons, ← describes.functions name arity]
    by_cases both : name = function.name ∧ arity = function.arity
    · simp [both]
    · have other : (decide (function.name = name) && decide (function.arity = arity)) = false := by
        rw [Bool.eq_false_iff, ne_eq, Bool.and_eq_true, decide_eq_true_eq, decide_eq_true_eq]
        exact fun all => both ⟨all.1.symm, all.2.symm⟩
      rw [if_neg fun all => both all.2, other]

/-- Where a method begins, the type of its results is described. -/
theorem returning (describes : context.Describes analyzer) (type : Ty) :
    (context.returning type).Describes { analyzer with returns := some type } where
  standing := ⟨describes.standing.nested, describes.standing.bare, describes.standing.locals,
    describes.standing.functions⟩
  types := describes.types
  returns := rfl
  holds := describes.holds
  functions := describes.functions

end Describes

end Context

end LetDef
