import LetDef.Proofs.Scope.Shelter
import Mathlib.Logic.Relation

/-!
# Nested scopes

What the operations on scopes mean to a program that has them only through handles (`Scopes`). A
frame is alive as long as there is a handle on it. From a scope, a name stands for the binding of
the nearest frame that binds it, the scope itself or one around it (`Store.Nearest`), where a dead
frame ends the search. A definition adds one binding to one frame, and an assignment overwrites the
one binding that a lookup finds, from wherever it is looked up; variables and functions do not touch
each other. These laws (`Scopes.Lawful`) hold after all operations.
-/
namespace LetDef

open Relation (TransGen ReflTransGen)

namespace Store

variable {V F α : Type} {store before after : Store V F} {id frame other : FrameId}

/-- The second frame is the live frame around the first. -/
def Around (store : Store V F) (id outer : FrameId) : Prop :=
  store.parent? id = some outer

/-- Of the frames from a scope outwards, this is the first that binds something. -/
inductive Nearest (store : Store V F) (bound : FrameId → Option α) : FrameId → FrameId → Prop where
  | here {scope} (binds : (bound scope).isSome) : Nearest store bound scope scope
  | around {scope outer found} (free : bound scope = none) (around : store.Around scope outer)
    (nearest : Nearest store bound outer found) : Nearest store bound scope found

/-- What lies around a frame is older. -/
theorem lt_of_around (around : TransGen store.Around id other) : other < id := by
  induction around with
  | single around => exact parent?_lt around
  | tail _ around ih => exact Nat.lt_trans (parent?_lt around) ih

/-- From every scope outwards there is a last frame. -/
theorem exists_outermost (store : Store V F) (id : FrameId) :
    ∃ last, ReflTransGen store.Around id last ∧ store.parent? last = none := by
  induction id using Nat.strongRecOn with
  | ind id ih =>
    cases found : store.parent? id with
    | none => exact ⟨id, .refl, found⟩
    | some outer =>
      obtain ⟨last, path, ends⟩ := ih outer (parent?_lt found)
      exact ⟨last, .head found path, ends⟩

section Lookup

variable {bound : FrameId → Option α}

/-- The frames of a lookup are searched for the nearest one. -/
theorem find?_ancestors_eq_some :
    (store.ancestors id).find? (fun frame => (bound frame).isSome) = some frame ↔
      store.Nearest bound id frame := by
  induction id using Nat.strongRecOn with
  | ind id ih =>
    cases here : bound id with
    | some value =>
      obtain ⟨rest, first⟩ := store.ancestors_eq_cons id
      rw [first, List.find?_cons_of_pos (by simp [here])]
      constructor
      · rintro ⟨⟩
        exact .here (by simp [here])
      · intro nearest
        cases nearest with
        | here => rfl
        | around free => simp [here] at free
    | none =>
      cases found : store.parent? id with
      | none =>
        rw [ancestors_of_none found, List.find?_cons_of_neg (by simp [here]), List.find?_nil]
        refine ⟨fun nothing => by contradiction, fun nearest => ?_⟩
        cases nearest with
        | here binds => simp [here] at binds
        | around _ around => simp [Around, found] at around
      | some outer =>
        rw [ancestors_of_some found, List.find?_cons_of_neg (by simp [here]),
          ih outer (parent?_lt found)]
        refine ⟨.around here found, fun nearest => ?_⟩
        cases nearest with
        | here binds => simp [here] at binds
        | around _ around nearest =>
          obtain rfl := Option.some.inj (found.symm.trans around)
          exact nearest

/-- What is found first is what the nearest frame binds. -/
theorem findSome?_ancestors_eq_some {value : α} :
    (store.ancestors id).findSome? bound = some value ↔
      ∃ frame, store.Nearest bound id frame ∧ bound frame = some value := by
  simp only [findSome?_ancestors, Option.bind_eq_some_iff, find?_ancestors_eq_some]

/-- The nearest frame binds what is looked for. -/
theorem Nearest.binds (nearest : store.Nearest bound id frame) : (bound frame).isSome := by
  induction nearest with
  | here binds => exact binds
  | around _ _ _ ih => exact ih

/-- What is nearest depends on which frames bind something and on what is around them. -/
theorem Nearest.congr {bounds : FrameId → Option α} (nearest : before.Nearest bound id frame)
    (around : ∀ id, after.parent? id = before.parent? id)
    (same : ∀ id, (bounds id).isSome = (bound id).isSome) : after.Nearest bounds id frame := by
  induction nearest with
  | here binds => exact .here ((same _).trans binds)
  | @around scope outer _ free linked _ ih =>
    refine .around (Option.not_isSome_iff_eq_none.mp ?_) ((around scope).trans linked) ih
    rw [same, free]
    exact Bool.false_ne_true

end Lookup

/-- The frames bind just these variables and functions, and nothing else has changed. -/
structure Rebinds (before after : Store V F) (values : FrameId → String → Option V)
    (functions : FrameId → String → Nat → Option F) : Prop where
  /-- The same frames are around the frames. -/
  around : ∀ id, after.parent? id = before.parent? id
  /-- The same frames are alive. -/
  live : ∀ id, after.isLive id = before.isLive id
  /-- These are the variables of each frame. -/
  values : ∀ id name, after.localVariable? id name = values id name
  /-- These are the functions of each frame. -/
  functions : ∀ id name arity, after.localFunction? id name arity = functions id name arity

namespace Rebinds

variable {values : FrameId → String → Option V} {functions : FrameId → String → Nat → Option F}

/-- A lookup passes the same frames. -/
theorem ancestors (rebinds : before.Rebinds after values functions) (id : FrameId) :
    after.ancestors id = before.ancestors id :=
  ancestors_congr fun other _ => rebinds.around other

/-- Where the functions stay, so do all lookups of functions. -/
theorem findFunction? (rebinds : before.Rebinds after values before.localFunction?)
    (id : FrameId) (name : String) (arity : Nat) :
    after.findFunction? id name arity = before.findFunction? id name arity := by
  simp only [Store.findFunction?, rebinds.ancestors, rebinds.functions]

/-- Where the variables stay, so do all lookups of variables. -/
theorem findVariable? (rebinds : before.Rebinds after before.localVariable? functions)
    (id : FrameId) (name : String) :
    after.findVariable? id name = before.findVariable? id name := by
  simp only [Store.findVariable?, rebinds.ancestors, rebinds.values]

end Rebinds

/-- The variables of the frames, with another value for one variable of one frame. -/
def withVariable (store : Store V F) (id : FrameId) (name : String) (value : V) (other : FrameId)
    (own : String) : Option V :=
  if other = id ∧ own = name then some value else store.localVariable? other own

/-- The functions of the frames, with another function of one frame. -/
def withFunction (store : Store V F) (id : FrameId) (name : String) (arity : Nat) (function : F)
    (other : FrameId) (own : String) (parameters : Nat) : Option F :=
  if other = id ∧ own = name ∧ parameters = arity then some function
  else store.localFunction? other own parameters

/-- Binding a variable changes this variable of this frame alone. -/
theorem rebinds_bindVariable (old : id < store.frames.size) (name : String) (value : V) :
    store.Rebinds (store.bindVariable id name value) (store.withVariable id name value)
      store.localFunction? where
  around other := parent?_update store id other fun _ => rfl
  live other := isLive_update store id other fun _ => rfl
  values other own := localVariable?_bindVariable old other name own value
  functions other own arity := by
    rw [localFunction?, localFunction?, bindVariable, getElem?_update]
    split
    · cases store.frames[other]? <;> rfl
    · rfl

/-- Binding a function changes this function of this frame alone. -/
theorem rebinds_bindFunction (old : id < store.frames.size) (name : String) (arity : Nat)
    (function : F) :
    store.Rebinds (store.bindFunction id name arity function) store.localVariable?
      (store.withFunction id name arity function) where
  around other := parent?_update store id other fun _ => rfl
  live other := isLive_update store id other fun _ => rfl
  values _ own := localVariable?_bindFunction own
  functions _ own parameters := localFunction?_bindFunction old own parameters

/-- An attempt fails if something is in its way, and then it changes nothing. If nothing is, it
succeeds, and this is what it does. -/
structure Attempts (store : Store V F) (hindered : Prop) (does : Store V F → Prop)
    (result : Bool × Store V F) : Prop where
  /-- It fails if and only if it is hindered. -/
  fails : result.1 = false ↔ hindered
  /-- A failure changes nothing. -/
  unchanged : result.1 = false → result.2 = store
  /-- A success does this. -/
  changed : result.1 = true → does result.2

/-- What an attempt does may be said in another way. -/
theorem Attempts.imp {hindered : Prop} {does did : Store V F → Prop} {result : Bool × Store V F}
    (attempts : store.Attempts hindered does result) (weaker : ∀ later, does later → did later) :
    store.Attempts hindered did result :=
  ⟨attempts.fails, attempts.unchanged, fun succeeds => weaker _ (attempts.changed succeeds)⟩

/-- A variable is defined unless the frame itself binds it, and then the frame has one more. -/
theorem attempts_defineVariable (old : id < store.frames.size) (name : String) (value : V) :
    store.Attempts (store.localVariable? id name).isSome
      (store.Rebinds · (store.withVariable id name value) store.localFunction?)
      (store.defineVariable id name value) := by
  unfold defineVariable
  split
  next bound => exact ⟨by simp [bound], fun _ => rfl, by simp⟩
  next free => exact ⟨by simp [free], by simp, fun _ => rebinds_bindVariable old name value⟩

/-- A function is defined unless the frame itself has one of the name with as many parameters, and
then the frame has one more. -/
theorem attempts_defineFunction (old : id < store.frames.size) (name : String) (arity : Nat)
    (function : F) :
    store.Attempts (store.localFunction? id name arity).isSome
      (store.Rebinds · store.localVariable? (store.withFunction id name arity function))
      (store.defineFunction id name arity function) := by
  unfold defineFunction
  split
  next bound => exact ⟨by simp [bound], fun _ => rfl, by simp⟩
  next free =>
    exact ⟨by simp [free], by simp, fun _ => rebinds_bindFunction old name arity function⟩

/-- The variable that one frame has under a name has got a value, and whoever looks up that variable
finds the value, and nobody else finds anything else than before. -/
structure Overwrites (before after : Store V F) (frame : FrameId) (name : String) (value : V) : Prop
    where
  /-- Only that variable has changed. -/
  rebinds : before.Rebinds after (before.withVariable frame name value) before.localFunction?
  /-- Scopes from which that frame is the nearest find the value. -/
  seen : ∀ scope, before.Nearest (before.localVariable? · name) scope frame →
    after.findVariable? scope name = some value
  /-- Other scopes, and all scopes for other names, find what they did. -/
  unseen : ∀ scope own,
    ¬ (own = name ∧ before.Nearest (before.localVariable? · name) scope frame) →
      after.findVariable? scope own = before.findVariable? scope own

/-- A change of a variable that was bound is seen where that variable is looked up. -/
theorem overwrites_bindVariable {name : String}
    (bound : (store.localVariable? frame name).isSome) (value : V) :
    store.Overwrites (store.bindVariable frame name value) frame name value := by
  have old : frame < store.frames.size := by
    refine Nat.lt_of_not_le fun new => ?_
    have missing : store.frames[frame]? = none := Array.getElem?_eq_none_iff.mpr new
    simp [localVariable?, missing] at bound
  have rebinds := rebinds_bindVariable old name value
  have same : ∀ other own, ((store.bindVariable frame name value).localVariable? other own).isSome =
      (store.localVariable? other own).isSome := by
    intro other own
    rw [rebinds.values, withVariable]
    split
    next both =>
      obtain ⟨rfl, rfl⟩ := both
      rw [bound, Option.isSome_some]
    next => rfl
  refine ⟨rebinds, fun scope nearest => ?_, fun scope own others => ?_⟩
  · refine findSome?_ancestors_eq_some.mpr ⟨frame, nearest.congr rebinds.around (same · name), ?_⟩
    rw [rebinds.values, withVariable, if_pos ⟨rfl, rfl⟩]
  · refine Option.ext fun found => ?_
    simp only [Store.findVariable?, findSome?_ancestors_eq_some]
    -- The nearest frame is the same one, and it is another frame or is asked for another name.
    have kept : ∀ nearest, store.Nearest (store.localVariable? · own) scope nearest →
        (store.bindVariable frame name value).localVariable? nearest own =
          store.localVariable? nearest own := by
      intro nearest reached
      rw [rebinds.values, withVariable, if_neg]
      rintro ⟨rfl, rfl⟩
      exact others ⟨rfl, reached⟩
    constructor
    · rintro ⟨nearest, reached, value⟩
      have before := reached.congr (fun id => (rebinds.around id).symm) fun id => (same id own).symm
      exact ⟨nearest, before, (kept nearest before).symm.trans value⟩
    · rintro ⟨nearest, reached, value⟩
      exact ⟨nearest, reached.congr rebinds.around (same · own), (kept nearest reached).trans value⟩

/-- A value is assigned unless the lookup finds nothing, and then what the lookup found is
overwritten. -/
theorem attempts_assignVariable (store : Store V F) (id : FrameId) (name : String) (value : V) :
    store.Attempts (store.findVariable? id name = none)
      (fun after => ∃ frame, store.Nearest (store.localVariable? · name) id frame ∧
        store.Overwrites after frame name value) (store.assignVariable id name value) := by
  unfold assignVariable
  cases found : store.binder? id name with
  | none =>
    have nothing : store.findVariable? id name = none := by
      rw [findVariable?_eq_binder?, found, Option.bind_none]
    exact ⟨by simp [nothing], fun _ => rfl, by simp⟩
  | some frame =>
    have nearest : store.Nearest (store.localVariable? · name) id frame :=
      find?_ancestors_eq_some.mp found
    have bound : (store.localVariable? frame name).isSome := nearest.binds
    have something : store.findVariable? id name ≠ none := by
      rw [findVariable?_eq_binder?, found, Option.bind_some]
      exact Option.isSome_iff_ne_none.mp bound
    exact ⟨by simp [something], by simp,
      fun _ => ⟨frame, nearest, overwrites_bindVariable bound value⟩⟩

end Store

/-- Scopes and the handles on them. -/
structure Scopes (V F : Type) where
  /-- All scopes. -/
  store : Store V F
  /-- The scopes on which there are handles, each as often as there are. -/
  handles : List FrameId

namespace Scopes

variable {V F : Type} {scopes : Scopes V F}

/-- Something done with scopes, through a handle if there is a scope in it. -/
inductive Operation (V F : Type) where
  /-- Make a scope that stands alone. -/
  | root
  /-- Make a scope inside another. -/
  | child (scope : FrameId)
  /-- Make another handle on a scope. -/
  | copy (scope : FrameId)
  /-- Make a handle on the scope around another, if that is alive. -/
  | parent (scope : FrameId)
  /-- Give a handle up. -/
  | drop (scope : FrameId)
  /-- Define a variable. -/
  | defineVariable (scope : FrameId) (name : String) (value : V)
  /-- Define a function. -/
  | defineFunction (scope : FrameId) (name : String) (arity : Nat) (function : F)
  /-- Assign a value to a variable. -/
  | assignVariable (scope : FrameId) (name : String) (value : V)

/-- Does something with a scope on which there is a handle. -/
def perform (scopes : Scopes V F) : Operation V F → Scopes V F
  | .root =>
    let (scope, store) := scopes.store.root
    ⟨store, scope :: scopes.handles⟩
  | .child scope =>
    let (inner, store) := scopes.store.child scope
    ⟨store, inner :: scopes.handles⟩
  | .copy scope => ⟨scopes.store.retain scope, scope :: scopes.handles⟩
  | .parent scope =>
    match scopes.store.parent? scope with
    | none => scopes
    | some outer => ⟨scopes.store.retain outer, outer :: scopes.handles⟩
  | .drop scope => ⟨scopes.store.release scope, scopes.handles.erase scope⟩
  | .defineVariable scope name value =>
    { scopes with store := (scopes.store.defineVariable scope name value).2 }
  | .defineFunction scope name arity function =>
    { scopes with store := (scopes.store.defineFunction scope name arity function).2 }
  | .assignVariable scope name value =>
    { scopes with store := (scopes.store.assignVariable scope name value).2 }

/-- The scope that an operation needs a handle on. -/
def Operation.scope? : Operation V F → Option FrameId
  | .root => none
  | .child scope | .copy scope | .parent scope | .drop scope | .defineVariable scope _ _
  | .defineFunction scope _ _ _ | .assignVariable scope _ _ => some scope

/-- Carries out an operation. Without a handle on its scope there is nothing that it could be
carried out on. -/
def step (scopes : Scopes V F) (operation : Operation V F) : Scopes V F :=
  if ∀ scope ∈ operation.scope?, scope ∈ scopes.handles then scopes.perform operation else scopes

/-- The scopes after some operations, from none at all. -/
def after (operations : List (Operation V F)) : Scopes V F :=
  operations.foldl step ⟨.empty, []⟩

/-- The laws of nested scopes. -/
structure Lawful (scopes : Scopes V F) : Prop where
  /-- A scope is alive as long as there is a handle on it. -/
  alive : ∀ id, scopes.store.isLive id ↔ id ∈ scopes.handles
  /-- No scope lies around itself. -/
  acyclic : ∀ id, ¬ TransGen scopes.store.Around id id
  /-- Every lookup comes to a scope with no live scope around it. -/
  ends : ∀ id, ∃ last, ReflTransGen scopes.store.Around id last ∧ scopes.store.parent? last = none
  /-- A variable has the value that it has in the nearest scope with such a variable. -/
  values : ∀ id ∈ scopes.handles, ∀ name value,
    scopes.store.findVariable? id name = some value ↔
      ∃ frame, scopes.store.Nearest (scopes.store.localVariable? · name) id frame ∧
        scopes.store.localVariable? frame name = some value
  /-- A function is the one of the nearest scope with such a function. -/
  functions : ∀ id ∈ scopes.handles, ∀ name arity function,
    scopes.store.findFunction? id name arity = some function ↔
      ∃ frame, scopes.store.Nearest (scopes.store.localFunction? · name arity) id frame ∧
        scopes.store.localFunction? frame name arity = some function
  /-- Defining a variable fails if the scope itself has it, and then changes nothing; otherwise the
  scope has that variable and nothing else changes. -/
  defineVariable : ∀ id ∈ scopes.handles, ∀ name value,
    scopes.store.Attempts (scopes.store.localVariable? id name).isSome
      (fun later => scopes.store.Rebinds later (scopes.store.withVariable id name value)
          scopes.store.localFunction? ∧
        ∀ other own arity, later.findFunction? other own arity =
          scopes.store.findFunction? other own arity)
      (scopes.store.defineVariable id name value)
  /-- Defining a function fails if the scope itself has it, and then changes nothing; otherwise the
  scope has that function and nothing else changes. -/
  defineFunction : ∀ id ∈ scopes.handles, ∀ name arity function,
    scopes.store.Attempts (scopes.store.localFunction? id name arity).isSome
      (fun later => scopes.store.Rebinds later scopes.store.localVariable?
          (scopes.store.withFunction id name arity function) ∧
        ∀ other own, later.findVariable? other own = scopes.store.findVariable? other own)
      (scopes.store.defineFunction id name arity function)
  /-- Assigning a value fails if the lookup finds nothing, and then changes nothing; otherwise the
  variable that the lookup found has the value, for everyone who finds that variable, and nothing
  else changes. -/
  assignVariable : ∀ id ∈ scopes.handles, ∀ name value,
    scopes.store.Attempts (scopes.store.findVariable? id name = none)
      (fun later => ∃ frame, scopes.store.Nearest (scopes.store.localVariable? · name) id frame ∧
        scopes.store.Overwrites later frame name value ∧
        ∀ other own arity, later.findFunction? other own arity =
          scopes.store.findFunction? other own arity)
      (scopes.store.assignVariable id name value)

/-- Every frame has as many owners as there are handles on it. -/
def Counted (scopes : Scopes V F) : Prop :=
  ∀ id, scopes.store.owners id = scopes.handles.count id

/-- A scope with a handle on it is alive, and the others are dead. -/
theorem Counted.isLive_iff (counted : scopes.Counted) (id : FrameId) :
    scopes.store.isLive id ↔ id ∈ scopes.handles := by
  rw [Store.isLive_iff_owners, counted id, List.count_pos_iff]

/-- A scope with a handle on it is in the store. -/
theorem Counted.lt_size (counted : scopes.Counted) {id : FrameId} (held : id ∈ scopes.handles) :
    id < scopes.store.frames.size :=
  Store.lt_size_of_isLive ((counted.isLive_iff id).mpr held)

/-- There is no handle on a scope that is not yet there. -/
theorem Counted.count_size (counted : scopes.Counted) :
    scopes.handles.count scopes.store.frames.size = 0 :=
  List.count_eq_zero_of_not_mem fun held => Nat.lt_irrefl _ (counted.lt_size held)

/-- With a new scope there is a handle on it. -/
theorem Counted.add (counted : scopes.Counted) {store : Store V F}
    (added : ∀ id, store.owners id =
      if id = scopes.store.frames.size then 1 else scopes.store.owners id) :
    Counted ⟨store, scopes.store.frames.size :: scopes.handles⟩ := by
  intro id
  rw [added, List.count_cons]
  by_cases new : id = scopes.store.frames.size
  · rw [if_pos new, new, counted.count_size, if_pos (beq_self_eq_true _)]
  · rw [if_neg new, counted id, if_neg (by simpa using fun same => new same.symm), Nat.add_zero]

/-- With a new handle a scope has one more owner. -/
theorem Counted.retain (counted : scopes.Counted) {scope : FrameId}
    (live : scopes.store.isLive scope) :
    Counted ⟨scopes.store.retain scope, scope :: scopes.handles⟩ := by
  intro id
  rw [Store.owners_retain (Store.lt_size_of_isLive live), counted id, List.count_cons]
  simp only [beq_iff_eq]

/-- Without a handle a scope has one owner less. -/
theorem Counted.release (counted : scopes.Counted) (scope : FrameId) :
    Counted ⟨scopes.store.release scope, scopes.handles.erase scope⟩ := by
  intro id
  rw [Store.owners_release, counted id, List.count_erase]
  by_cases same : scope = id <;> simp [same]

/-- With the same owners and the same handles the counts stay right. -/
theorem Counted.keep (counted : scopes.Counted) {store : Store V F}
    (same : ∀ id, store.owners id = scopes.store.owners id) : Counted ⟨store, scopes.handles⟩ :=
  fun id => (same id).trans (counted id)

/-- The counts stay right. -/
theorem Counted.step (counted : scopes.Counted) (operation : Operation V F) :
    (scopes.step operation).Counted := by
  unfold Scopes.step
  split
  next held =>
    cases operation with
    | root => exact counted.add Store.owners_root
    | child scope => exact counted.add fun _ => Store.owners_child scope
    | copy scope => exact counted.retain ((counted.isLive_iff scope).mpr (held scope rfl))
    | parent scope =>
      rw [perform]
      split
      next => exact counted
      next outer around => exact counted.retain (Store.isLive_of_parent? around)
    | drop scope => exact counted.release scope
    | defineVariable scope name value =>
      refine counted.keep fun id => ?_
      unfold Store.defineVariable
      split
      · rfl
      · exact Store.owners_bindVariable scope name value
    | defineFunction scope name arity function =>
      refine counted.keep fun id => ?_
      unfold Store.defineFunction
      split
      · rfl
      · exact Store.owners_bindFunction scope name arity function
    | assignVariable scope name value =>
      refine counted.keep fun id => ?_
      unfold Store.assignVariable
      split
      · rfl
      · exact Store.owners_bindVariable _ name value
  next => exact counted

/-- After any operations the counts are right. -/
theorem counted_after (operations : List (Operation V F)) : (after operations).Counted := by
  have run : ∀ (operations : List (Operation V F)) (scopes : Scopes V F), scopes.Counted →
      (operations.foldl step scopes).Counted := by
    intro operations
    induction operations with
    | nil => exact fun _ counted => counted
    | cons operation rest ih => exact fun scopes counted => ih _ (counted.step operation)
  exact run operations _ fun id => rfl

/-- After any operations, scopes obey the laws of nested scopes. -/
theorem lawful_after (operations : List (Operation V F)) : (after operations).Lawful := by
  have counted := counted_after operations
  refine ⟨counted.isLive_iff, fun id around => Nat.lt_irrefl id (Store.lt_of_around around),
    Store.exists_outermost _, fun _ _ _ _ => Store.findSome?_ancestors_eq_some,
    fun _ _ _ _ _ => Store.findSome?_ancestors_eq_some, ?_, ?_, ?_⟩
  · intro id held name value
    exact (Store.attempts_defineVariable (counted.lt_size held) name value).imp
      fun later rebinds => ⟨rebinds, rebinds.findFunction?⟩
  · intro id held name arity function
    exact (Store.attempts_defineFunction (counted.lt_size held) name arity function).imp
      fun later rebinds => ⟨rebinds, rebinds.findVariable?⟩
  · intro id _ name value
    exact (Store.attempts_assignVariable _ id name value).imp
      fun later ⟨frame, nearest, overwrites⟩ =>
        ⟨frame, nearest, overwrites, overwrites.rebinds.findFunction?⟩

/-- Two scopes inside one that has a variable, of which the first has one of that name as well: a
value assigned from the second is for the outer variable, so the first does not see it. -/
theorem lawful_after_siblings :
    let scopes : Scopes Nat Nat := after [.root, .child 0, .child 0, .defineVariable 0 "x" 1,
      .defineVariable 1 "x" 2]
    2 ∈ scopes.handles ∧
      scopes.store.Attempts (scopes.store.findVariable? 2 "x" = none)
        (fun later => ∃ frame,
          scopes.store.Nearest (scopes.store.localVariable? · "x") 2 frame ∧
          scopes.store.Overwrites later frame "x" 3 ∧
          ∀ other own arity, later.findFunction? other own arity =
            scopes.store.findFunction? other own arity)
        (scopes.store.assignVariable 2 "x" 3) :=
  ⟨by decide +kernel, (lawful_after _).assignVariable 2 (by decide +kernel) "x" 3⟩

/-- Behind a scope whose last handle was given up, nothing is found. -/
example :
    let scopes : Scopes Nat Nat := after [.root, .child 0, .child 1, .defineVariable 0 "x" 1]
    scopes.store.findVariable? 2 "x" = some 1 ∧
      (scopes.step (.drop 1)).store.findVariable? 2 "x" = none := by
  decide +kernel

end Scopes

end LetDef
