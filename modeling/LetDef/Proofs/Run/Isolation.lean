import LetDef.Proofs.Run.Frames
import LetDef.Proofs.Run.Lockstep
import Mathlib.Data.List.Forall2

/-!
# Calls are isolated from the scope in which they happen

A method runs in a new scope inside the one that it was defined in, whatever scope is active when
it is called. Two machines that agree on the global scope and the scopes around it, on the output
and on objects may differ in all other scopes, of which they may have made different numbers. If a
method of a common scope is called in both, scopes that are made as late in one call as in the other
stand for each other (`Linked`), and both calls go in step (`coupling_beside`).
-/
namespace LetDef

namespace Store

variable {V F : Type}

/-- From a frame of a lookup the lookup goes on as it does from there. -/
theorem ancestors_of_mem {store : Store V F} {id other : FrameId}
    (member : other ∈ store.ancestors id) :
    store.ancestors other = (store.ancestors id).filter (· ≤ other) := by
  have all : ∀ id, store.ancestors id = (store.ancestors id).filter (· ≤ id) := fun id =>
    (List.filter_eq_self.mpr fun _ behind => decide_eq_true (le_of_mem_ancestors behind)).symm
  induction id using Nat.strongRecOn with
  | ind id ih =>
    by_cases same : other = id
    · exact same ▸ all other
    · cases found : store.parent? id with
      | none =>
        rw [ancestors_of_none found] at member
        exact absurd (List.mem_singleton.mp member) same
      | some parent =>
        rw [ancestors_of_some found] at member
        rw [ancestors_of_some found]
        have older := parent?_lt found
        have behind := (List.mem_cons.mp member).resolve_left same
        have low := le_of_mem_ancestors behind
        have young := Nat.not_le_of_lt (Nat.lt_of_le_of_lt low older)
        rw [List.filter_cons_of_neg (by simpa using young)]
        exact ih parent older behind

/-- From a new frame the lookup goes nowhere if the frame around it is dead. -/
theorem ancestors_child_of_dead {store : Store V F} {parent : FrameId}
    (dead : store.isLive parent = false) :
    (store.child parent).2.ancestors store.frames.size = [store.frames.size] := by
  refine ancestors_of_none ?_
  simp only [parent?, getElem?_child, if_pos, Option.filter_some]
  by_cases old : parent < store.frames.size
  · simp only [decide_eq_true old, if_true, Option.filter_some, isLive_child old, dead,
      Bool.false_eq_true, if_false]
  · simp only [decide_eq_false old, Bool.false_eq_true, if_false, Option.filter_none]

/-- A frame that has not been made binds no variable. -/
theorem localVariable?_of_size_le {store : Store V F} {id : FrameId}
    (absent : store.frames.size ≤ id) (name : String) : store.localVariable? id name = none := by
  rw [localVariable?, Array.getElem?_eq_none_iff.mpr absent, Option.bind_none]

/-- A frame that has not been made has no function. -/
theorem localFunction?_of_size_le {store : Store V F} {id : FrameId}
    (absent : store.frames.size ≤ id) (name : String) (arity : Nat) :
    store.localFunction? id name arity = none := by
  rw [localFunction?, Array.getElem?_eq_none_iff.mpr absent, Option.bind_none]

end Store

/-- A scope of one machine and the scope of another that stands for it: a common scope stands for
itself, and of the scopes that have been made since there were `first` in the one machine and
`second` in the other, each stands for the one that was made as late. -/
inductive Linked (common : List FrameId) (first second : Nat) : FrameId → FrameId → Prop where
  /-- It is common to both. -/
  | common {id} (shared : id ∈ common) : Linked common first second id id
  /-- It has been made since. -/
  | made (count : Nat) : Linked common first second (first + count) (second + count)

/-- The callable is a function of the host or a method of a common scope. -/
def Callable.Shared (common : List FrameId) : Callable → Prop
  | .native _ => True
  | .method _ closure => closure ∈ common

/-- Two machines agree on the host, on objects and on common scopes, and are in scopes that stand
for each other, as all scopes around them do. -/
structure Machine.Beside (common : List FrameId) (first second : Nat) (one other : Machine) :
    Prop where
  /-- They have the same output and the same fields of objects. -/
  host : one.host = other.host
  /-- Objects have the same methods. -/
  methods : one.methods = other.methods
  /-- They have the same base scope. -/
  base : one.base = other.base
  /-- They have the same global scope. -/
  globals : one.globals = other.globals
  /-- Common scopes are older than the scopes that stand for each other. -/
  older : ∀ id ∈ common, id < first ∧ id < second
  /-- As many scopes have been made in both. -/
  sizes : ∃ count, one.store.frames.size = first + count ∧ other.store.frames.size = second + count
  /-- The same scopes are around common scopes, and these are common. -/
  around : ∀ id ∈ common, one.store.ancestors id = other.store.ancestors id ∧
    one.store.ancestors id ⊆ common
  /-- The same common scopes are alive. -/
  live : ∀ id ∈ common, one.store.isLive id = other.store.isLive id
  /-- The active scopes are alive or not alike. -/
  awake : one.store.isLive one.active = other.store.isLive other.active
  /-- The active scopes exist. -/
  placed : one.active < one.store.frames.size ∧ other.active < other.store.frames.size
  /-- The scopes of a lookup stand for each other. -/
  path : List.Forall₂ (Linked common first second) (one.store.ancestors one.active)
    (other.store.ancestors other.active)
  /-- Scopes that stand for each other have the same variables. -/
  values : ∀ {id place}, Linked common first second id place → ∀ name,
    one.store.localVariable? id name = other.store.localVariable? place name
  /-- Scopes that stand for each other have the same functions. -/
  functions : ∀ {id place}, Linked common first second id place → ∀ name arity,
    one.store.localFunction? id name arity = other.store.localFunction? place name arity

namespace Machine.Beside

variable {common : List FrameId} {first second : Nat} {one other after later : Machine}

/-- The active scopes stand for each other. -/
theorem linked (beside : Beside common first second one other) :
    Linked common first second one.active other.active := by
  obtain ⟨rest, chain⟩ := one.store.ancestors_eq_cons one.active
  obtain ⟨rest', chain'⟩ := other.store.ancestors_eq_cons other.active
  have path := beside.path
  rw [chain, chain'] at path
  exact (List.forall₂_cons.mp path).1

/-- Two scopes are the same if and only if those that stand for them are. -/
theorem eq_iff (beside : Beside common first second one other) {id place id' place' : FrameId}
    (linked : Linked common first second id place)
    (linked' : Linked common first second id' place') : id = id' ↔ place = place' := by
  have apart : ∀ count, ∀ id ∈ common, id ≠ first + count ∧ id ≠ second + count := by
    intro count id shared
    have older := beside.older id shared
    exact ⟨Nat.ne_of_lt (Nat.lt_add_right count older.1),
      Nat.ne_of_lt (Nat.lt_add_right count older.2)⟩
  cases linked with
  | common shared =>
    cases linked' with
    | common => exact Iff.rfl
    | made count => exact iff_of_false (apart count _ shared).1 (apart count _ shared).2
  | made count =>
    cases linked' with
    | common shared =>
      exact iff_of_false (apart count _ shared).1.symm (apart count _ shared).2.symm
    | made => exact Nat.add_left_cancel_iff.trans Nat.add_left_cancel_iff.symm

/-- The scopes that are made next stand for each other. -/
theorem linked_size (beside : Beside common first second one other) :
    Linked common first second one.store.frames.size other.store.frames.size := by
  obtain ⟨count, size, size'⟩ := beside.sizes
  rw [size, size']
  exact .made count

/-- Common scopes exist. -/
theorem old (beside : Beside common first second one other) {id : FrameId} (shared : id ∈ common) :
    id < one.store.frames.size ∧ id < other.store.frames.size := by
  obtain ⟨count, size, size'⟩ := beside.sizes
  have older := beside.older id shared
  rw [size, size']
  exact ⟨Nat.lt_add_right count older.1, Nat.lt_add_right count older.2⟩

/-- What leaves both machines where they are, with the same host and the same variables, keeps them
beside each other. -/
theorem carry (beside : Beside common first second one other) (resumes : one.Resumes after)
    (resumes' : other.Resumes later) (host : after.host = later.host)
    (sizes : ∃ count, after.store.frames.size = first + count ∧
      later.store.frames.size = second + count)
    (values : ∀ {id place}, Linked common first second id place → ∀ name,
      after.store.localVariable? id name = later.store.localVariable? place name) :
    Beside common first second after later := by
  refine ⟨host, ?_, ?_, ?_, beside.older, sizes, fun id shared => ?_, fun id shared => ?_, ?_, ?_,
    ?_, values, fun linked name arity => ?_⟩
  · rw [resumes.methods, resumes'.methods, beside.methods]
  · rw [resumes.base, resumes'.base, beside.base]
  · rw [resumes.globals, resumes'.globals, beside.globals]
  · rw [resumes.store.ancestors_eq (beside.old shared).1,
      resumes'.store.ancestors_eq (beside.old shared).2]
    exact beside.around id shared
  · rw [resumes.store.isLive_eq (beside.old shared).1,
      resumes'.store.isLive_eq (beside.old shared).2]
    exact beside.live id shared
  · rw [resumes.active, resumes'.active, resumes.store.isLive_eq beside.placed.1,
      resumes'.store.isLive_eq beside.placed.2]
    exact beside.awake
  · rw [resumes.active, resumes'.active]
    exact ⟨Nat.lt_of_lt_of_le beside.placed.1 resumes.store.size_le,
      Nat.lt_of_lt_of_le beside.placed.2 resumes'.store.size_le⟩
  · rw [resumes.active, resumes'.active, resumes.store.ancestors_eq beside.placed.1,
      resumes'.store.ancestors_eq beside.placed.2]
    exact beside.path
  · rw [resumes.store.localFunction?_eq, resumes'.store.localFunction?_eq]
    exact beside.functions linked name arity

/-- A variable may get the same value in scopes that stand for each other. -/
theorem bind (beside : Beside common first second one other) {id place : FrameId}
    (linked : Linked common first second id place) (old : id < one.store.frames.size)
    (old' : place < other.store.frames.size) (name : String) (value : Value) :
    Beside common first second { one with store := one.store.bindVariable id name value }
      { other with store := other.store.bindVariable place name value } := by
  refine beside.carry (Resumes.ofBindVariable id name value)
    (Resumes.ofBindVariable place name value) beside.host ?_ fun also own => ?_
  · simpa only [Store.bindVariable, Store.size_update] using beside.sizes
  · have same := beside.eq_iff also linked
    simp only [Store.localVariable?_bindVariable old, Store.localVariable?_bindVariable old', same,
      beside.values also own]

/-- The same variables are found. -/
theorem findVariable?_eq (beside : Beside common first second one other) (name : String) :
    one.findVariable? name = other.findVariable? name := by
  have path := beside.path
  unfold Machine.findVariable? Store.findVariable?
  generalize one.store.ancestors one.active = chain,
    other.store.ancestors other.active = chain' at path
  induction path with
  | nil => rfl
  | cons linked _ ih => rw [List.findSome?_cons, List.findSome?_cons, beside.values linked, ih]

/-- The same functions are found. -/
theorem findFunction?_eq (beside : Beside common first second one other) (name : String)
    (arity : Nat) : one.findFunction? name arity = other.findFunction? name arity := by
  have path := beside.path
  unfold Machine.findFunction? Store.findFunction?
  generalize one.store.ancestors one.active = chain,
    other.store.ancestors other.active = chain' at path
  induction path with
  | nil => rfl
  | cons linked _ ih => rw [List.findSome?_cons, List.findSome?_cons, beside.functions linked, ih]

/-- A name is bound in scopes that stand for each other, or in none. -/
theorem binder?_eq (beside : Beside common first second one other) (name : String) :
    (one.store.binder? one.active name = none ∧ other.store.binder? other.active name = none) ∨
      ∃ id place, one.store.binder? one.active name = some id ∧
        other.store.binder? other.active name = some place ∧
        Linked common first second id place := by
  have path := beside.path
  unfold Store.binder?
  generalize one.store.ancestors one.active = chain,
    other.store.ancestors other.active = chain' at path
  induction path with
  | nil => exact .inl ⟨rfl, rfl⟩
  | @cons id place _ _ linked _ ih =>
    rw [List.find?_cons, List.find?_cons, beside.values linked]
    cases (other.store.localVariable? place name).isSome with
    | true => exact .inr ⟨id, place, rfl, rfl, linked⟩
    | false => exact ih

/-- A new scope may be entered in both machines. -/
theorem enter (beside : Beside common first second one other) :
    Beside common first second one.enter other.enter where
  host := beside.host
  methods := beside.methods
  base := beside.base
  globals := beside.globals
  older := beside.older
  sizes := by
    obtain ⟨count, size, size'⟩ := beside.sizes
    refine ⟨count + 1, (Store.size_child _ _).trans ?_, (Store.size_child _ _).trans ?_⟩
    · rw [size, Nat.add_assoc]
    · rw [size', Nat.add_assoc]
  around id shared := by
    have old := beside.old shared
    show (one.store.child one.active).2.ancestors id =
        (other.store.child other.active).2.ancestors id ∧
      (one.store.child one.active).2.ancestors id ⊆ common
    rw [Store.ancestors_child old.1, Store.ancestors_child old.2]
    exact beside.around id shared
  live id shared := by
    have old := beside.old shared
    exact (Store.isLive_child old.1).trans
      ((beside.live id shared).trans (Store.isLive_child old.2).symm)
  awake := Store.isLive_child_self.trans Store.isLive_child_self.symm
  placed := by
    have sizes := Store.size_child one.store one.active
    have sizes' := Store.size_child other.store other.active
    exact ⟨Nat.lt_of_lt_of_eq (Nat.lt_succ_self _) sizes.symm,
      Nat.lt_of_lt_of_eq (Nat.lt_succ_self _) sizes'.symm⟩
  path := by
    show List.Forall₂ _ ((one.store.child one.active).2.ancestors one.store.frames.size)
      ((other.store.child other.active).2.ancestors other.store.frames.size)
    have awake := beside.awake
    cases live : other.store.isLive other.active with
    | true =>
      rw [Store.ancestors_child_self live, Store.ancestors_child_self (awake.trans live)]
      exact .cons beside.linked_size beside.path
    | false =>
      rw [Store.ancestors_child_of_dead live, Store.ancestors_child_of_dead (awake.trans live)]
      exact .cons beside.linked_size .nil
  values {id place} linked name := by
    have same := beside.eq_iff linked beside.linked_size
    show (one.store.child one.active).2.localVariable? id name =
      (other.store.child other.active).2.localVariable? place name
    simp only [Store.localVariable?_child, same, beside.values linked]
  functions linked name arity :=
    (Store.localFunction?_child name arity).trans
      ((beside.functions linked name arity).trans (Store.localFunction?_child name arity).symm)

/-- A common scope may be retained and become the active one. -/
theorem retain (beside : Beside common first second one other) {closure : FrameId}
    (shared : closure ∈ common) (live : one.store.isLive closure) :
    Beside common first second { one with store := one.store.retain closure, active := closure }
      { other with store := other.store.retain closure, active := closure } := by
  have lives := beside.live closure shared
  have live' : other.store.isLive closure := lives ▸ live
  refine ⟨beside.host, beside.methods, beside.base, beside.globals, beside.older, ?_,
    fun id also => ?_, fun id also => ?_, ?_, ?_, ?_, fun linked name => ?_,
    fun linked name arity => ?_⟩
  · simpa only [Store.retain, Store.size_update] using beside.sizes
  · simp only [Store.ancestors_retain live, Store.ancestors_retain live']
    exact beside.around id also
  · simp only [Store.isLive_retain live, Store.isLive_retain live']
    exact beside.live id also
  · simp only [Store.isLive_retain live, Store.isLive_retain live', lives]
  · simp only [Store.retain, Store.size_update]
    exact beside.old shared
  · have around := beside.around closure shared
    simp only [Store.ancestors_retain live, Store.ancestors_retain live', ← around.1]
    exact List.forall₂_same.mpr fun id member => .common (around.2 member)
  · simp only [Store.localVariable?_retain]
    exact beside.values linked name
  · simp only [Store.localFunction?_retain]
    exact beside.functions linked name arity

/-- The host may act in both machines. -/
theorem act (beside : Beside common first second one other) (host : Host) :
    Beside common first second { one with host } { other with host } :=
  beside.carry (Resumes.ofHost host) (Resumes.ofHost host) rfl beside.sizes
    fun linked => beside.values linked

/-- Both machines may go back from a scope that has been entered in both. -/
theorem leave (beside : Beside common first second one other) (resumes : one.enter.Resumes after)
    (resumes' : other.enter.Resumes later) (inner : Beside common first second after later) :
    Beside common first second (after.leave one.active) (later.leave other.active) := by
  refine beside.carry (Resumes.ofEntered resumes) (Resumes.ofEntered resumes') inner.host ?_
    fun linked name => ?_
  · simpa only [Machine.leave, Store.release, Store.size_update] using inner.sizes
  · simp only [Machine.leave, Store.localVariable?_release]
    exact inner.values linked name

/-- Both machines may go back from the scope of a method that has been entered in both. -/
theorem leaveMethod (beside : Beside common first second one other) {closure : FrameId}
    (resumes : (one.enterMethod closure).Resumes after)
    (resumes' : (other.enterMethod closure).Resumes later)
    (inner : Beside common first second after later) :
    Beside common first second (after.leaveMethod closure one.active)
      (later.leaveMethod closure other.active) := by
  refine beside.carry (Resumes.ofEnteredMethod resumes) (Resumes.ofEnteredMethod resumes')
    inner.host ?_ fun linked name => ?_
  · simpa only [Machine.leaveMethod, Machine.leave, Store.release, Store.size_update] using
      inner.sizes
  · simp only [Machine.leaveMethod, Machine.leave, Store.localVariable?_release]
    exact inner.values linked name

end Machine.Beside

/-- Machines beside each other go in step as long as they call methods of common scopes. -/
theorem coupling_beside (common : List FrameId) (first second : Nat) :
    Coupling (Callable.Shared common) (Machine.Beside common first second)
      fun _ _ _ => False where
  value beside := beside.findVariable?_eq
  function beside := beside.findFunction?_eq
  field beside owner name := by
    cases owner <;> simp only [Machine.field, beside.host]
  method beside owner name arity := by
    cases owner <;> simp only [Machine.method, beside.methods]
  live beside shared := beside.live _ shared
  define {one other} beside name value := by
    rw [Machine.define_eq, Machine.define_eq, beside.values beside.linked]
    split
    · exact ⟨rfl, beside⟩
    · exact ⟨rfl, beside.bind beside.linked beside.placed.1 beside.placed.2 name value⟩
  assign {one other} beside name value := by
    rw [Machine.assign_eq, Machine.assign_eq]
    rcases beside.binder?_eq name with ⟨none, none'⟩ | ⟨id, place, found, found', linked⟩
    · rw [none, none']
      exact ⟨rfl, beside⟩
    · rw [found, found']
      have low := Store.le_of_mem_ancestors (List.mem_of_find?_eq_some found)
      have low' := Store.le_of_mem_ancestors (List.mem_of_find?_eq_some found')
      exact ⟨rfl, beside.bind linked (Nat.lt_of_le_of_lt low beside.placed.1)
        (Nat.lt_of_le_of_lt low' beside.placed.2) name value⟩
  assignField {one other} beside owner name value := by
    cases owner with
    | object typeName place =>
      rcases assigned : other.host.assign place name value with ⟨success, host⟩
      simp only [Machine.assignField, Machine.onHost, beside.host, assigned]
      cases success <;> exact ⟨rfl, beside.act host⟩
    | _ => exact ⟨rfl, beside⟩
  native {one other run} beside _ arguments := by
    rcases acted : run other.host arguments with ⟨result, host⟩
    simp only [Machine.onHost, beside.host, acted]
    cases result with
    | ok value => exact .done (beside.act host)
    | error error => exact .failed (beside.act host)
  enter beside := beside.enter
  leave beside resumes resumes' inner := beside.leave resumes resumes' inner
  enterMethod beside shared live := (beside.retain shared live).enter
  leaveMethod beside _ _ resumes resumes' inner := beside.leaveMethod resumes resumes' inner
  onward _ apart := apart.elim
  onwardField apart := apart.elim

end LetDef
