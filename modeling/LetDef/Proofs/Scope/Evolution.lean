import LetDef.Proofs.Scope.Preservation

/-!
# How scopes change

Analysing and running a program change a store in one way only: new frames without functions are
made, and the variables of frames change. `Store.Evolves` says so, with what happens to the
variables of each frame left open. A body evolves the store around it even though its own frame is
given up at its end, and so does the body of a method, which owns the scope of the method while it
runs. `Store.Nested` describes the scopes of a program without a host: whatever is active lies
inside the global scope, and only that and the base scope have functions.
-/
namespace LetDef

variable {V F : Type}

/-- The frame around a frame, its functions and its owners stay, and its variables change as
`values` says. -/
structure Frame.Kept (values : Bindings String V → Bindings String V → Prop)
    (before after : Frame V F) : Prop where
  /-- The same frame is around it. -/
  parent : after.parent = before.parent
  /-- It has the same functions. -/
  functions : after.functions = before.functions
  /-- It has as many owners. -/
  owners : after.owners = before.owners
  /-- Its variables have changed like this. -/
  values : values before.values after.values

namespace Store

/-- New frames have been made, none of them with functions, and of the older ones only the
variables have changed, in each frame as `values` says. -/
structure Evolves (values : FrameId → Bindings String V → Bindings String V → Prop)
    (before after : Store V F) : Prop where
  /-- No frame is lost. -/
  size_le : before.frames.size ≤ after.frames.size
  /-- Every frame is kept. -/
  kept : ∀ (id : FrameId) (frame : Frame V F), before.frames[id]? = some frame →
    ∃ later, after.frames[id]? = some later ∧ frame.Kept (values id) later
  /-- New frames have no functions. -/
  bare : ∀ (id : FrameId) (frame : Frame V F), before.frames.size ≤ id →
    after.frames[id]? = some frame → frame.functions = .empty

section Evolution

variable {values former latter : FrameId → Bindings String V → Bindings String V → Prop}
variable {before middle after store : Store V F}

/-- Nothing need change. -/
theorem Evolves.refl (stays : ∀ id own, values id own own) (store : Store V F) :
    store.Evolves values store where
  size_le := Nat.le_refl _
  kept id frame held := ⟨frame, held, rfl, rfl, rfl, stays id frame.values⟩
  bare id frame new held := by
    have old := (Array.getElem?_eq_some_iff.mp held).1
    omega

/-- Two changes one after the other are one change. -/
theorem Evolves.trans (first : before.Evolves former middle) (second : middle.Evolves latter after)
    (joined : ∀ id, id < before.frames.size → ∀ one two three,
      former id one two → latter id two three → values id one three) :
    before.Evolves values after where
  size_le := Nat.le_trans first.size_le second.size_le
  kept id frame held := by
    obtain ⟨between, heldBetween, kept⟩ := first.kept id frame held
    obtain ⟨later, heldLater, keptLater⟩ := second.kept id between heldBetween
    have old := (Array.getElem?_eq_some_iff.mp held).1
    refine ⟨later, heldLater, ?_, ?_, ?_, joined id old _ _ _ kept.values keptLater.values⟩
    · rw [keptLater.parent, kept.parent]
    · rw [keptLater.functions, kept.functions]
    · rw [keptLater.owners, kept.owners]
  bare id frame new held := by
    by_cases old : id < middle.frames.size
    · obtain ⟨between, heldBetween⟩ : ∃ between, middle.frames[id]? = some between :=
        ⟨middle.frames[id], Array.getElem?_eq_getElem old⟩
      obtain ⟨later, heldLater, kept⟩ := second.kept id between heldBetween
      rw [held] at heldLater
      injection heldLater with same
      rw [same, kept.functions]
      exact first.bare id between new heldBetween
    · exact second.bare id frame (Nat.le_of_not_lt old) held

/-- What is said of the variables may be weakened. -/
theorem Evolves.mono (evolves : before.Evolves former after)
    (weaker : ∀ id, id < before.frames.size → ∀ one two, former id one two → values id one two) :
    before.Evolves values after where
  size_le := evolves.size_le
  kept id frame held := by
    obtain ⟨later, heldLater, kept⟩ := evolves.kept id frame held
    have old := (Array.getElem?_eq_some_iff.mp held).1
    exact ⟨later, heldLater, kept.parent, kept.functions, kept.owners,
      weaker id old _ _ kept.values⟩
  bare := evolves.bare

/-- An evolution preserves the store. -/
theorem Evolves.preserves (evolves : before.Evolves values after) : before.Preserves after where
  size_le := evolves.size_le
  kept id frame held := by
    obtain ⟨later, heldLater, kept⟩ := evolves.kept id frame held
    exact ⟨later, heldLater, kept.parent, kept.owners⟩

/-- A frame of the store stays alive or dead. -/
theorem Evolves.isLive_eq (evolves : before.Evolves values after) {id : FrameId}
    (old : id < before.frames.size) : after.isLive id = before.isLive id :=
  evolves.preserves.isLive_eq old

/-- A frame is looked up through the same frames. -/
theorem Evolves.ancestors_eq (evolves : before.Evolves values after) {id : FrameId}
    (old : id < before.frames.size) : after.ancestors id = before.ancestors id :=
  evolves.preserves.ancestors_eq old

/-- No frame gains or loses a function. -/
theorem Evolves.localFunction?_eq (evolves : before.Evolves values after) (id : FrameId)
    (name : String) (arity : Nat) :
    after.localFunction? id name arity = before.localFunction? id name arity := by
  by_cases old : id < before.frames.size
  · have held : before.frames[id]? = some before.frames[id] := Array.getElem?_eq_getElem old
    obtain ⟨later, heldLater, kept⟩ := evolves.kept id _ held
    simp only [localFunction?, held, heldLater, Option.bind_some, kept.functions]
  · have missing : before.frames[id]? = none :=
      Array.getElem?_eq_none_iff.mpr (Nat.le_of_not_lt old)
    cases held : after.frames[id]? with
    | none => simp only [localFunction?, missing, held, Option.bind_none]
    | some frame =>
      have functions := evolves.bare id frame (Nat.le_of_not_lt old) held
      simp only [localFunction?, missing, held, functions, Option.bind_none, Option.bind_some,
        Bindings.get?_empty]

/-- The variables of a frame of the store change as the evolution says. -/
theorem Evolves.localVariable? (evolves : before.Evolves values after) {id : FrameId}
    (old : id < before.frames.size) :
    ∃ own later, values id own later ∧ (∀ name, before.localVariable? id name = own.get? name) ∧
      ∀ name, after.localVariable? id name = later.get? name := by
  have held : before.frames[id]? = some before.frames[id] := Array.getElem?_eq_getElem old
  obtain ⟨later, heldLater, kept⟩ := evolves.kept id _ held
  refine ⟨before.frames[id].values, later.values, kept.values, ?_, ?_⟩
  · intro name
    simp only [Store.localVariable?, held, Option.bind_some]
  · intro name
    simp only [Store.localVariable?, heldLater, Option.bind_some]

/-- A change of a variable is an evolution. -/
theorem evolves_bindVariable (store : Store V F) (id : FrameId) (name : String) (value : V)
    (stays : ∀ other own, other ≠ id → values other own own)
    (changes : ∀ frame, store.frames[id]? = some frame →
      values id frame.values (frame.values.bind name value)) :
    store.Evolves values (store.bindVariable id name value) where
  size_le := by simp [bindVariable]
  kept other frame held := by
    rw [bindVariable, getElem?_update]
    by_cases same : id = other
    · subst same
      rw [if_pos rfl, held]
      exact ⟨_, rfl, rfl, rfl, rfl, changes frame held⟩
    · rw [if_neg same, held]
      exact ⟨frame, rfl, rfl, rfl, rfl, stays other frame.values fun equal => same equal.symm⟩
  bare other frame new held := by
    have old := (Array.getElem?_eq_some_iff.mp held).1
    simp only [bindVariable, size_update] at old
    omega

/-- What happens in a scope that is given up at the end is a change of the scopes around it. -/
theorem Evolves.ofChild {parent : FrameId} (inner : (store.child parent).2.Evolves former after)
    (weaker : ∀ id, id < store.frames.size → ∀ one two, former id one two → values id one two) :
    store.Evolves values (after.release store.frames.size) where
  size_le := by
    have := inner.size_le
    simp only [size_child] at this
    simp only [release, size_update]
    omega
  kept id frame held := by
    have old := (Array.getElem?_eq_some_iff.mp held).1
    have heldChild : (store.child parent).2.frames[id]? = some frame := by
      rw [getElem?_child, if_neg (Nat.ne_of_lt old), held]
    obtain ⟨later, heldLater, kept⟩ := inner.kept id frame heldChild
    refine ⟨later, ?_, kept.parent, kept.functions, kept.owners, weaker id old _ _ kept.values⟩
    rw [release, getElem?_update, if_neg (Nat.ne_of_gt old), heldLater]
  bare id frame new held := by
    rw [release, getElem?_update] at held
    by_cases own : store.frames.size = id
    · rw [if_pos own] at held
      obtain ⟨later, heldLater, rfl⟩ := Option.map_eq_some_iff.mp held
      have heldChild := getElem?_child store parent id
      rw [if_pos own.symm] at heldChild
      obtain ⟨same, heldSame, kept⟩ := inner.kept id _ heldChild
      rw [heldLater] at heldSame
      injection heldSame with equal
      rw [equal, kept.functions]
    · rw [if_neg own] at held
      exact inner.bare id frame (by rw [size_child]; omega) held

/-- A change made while a frame has one more owner is a change all the same. -/
theorem Evolves.ofRetained {id : FrameId} (inner : (store.retain id).Evolves values after) :
    store.Evolves values (after.release id) where
  size_le := by
    have := inner.size_le
    simpa only [retain, release, size_update] using this
  kept other frame held := by
    by_cases same : id = other
    · subst same
      have retained : (store.retain id).frames[id]? =
          some { frame with owners := frame.owners + 1 } := by
        rw [retain, getElem?_update, if_pos rfl, held, Option.map_some]
      obtain ⟨later, heldLater, kept⟩ := inner.kept id _ retained
      refine ⟨{ later with owners := later.owners - 1 }, ?_, kept.parent, kept.functions, ?_,
        kept.values⟩
      · rw [release, getElem?_update, if_pos rfl, heldLater, Option.map_some]
      · change later.owners - 1 = frame.owners
        rw [kept.owners]
        rfl
    · have retained : (store.retain id).frames[other]? = some frame := by
        rw [retain, getElem?_update, if_neg same, held]
      obtain ⟨later, heldLater, kept⟩ := inner.kept other frame retained
      refine ⟨later, ?_, kept⟩
      rw [release, getElem?_update, if_neg same, heldLater]
  bare other frame new held := by
    have sizes : (store.retain id).frames.size ≤ other := by
      simpa only [retain, size_update] using new
    rw [release, getElem?_update] at held
    by_cases same : id = other
    · rw [if_pos same] at held
      obtain ⟨later, heldLater, rfl⟩ := Option.map_eq_some_iff.mp held
      exact inner.bare other later sizes heldLater
    · rw [if_neg same] at held
      exact inner.bare other frame sizes held

end Evolution

section Children

variable {store : Store V F} {parent id : FrameId}

/-- Older frames stay alive or dead when a frame is made. -/
theorem isLive_child (old : id < store.frames.size) :
    (store.child parent).2.isLive id = store.isLive id := by
  simp only [isLive, getElem?_child, if_neg (Nat.ne_of_lt old)]

/-- A new frame is alive. -/
theorem isLive_child_self : (store.child parent).2.isLive store.frames.size := by
  simp only [isLive, getElem?_child, if_pos]
  rfl

/-- Older frames keep the frame around them when a frame is made. -/
theorem parent?_child (old : id < store.frames.size) :
    (store.child parent).2.parent? id = store.parent? id := by
  have held : store.frames[id]? = some store.frames[id] := Array.getElem?_eq_getElem old
  simp only [parent?, getElem?_child, if_neg (Nat.ne_of_lt old), held]
  cases around : store.frames[id].parent with
  | none => rfl
  | some other =>
    have older := store.ordered id other _ held around
    simp only [Option.filter, isLive_child (Nat.lt_trans older old)]

/-- Older frames are looked up as before when a frame is made. -/
theorem ancestors_child (old : id < store.frames.size) :
    (store.child parent).2.ancestors id = store.ancestors id :=
  ancestors_congr fun _ low => parent?_child (Nat.lt_of_le_of_lt low old)

/-- From a new frame the lookup goes on to the live frame around it. -/
theorem ancestors_child_self (live : store.isLive parent) :
    (store.child parent).2.ancestors store.frames.size =
      store.frames.size :: store.ancestors parent := by
  have old := lt_size_of_isLive live
  have around : (store.child parent).2.parent? store.frames.size = some parent := by
    simp only [parent?, getElem?_child, if_pos, Option.filter, decide_eq_true old,
      isLive_child old, live]
  rw [ancestors_of_some around, ancestors_child old]

/-- From a new frame the lookup goes on to the frame around it at most. -/
theorem mem_ancestors_child_self {other : FrameId}
    (member : other ∈ (store.child parent).2.ancestors store.frames.size) :
    other = store.frames.size ∨ other ∈ store.ancestors parent := by
  cases around : (store.child parent).2.parent? store.frames.size with
  | none =>
    rw [ancestors_of_none around] at member
    exact .inl (List.mem_singleton.mp member)
  | some found =>
    have older := parent?_lt around
    have live := isLive_of_parent? around
    have same : found = parent := by
      simp only [parent?, getElem?_child, if_pos] at around
      have linked := (Option.filter_eq_some_iff.mp around).1
      exact (Option.some.inj (Option.filter_eq_some_iff.mp linked).1).symm
    subst same
    rw [isLive_child older] at live
    rw [ancestors_child_self live] at member
    exact List.mem_cons.mp member

/-- A new frame binds no variable, and the older ones bind what they did. -/
theorem localVariable?_child (name : String) :
    (store.child parent).2.localVariable? id name =
      if id = store.frames.size then none else store.localVariable? id name := by
  by_cases new : id = store.frames.size
  · simp only [localVariable?, getElem?_child, if_pos new, Option.bind_some, Bindings.get?_empty]
  · simp only [localVariable?, getElem?_child, if_neg new]

/-- A new frame has no function, and the older ones have what they had. -/
theorem localFunction?_child (name : String) (arity : Nat) :
    (store.child parent).2.localFunction? id name arity = store.localFunction? id name arity := by
  by_cases new : id = store.frames.size
  · have missing : store.frames[id]? = none :=
      Array.getElem?_eq_none_iff.mpr (Nat.le_of_eq new.symm)
    simp only [localFunction?, getElem?_child, if_pos new, missing, Option.bind_some,
      Option.bind_none, Bindings.get?_empty]
  · simp only [localFunction?, getElem?_child, if_neg new]

end Children

section Owners

variable {store : Store V F} {held id : FrameId}

/-- One more owner makes no live frame dead and no dead frame of the store alive but its own. -/
theorem isLive_retain (live : store.isLive held) :
    (store.retain held).isLive id = store.isLive id := by
  by_cases same : held = id
  · subst same
    obtain ⟨frame, found⟩ : ∃ frame, store.frames[held]? = some frame :=
      ⟨_, Array.getElem?_eq_getElem (lt_size_of_isLive live)⟩
    rw [live]
    simp only [isLive, retain, getElem?_update, if_pos, found, Option.map_some,
      decide_eq_true_eq]
    omega
  · simp only [isLive, retain, getElem?_update, if_neg same]

/-- One more owner of a live frame changes no lookup. -/
theorem ancestors_retain (live : store.isLive held) :
    (store.retain held).ancestors id = store.ancestors id := by
  refine ancestors_congr fun other _ => ?_
  have parents : ((store.retain held).frames[other]?).map Frame.parent =
      (store.frames[other]?).map Frame.parent := by
    rw [retain, getElem?_update]
    split
    · rw [Option.map_map]
      rfl
    · rfl
  have lives : (store.retain held).isLive = store.isLive := funext fun _ => isLive_retain live
  simp only [parent?, lives]
  cases one : (store.retain held).frames[other]? <;> cases two : store.frames[other]? <;>
    simp_all

/-- Owners do not matter to functions. -/
theorem localFunction?_retain (name : String) (arity : Nat) :
    (store.retain held).localFunction? id name arity = store.localFunction? id name arity := by
  rw [localFunction?, localFunction?, retain, getElem?_update]
  split
  · cases store.frames[id]? <;> rfl
  · rfl

/-- Owners do not matter to variables. -/
theorem localVariable?_retain (name : String) :
    (store.retain held).localVariable? id name = store.localVariable? id name := by
  rw [localVariable?, localVariable?, retain, getElem?_update]
  split
  · cases store.frames[id]? <;> rfl
  · rfl

/-- Owners do not matter to variables. -/
theorem localVariable?_release (name : String) :
    (store.release held).localVariable? id name = store.localVariable? id name := by
  rw [localVariable?, localVariable?, release, getElem?_update]
  split
  · cases store.frames[id]? <;> rfl
  · rfl

end Owners

section Functions

variable {store : Store V F} {held id : FrameId} {bound : String} {parameters : Nat} {function : F}

/-- A new function makes no frame dead or alive. -/
theorem isLive_bindFunction :
    (store.bindFunction held bound parameters function).isLive id = store.isLive id :=
  isLive_update store held id fun _ => rfl

/-- A new function changes no lookup of variables. -/
theorem ancestors_bindFunction :
    (store.bindFunction held bound parameters function).ancestors id = store.ancestors id :=
  ancestors_update store held id fun _ => rfl

/-- A new function binds no variable. -/
theorem localVariable?_bindFunction (name : String) :
    (store.bindFunction held bound parameters function).localVariable? id name =
      store.localVariable? id name := by
  rw [localVariable?, localVariable?, bindFunction, getElem?_update]
  split
  · cases store.frames[id]? <;> rfl
  · rfl

/-- The functions of frames after one frame has got another. -/
theorem localFunction?_bindFunction (old : held < store.frames.size) (name : String)
    (arity : Nat) :
    (store.bindFunction held bound parameters function).localFunction? id name arity =
      if id = held ∧ name = bound ∧ arity = parameters then some function
      else store.localFunction? id name arity := by
  rw [localFunction?, localFunction?, bindFunction, getElem?_update]
  by_cases same : held = id
  · subst same
    rw [if_pos rfl, Array.getElem?_eq_getElem old]
    simp only [Option.map_some, Option.bind_some, Bindings.get?_bind, Prod.mk.injEq, true_and]
  · rw [if_neg same, if_neg fun all => same all.1.symm]

/-- Every function that is found after a frame has got another was found before or is that one. -/
theorem localFunction?_of_bindFunction {name : String} {arity : Nat} {other : F}
    (found : (store.bindFunction held bound parameters function).localFunction? id name arity =
      some other) : store.localFunction? id name arity = some other ∨ other = function := by
  by_cases old : held < store.frames.size
  · rw [localFunction?_bindFunction old] at found
    split at found
    · exact .inr (Option.some.inj found).symm
    · exact .inl found
  · have missing : store.frames[held]? = none :=
      Array.getElem?_eq_none_iff.mpr (Nat.le_of_not_lt old)
    rw [localFunction?, bindFunction, getElem?_update] at found
    split at found
    next same =>
      rw [← same, missing] at found
      cases found
    next => exact .inl found

end Functions

/-- The value of a variable after it has been bound in one frame. -/
theorem localVariable?_bindVariable {store : Store V F} {id : FrameId}
    (old : id < store.frames.size) (other : FrameId) (name own : String) (value : V) :
    (store.bindVariable id name value).localVariable? other own =
      if other = id ∧ own = name then some value else store.localVariable? other own := by
  rw [localVariable?, localVariable?, bindVariable, getElem?_update]
  by_cases same : id = other
  · subst same
    rw [if_pos rfl, Array.getElem?_eq_getElem old]
    simp only [Option.map_some, Option.bind_some, Bindings.get?_bind, true_and]
  · rw [if_neg same, if_neg fun both => same both.1.symm]

/-- What a frame binds after a variable has been bound was bound before or is the new value. -/
theorem localVariable?_of_bindVariable {store : Store V F} {id other : FrameId} {name own : String}
    {value found : V}
    (bound : (store.bindVariable id name value).localVariable? other own = some found) :
    store.localVariable? other own = some found ∨ found = value := by
  by_cases old : id < store.frames.size
  · rw [localVariable?_bindVariable old] at bound
    split at bound
    · exact .inr (Option.some.inj bound).symm
    · exact .inl bound
  · have missing : store.frames[id]? = none :=
      Array.getElem?_eq_none_iff.mpr (Nat.le_of_not_lt old)
    rw [localVariable?, bindVariable, getElem?_update] at bound
    split at bound
    next same =>
      rw [← same, missing] at bound
      cases bound
    next => exact .inl bound

/-- Whatever is active lies inside the global scope, that inside the base scope, and no other
scope has functions. -/
structure Nested (store : Store V F) (base globals active : FrameId) : Prop where
  /-- Around the global scope there is the base scope alone. -/
  outer : store.ancestors globals = [globals, base]
  /-- The active scope lies inside the global one. -/
  around : [globals, base] <:+ store.ancestors active
  /-- The active scope is alive. -/
  live : store.isLive active
  /-- The global scope is alive. -/
  liveGlobals : store.isLive globals
  /-- The other scopes have no functions. -/
  bare : ∀ id, id ≠ globals → id ≠ base → ∀ name arity, store.localFunction? id name arity = none

namespace Nested

variable {store after : Store V F} {base globals active : FrameId}

/-- The base scope is older than the global one. -/
theorem base_lt (nested : store.Nested base globals active) : base < globals := by
  have sorted := store.ancestors_sorted globals
  rw [nested.outer] at sorted
  simpa using sorted

/-- The scopes stay nested when the variables change and frames are made. -/
theorem evolve {values : FrameId → Bindings String V → Bindings String V → Prop}
    (nested : store.Nested base globals active) (evolves : store.Evolves values after) :
    after.Nested base globals active where
  outer := (evolves.ancestors_eq (lt_size_of_isLive nested.liveGlobals)).trans nested.outer
  around := by
    rw [evolves.ancestors_eq (lt_size_of_isLive nested.live)]
    exact nested.around
  live := (evolves.isLive_eq (lt_size_of_isLive nested.live)).trans nested.live
  liveGlobals := (evolves.isLive_eq (lt_size_of_isLive nested.liveGlobals)).trans nested.liveGlobals
  bare id notGlobals notBase name arity :=
    (evolves.localFunction?_eq id name arity).trans (nested.bare id notGlobals notBase name arity)

/-- The scopes stay nested when another live scope inside the global one becomes active. -/
theorem activate {other : FrameId} (nested : store.Nested base globals active)
    (around : [globals, base] <:+ store.ancestors other) (live : store.isLive other) :
    store.Nested base globals other :=
  ⟨nested.outer, around, live, nested.liveGlobals, nested.bare⟩

/-- The global scope itself may be active. -/
theorem atGlobals (nested : store.Nested base globals active) :
    store.Nested base globals globals :=
  nested.activate (nested.outer ▸ List.suffix_rfl) nested.liveGlobals

/-- A new scope inside the active one may be active. -/
theorem child (nested : store.Nested base globals active) :
    (store.child active).2.Nested base globals store.frames.size where
  outer := (ancestors_child (lt_size_of_isLive nested.liveGlobals)).trans nested.outer
  around := by
    rw [ancestors_child_self nested.live]
    exact nested.around.trans (List.suffix_cons _ _)
  live := isLive_child_self
  liveGlobals :=
    (isLive_child (lt_size_of_isLive nested.liveGlobals)).trans nested.liveGlobals
  bare id notGlobals notBase name arity :=
    (localFunction?_child name arity).trans (nested.bare id notGlobals notBase name arity)

/-- The scopes stay nested when a live one gets another owner. -/
theorem retain {held : FrameId} (nested : store.Nested base globals active)
    (live : store.isLive held) : (store.retain held).Nested base globals active where
  outer := (ancestors_retain live).trans nested.outer
  around := by
    rw [ancestors_retain live]
    exact nested.around
  live := (isLive_retain live).trans nested.live
  liveGlobals := (isLive_retain live).trans nested.liveGlobals
  bare id notGlobals notBase name arity :=
    (localFunction?_retain name arity).trans (nested.bare id notGlobals notBase name arity)

/-- The scopes stay nested when the global one gets a function. -/
theorem bindFunction (nested : store.Nested base globals active) (name : String) (arity : Nat)
    (function : F) :
    (store.bindFunction globals name arity function).Nested base globals active where
  outer := ancestors_bindFunction.trans nested.outer
  around := by
    rw [ancestors_bindFunction]
    exact nested.around
  live := isLive_bindFunction.trans nested.live
  liveGlobals := isLive_bindFunction.trans nested.liveGlobals
  bare id notGlobals notBase other parameters := by
    rw [localFunction?_bindFunction (lt_size_of_isLive nested.liveGlobals),
      if_neg fun all => notGlobals all.1]
    exact nested.bare id notGlobals notBase other parameters

/-- Behind the global and the base scope a lookup has passed every scope that is neither. -/
theorem exists_inner (nested : store.Nested base globals active) :
    ∃ inner, store.ancestors active = inner ++ [globals, base] ∧
      ∀ id ∈ inner, id ≠ globals ∧ id ≠ base := by
  obtain ⟨inner, split⟩ := nested.around
  refine ⟨inner, split.symm, fun id member => ?_⟩
  have sorted := store.ancestors_sorted active
  rw [← split, List.pairwise_append] at sorted
  have younger := sorted.2.2 id member globals (by simp)
  exact ⟨Nat.ne_of_gt younger, Nat.ne_of_gt (Nat.lt_trans nested.base_lt younger)⟩

/-- The base scope is not the active one. -/
theorem active_ne_base (nested : store.Nested base globals active) : active ≠ base := by
  obtain ⟨inner, split, others⟩ := nested.exists_inner
  obtain ⟨rest, first⟩ := store.ancestors_eq_cons active
  rw [first] at split
  cases inner with
  | nil =>
    injection split with same _
    exact same ▸ Nat.ne_of_gt nested.base_lt
  | cons id inner =>
    injection split with same _
    exact (others active (same ▸ List.mem_cons_self)).2

/-- A function is looked up in the global scope and then in the base scope. -/
theorem findFunction?_eq (nested : store.Nested base globals active) (name : String)
    (arity : Nat) :
    store.findFunction? active name arity =
      (store.localFunction? globals name arity).or (store.localFunction? base name arity) := by
  obtain ⟨inner, split, others⟩ := nested.exists_inner
  have skipped : inner.findSome? (store.localFunction? · name arity) = none := by
    rw [List.findSome?_eq_none_iff]
    intro id member
    exact nested.bare id (others id member).1 (others id member).2 name arity
  rw [findFunction?, split, List.findSome?_append, skipped]
  cases found : store.localFunction? globals name arity <;>
    cases outer : store.localFunction? base name arity <;> simp [found, outer]

end Nested

section Beginning

variable {store : Store V F} {functions : Bindings (String × Nat) F}

/-- Where only a base scope and a global scope have been made, the one lies around the other. -/
theorem ancestors_of_frames
    (made : store.frames = #[⟨none, .empty, functions, 1⟩, ⟨some 0, .empty, .empty, 2⟩]) :
    store.ancestors 1 = [1, 0] := by
  have around : store.parent? 1 = some 0 := by
    simp [parent?, isLive, made]
  have alone : store.parent? 0 = none := by
    simp [parent?, made]
  rw [ancestors_of_some around, ancestors_of_none alone]

/-- Where only a base scope with functions and a global scope have been made, they are nested. -/
theorem nested_of_frames
    (made : store.frames = #[⟨none, .empty, functions, 1⟩, ⟨some 0, .empty, .empty, 2⟩]) :
    store.Nested 0 1 1 where
  outer := ancestors_of_frames made
  around := (ancestors_of_frames made).symm ▸ List.suffix_rfl
  live := by simp [isLive, made]
  liveGlobals := by simp [isLive, made]
  bare id notGlobals notBase name arity := by
    rw [localFunction?, made]
    rcases id with _ | _ | _
    · exact absurd rfl notBase
    · exact absurd rfl notGlobals
    · rfl

/-- These scopes bind no variable. -/
theorem localVariable?_of_frames
    (made : store.frames = #[⟨none, .empty, functions, 1⟩, ⟨some 0, .empty, .empty, 2⟩])
    (id : FrameId) (name : String) : store.localVariable? id name = none := by
  rw [localVariable?, made]
  rcases id with _ | _ | _ <;> rfl

/-- Only the base scope has functions. -/
theorem localFunction?_of_frames
    (made : store.frames = #[⟨none, .empty, functions, 1⟩, ⟨some 0, .empty, .empty, 2⟩])
    (id : FrameId) (name : String) (arity : Nat) :
    store.localFunction? id name arity = if id = 0 then functions.get? (name, arity) else none := by
  rw [localFunction?, made]
  rcases id with _ | _ | _ <;> rfl

end Beginning

end Store

end LetDef
