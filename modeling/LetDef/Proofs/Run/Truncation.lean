import LetDef.Proofs.Agreement.Scopes
import LetDef.Proofs.Run.Lockstep

/-!
# Limited output

A run whose output has a limit goes in step with the run without one until a text is written that
does not fit. Then it fails with what still fits, to which nothing is added, while the other run
goes on. So the limited output is a front of the whole one (`interpret_limited_eq_extract`).
-/
namespace LetDef

/-- The callable is a builtin or a method. -/
def Callable.Plain : Callable → Prop
  | .native run => run = Host.print
  | .method _ _ => True

/-- The host without a limit for its output. -/
def Host.unlimited (host : Host) : Host :=
  ⟨⟨host.output.bytes, none⟩, host.fields⟩

/-- The output has this limit and is within it. -/
structure Host.Within (host : Host) (limit : Nat) : Prop where
  /-- This is the limit. -/
  limited : host.output.limit = some limit
  /-- What has been written fits. -/
  fits : host.output.bytes.size ≤ limit

/-- The first output is full with a front of the second one, which is longer and has no limit. -/
structure Host.Overtaken (limit : Nat) (full whole : Host) : Prop where
  /-- The first output is what fits of the second one. -/
  front : full.output.bytes = whole.output.bytes.extract 0 limit
  /-- The second output does not fit. -/
  beyond : limit < whole.output.bytes.size
  /-- The second output has no limit. -/
  unlimited : whole.output.limit = none

namespace Host

variable {limit : Nat} {host full whole : Host}

/-- What is written to a longer output does not change its front. -/
theorem Overtaken.append (overtaken : Overtaken limit full whole) (more : ByteArray) :
    Overtaken limit full ⟨⟨whole.output.bytes ++ more, none⟩, whole.fields⟩ where
  front := by
    have beyond := overtaken.beyond
    have nothing : more.extract (0 - whole.output.bytes.size) (limit - whole.output.bytes.size) =
        .empty := ByteArray.extract_eq_empty_iff.mpr (by omega)
    rw [overtaken.front, ByteArray.extract_append, nothing, ByteArray.append_empty]
  beyond := by
    have beyond := overtaken.beyond
    simp only [ByteArray.size_append]
    omega
  unlimited := rfl

/-- Only the output matters to its front. -/
theorem Overtaken.same {other : Host} (overtaken : Overtaken limit full whole)
    (output : other.output = whole.output) : Overtaken limit full other :=
  ⟨output ▸ overtaken.front, output ▸ overtaken.beyond, output ▸ overtaken.unlimited⟩

/-- A text that does not fit fills the output with its front. -/
theorem overtaken_append {bytes text : ByteArray} {fields : Array (Bindings String Value)}
    (fits : bytes.size ≤ limit) (long : ¬ text.size ≤ limit - bytes.size) :
    Overtaken limit ⟨⟨bytes ++ text.extract 0 (limit - bytes.size), some limit⟩, fields⟩
      ⟨⟨bytes ++ text, none⟩, fields⟩ where
  front := by
    have all : bytes.extract 0 limit = bytes := by
      rw [← Nat.max_eq_left fits, ByteArray.extract_zero_max_size]
    rw [ByteArray.extract_append, all, Nat.zero_sub]
  beyond := by
    simp only [ByteArray.size_append]
    omega
  unlimited := rfl

/-- Printing on does not change the front of a longer output. -/
theorem Overtaken.print (overtaken : Overtaken limit full whole) (arguments : List Value) :
    Overtaken limit full (whole.print arguments).2 := by
  induction arguments generalizing whole with
  | nil => exact overtaken
  | cons first rest ih =>
    obtain ⟨⟨bytes, bound⟩, fields⟩ := whole
    obtain rfl : bound = none := overtaken.unlimited
    exact ih (overtaken.append (first.display ++ "\n").toUTF8)

/-- Without a limit printing succeeds. -/
theorem print_unlimited (host : Host) (arguments : List Value) :
    (host.unlimited.print arguments).1 = .ok .nil := by
  obtain ⟨⟨bytes, _⟩, fields⟩ := host
  induction arguments generalizing bytes with
  | nil => rfl
  | cons first rest ih => exact ih (bytes ++ (first.display ++ "\n").toUTF8)

/-- Without a limit the same is printed as within a limit, unless that is reached; then what fits
has been printed. -/
theorem Within.print (within : host.Within limit) (arguments : List Value) :
    (∃ after, host.print arguments = (.ok .nil, after) ∧
      host.unlimited.print arguments = (.ok .nil, after.unlimited) ∧ after.Within limit) ∨
    ∃ full whole, host.print arguments = (.error .printFailed, full) ∧
      host.unlimited.print arguments = (.ok .nil, whole) ∧ Overtaken limit full whole := by
  induction arguments generalizing host with
  | nil => exact .inl ⟨host, rfl, rfl, within⟩
  | cons first rest ih =>
    obtain ⟨⟨bytes, bound⟩, fields⟩ := host
    obtain rfl : bound = some limit := within.limited
    have fits : bytes.size ≤ limit := within.fits
    let text := first.display ++ "\n"
    have whole : print (unlimited ⟨⟨bytes, some limit⟩, fields⟩) (first :: rest) =
      print ⟨⟨bytes ++ text.toUTF8, none⟩, fields⟩ rest := rfl
    by_cases enough : text.utf8ByteSize ≤ limit - bytes.size
    · have written : print ⟨⟨bytes, some limit⟩, fields⟩ (first :: rest) =
          print ⟨⟨bytes ++ text.toUTF8, some limit⟩, fields⟩ rest := by
        simp only [print, Output.write, text, if_pos enough]
      have room : Within ⟨⟨bytes ++ text.toUTF8, some limit⟩, fields⟩ limit := by
        have size : text.toUTF8.size = text.utf8ByteSize := rfl
        refine ⟨rfl, ?_⟩
        simp only [ByteArray.size_append]
        omega
      rw [written, whole]
      exact ih room
    · have written : print ⟨⟨bytes, some limit⟩, fields⟩ (first :: rest) =
          (.error .printFailed,
            ⟨⟨bytes ++ text.toUTF8.extract 0 (limit - bytes.size), some limit⟩, fields⟩) := by
        simp only [print, Output.write, text, if_neg enough]
      have printed := print_unlimited ⟨⟨bytes ++ text.toUTF8, none⟩, fields⟩ rest
      rw [written, whole]
      exact .inr ⟨_, _, rfl, Prod.ext printed rfl, (overtaken_append fits enough).print rest⟩

/-- Assigning a field leaves the output alone. -/
theorem output_assign (host : Host) (place : Nat) (name : String) (value : Value) :
    (host.assign place name value).2.output = host.output := by
  unfold assign
  split <;> rfl

/-- A field is assigned in the same way without a limit. -/
theorem assign_unlimited (host : Host) (place : Nat) (name : String) (value : Value) :
    host.unlimited.assign place name value =
      (host.assign place name value).map id unlimited := by
  have same : host.unlimited.field? place name = host.field? place name := rfl
  unfold assign
  rw [same]
  split <;> rfl

end Host

/-- The machine without a limit for its output. -/
def Machine.unlimited (machine : Machine) : Machine :=
  { machine with host := machine.host.unlimited }

/-- The second machine is the first one without the limit of its output, which has not been
reached. -/
structure Machine.Limited (limit : Nat) (one other : Machine) : Prop where
  /-- They differ in the limit alone. -/
  unlimited : other = one.unlimited
  /-- The limit has not been reached. -/
  within : one.host.Within limit

namespace Machine

variable {limit : Nat} {one other : Machine}

/-- A field is assigned in the same way without a limit. -/
theorem assignField_unlimited (machine : Machine) (owner : Value) (name : String) (value : Value) :
    machine.unlimited.assignField owner name value =
      (machine.assignField owner name value).map id unlimited := by
  cases owner with
  | object typeName place =>
    have acted := machine.host.assign_unlimited place name value
    simp only [assignField, onHost, unlimited, acted]
    rcases machine.host.assign place name value with ⟨success, host⟩
    cases success <;> rfl
  | _ => rfl

/-- Assigning a field leaves the output alone. -/
theorem output_assignField (machine : Machine) (owner : Value) (name : String) (value : Value) :
    (machine.assignField owner name value).2.host.output = machine.host.output := by
  cases owner with
  | object typeName place =>
    have still := machine.host.output_assign place name value
    simp only [assignField, onHost]
    rcases acted : machine.host.assign place name value with ⟨success, host⟩
    rw [acted] at still
    cases success <;> exact still
  | _ => rfl

/-- Without a host only `print` and methods can be called. -/
theorem knows_fresh (limit : Option Nat) : (Machine.fresh limit).Knows Callable.Plain where
  functions id name arity callable found := by
    rw [Store.localFunction?_of_frames (frames_fresh limit), Bindings.get?_bind] at found
    split at found
    · split at found <;> cases found
      rfl
    · cases found
  methods owner name arity callable found := by
    have bare : (Machine.fresh limit).methods = #[] := rfl
    cases owner <;> simp [Machine.method, bare] at found

end Machine

/-- Within a limit runs go in step with runs without one until the limit is reached. -/
theorem coupling_limited (limit : Nat) :
    Coupling Callable.Plain (Machine.Limited limit)
      (fun error full whole => error = .printFailed ∧ Host.Overtaken limit full whole) where
  value := by
    rintro one _ ⟨rfl, _⟩ name
    rfl
  function := by
    rintro one _ ⟨rfl, _⟩ name arity
    rfl
  field := by
    rintro one _ ⟨rfl, _⟩ owner name
    cases owner <;> rfl
  method := by
    rintro one _ ⟨rfl, _⟩ owner name arity
    cases owner <;> rfl
  live := by
    rintro one _ _ _ ⟨rfl, _⟩ _
    rfl
  define := by
    rintro one _ ⟨rfl, within⟩ name value
    exact ⟨rfl, rfl, within⟩
  assign := by
    rintro one _ ⟨rfl, within⟩ name value
    exact ⟨rfl, rfl, within⟩
  assignField := by
    rintro one _ ⟨rfl, within⟩ owner name value
    have output := one.output_assignField owner name value
    rw [Machine.assignField_unlimited]
    exact ⟨rfl, rfl, output ▸ within.limited, output ▸ within.fits⟩
  native := by
    rintro one _ _ ⟨rfl, within⟩ rfl arguments
    rcases within.print arguments with
      ⟨after, printed, also, fits⟩ | ⟨full, whole, printed, also, apart⟩
    · simp only [Machine.onHost, Machine.unlimited, printed, also]
      exact .done ⟨rfl, fits⟩
    · simp only [Machine.onHost, Machine.unlimited, printed, also]
      refine .parted ⟨rfl, apart⟩ fun after ended => ?_
      cases ended
      exact ⟨rfl, apart⟩
  enter := by
    rintro one _ ⟨rfl, within⟩
    exact ⟨rfl, within⟩
  leave := by
    rintro one _ first _ ⟨rfl, _⟩ _ _ ⟨rfl, within⟩
    exact ⟨rfl, within⟩
  enterMethod := by
    rintro one _ _ _ ⟨rfl, within⟩ _ _
    exact ⟨rfl, within⟩
  leaveMethod := by
    rintro one _ first _ _ _ ⟨rfl, _⟩ _ _ _ _ ⟨rfl, within⟩
    exact ⟨rfl, within⟩
  onward := by
    rintro error host later _ rfl ⟨failed, apart⟩ arguments
    exact ⟨failed, apart.print arguments⟩
  onwardField := by
    rintro error host later ⟨failed, apart⟩ place name value
    exact ⟨failed, apart.same (later.output_assign place name value)⟩

/-- A run within a limit goes in step with the run without one until the limit is reached. -/
theorem coupled_interpret (program : Program) (limit fuel : Nat) :
    (Machine.interpret fuel program (.fresh (some limit))).Coupled (Machine.Limited limit)
      (fun error full whole => error = .printFailed ∧ Host.Overtaken limit full whole)
      (Machine.interpret fuel program (.fresh none)) := by
  have fits : (Machine.fresh (some limit)).host.Within limit := ⟨rfl, Nat.zero_le _⟩
  refine (coupling_limited limit).interpret (fun _ _ => trivial) ?_ fuel program
    (Machine.knows_fresh (some limit)) (Machine.knows_fresh none) ⟨rfl, fits⟩
  rintro one _ ⟨rfl, within⟩ declared
  exact ⟨rfl, rfl, within⟩

/-- What a run leaves behind that ends: its result or its error, and the bytes that it has
written. -/
def Outcome.remains? {α : Type} : Outcome α → Option (Except RuntimeError α × ByteArray)
  | .done value machine => some (.ok value, machine.host.output.bytes)
  | .failed error machine => some (.error error, machine.host.output.bytes)
  | .exhausted => none

/-- For every program, accepted or not, whose run ends without a limit for its output, and every
limit, the run within the limit ends as well. If the whole output fits, the result or the error and
the output are the same; if not, the run fails because the output is full, and the output is what
fits of the whole one, to the byte. -/
theorem interpret_limited_eq_extract (program : Program) (limit fuel : Nat)
    (result : Except RuntimeError Value) (bytes : ByteArray)
    (ended : (Machine.interpret fuel program (.fresh none)).remains? = some (result, bytes)) :
    (bytes.size ≤ limit →
      (Machine.interpret fuel program (.fresh (some limit))).remains? = some (result, bytes)) ∧
    (limit < bytes.size →
      ∃ error, (Machine.interpret fuel program (.fresh (some limit))).remains? =
          some (.error error, bytes.extract 0 limit) ∧
        error.reason = "print failed: " ++ outputFull) := by
  have coupled := coupled_interpret program limit fuel
  generalize Machine.interpret fuel program (.fresh (some limit)) = limited at coupled
  generalize Machine.interpret fuel program (.fresh none) = whole at coupled ended
  cases coupled with
  | done stands =>
    cases ended
    obtain ⟨rfl, within⟩ := stands
    exact ⟨fun _ => rfl, fun beyond => absurd within.fits (Nat.not_le_of_lt beyond)⟩
  | failed stands =>
    cases ended
    obtain ⟨rfl, within⟩ := stands
    exact ⟨fun _ => rfl, fun beyond => absurd within.fits (Nat.not_le_of_lt beyond)⟩
  | exhausted => cases ended
  | parted _ stands =>
    have apart : ∃ after, whole.state? = some after ∧ after.host.output.bytes = bytes := by
      cases whole <;> cases ended <;> exact ⟨_, rfl, rfl⟩
    obtain ⟨after, state, rfl⟩ := apart
    obtain ⟨rfl, overtaken⟩ := stands after state
    -- Parted runs have more output than fits, so the first case cannot be.
    refine ⟨fun short => absurd overtaken.beyond (Nat.not_lt_of_le short), fun _ => ?_⟩
    exact ⟨_, congrArg (fun front => some (_, front)) overtaken.front, rfl⟩

/-- A program that writes three lines of three, three and two bytes. -/
def linesText : String :=
  "DEF main(): Integer DO print(\"é\"); print(\"ß\"); print(1); RETURN 5; END"

/-- Of three lines of three, three and two bytes, an output with room for four has the first one and
the first half of the character on the second one. -/
theorem interpret_limited_eq_extract_cut :
    ∃ (program : Program) (result : Except RuntimeError Value) (bytes : ByteArray)
        (error : RuntimeError),
      Program.ofTextAnalyzed linesText = .ok program ∧
      (Machine.interpret 20 program (.fresh none)).remains? = some (result, bytes) ∧
      bytes.data.toList = [195, 169, 10, 195, 159, 10, 49, 10] ∧
      (Machine.interpret 20 program (.fresh (some 4))).remains? =
        some (.error error, bytes.extract 0 4) ∧
      error.reason = "print failed: output full" := by
  have computed : (Program.ofTextAnalyzed linesText).toOption.any fun program =>
      (Machine.interpret 20 program (.fresh none)).remains?.any
        (·.2.data.toList = [195, 169, 10, 195, 159, 10, 49, 10]) := by decide +kernel
  obtain ⟨program, accepted, passed⟩ := exists_ok_of_any computed
  obtain ⟨⟨result, bytes⟩, ended, written⟩ := (Option.any_eq_true _ _).mp passed
  have lines := of_decide_eq_true written
  have long : 4 < bytes.size := by
    have size : bytes.data.toList.length = 8 := congrArg List.length lines
    rw [Array.length_toList] at size
    show 4 < bytes.data.size
    omega
  obtain ⟨error, cut, words⟩ :=
    (interpret_limited_eq_extract program 4 20 result bytes ended).2 long
  exact ⟨program, result, bytes, error, accepted, ended, lines, cut, words⟩

end LetDef
