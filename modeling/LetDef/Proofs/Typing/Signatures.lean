import Mathlib.Data.List.Forall2
import LetDef.Typing.Analysis

/-!
# What methods stand for

The analysis finds out what a method stands for exactly if it finds a type for each parameter and,
if one is written, a type for the results.
-/
namespace LetDef

/-- Steps for items succeed together exactly if each does. -/
theorem mapM_eq_ok_iff {ε α β : Type} {step : α → Except ε β} {items : List α} {results : List β} :
    items.mapM step = .ok results ↔
      List.Forall₂ (fun item result => step item = .ok result) items results := by
  induction items generalizing results with
  | nil =>
    rw [List.forall₂_nil_left_iff]
    constructor
    · rintro ⟨⟩
      rfl
    · rintro rfl
      rfl
  | cons first rest ih =>
    rw [List.mapM_cons]
    constructor
    · intro stepped
      cases begun : step first with
      | error error =>
        rw [begun] at stepped
        contradiction
      | ok result =>
        rw [begun] at stepped
        cases ended : rest.mapM step with
        | error error =>
          rw [ended] at stepped
          contradiction
        | ok others =>
          rw [ended] at stepped
          cases stepped
          exact .cons begun (ih.mp ended)
    · rintro (_ | ⟨begun, others⟩)
      rw [begun, ih.mpr others]
      rfl

/-- Of a written name the type must be known. -/
theorem TypeTable.getOption_some_eq_ok {table : TypeTable} {name : String} {found : Option Ty} :
    table.getOption (some name) = .ok found ↔ ∃ type, table.get name = .ok type ∧
      found = some type := by
  rw [getOption]
  cases table.get name <;> simp [Except.map, eq_comm]

/-- A method stands for its name with the types of its parameters and of its results. -/
theorem Method.signatureIn_eq_ok_iff {method : Method} {types : TypeTable} {found : Signature} :
    method.signatureIn types = .ok found ↔
      ∃ parameters returns,
        List.Forall₂ (fun parameter type => types.get parameter.typeName = .ok type)
          method.parameters parameters ∧
        types.getOption method.returnTypeName = .ok returns ∧
        found = .named method.name parameters (returns.getD .nil) := by
  rw [signatureIn]
  constructor
  · intro known
    cases parameters : method.parameters.mapM (m := Except TypeError)
        fun parameter => types.get parameter.typeName with
    | error error =>
      rw [parameters] at known
      contradiction
    | ok parameterTypes =>
      rw [parameters] at known
      cases returns : types.getOption method.returnTypeName with
      | error error =>
        rw [returns] at known
        contradiction
      | ok returnType =>
        rw [returns] at known
        cases known
        exact ⟨parameterTypes, returnType, mapM_eq_ok_iff.mp parameters, rfl, rfl⟩
  · rintro ⟨parameters, returns, typed, known, rfl⟩
    rw [mapM_eq_ok_iff.mpr typed, known]
    rfl

end LetDef
