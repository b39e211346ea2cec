import Mathlib.Data.List.Basic
import Mathlib.Data.List.Forall2

/-!
# Outcomes

Results that may be missing, and results that may be failures.
-/

namespace ScriptLowering

theorem mapM_eq_some {α β : Type*} {convert : α → Option β} {list : List α} {values : List β} :
    list.mapM convert = some values ↔ list.map convert = values.map some := by
  induction list generalizing values with
  | nil => cases values <;> simp
  | cons head rest induction =>
      cases values with
      | nil => simp [Option.bind_eq_some_iff]
      | cons value values =>
          cases converted : convert head <;>
            simp [converted, Option.bind_eq_some_iff, ← induction, and_comm]

theorem mapM_congr {α β : Type*} {convert other : α → Option β} {list : List α}
    (same : ∀ item ∈ list, convert item = other item) : list.mapM convert = list.mapM other := by
  ext values
  rw [mapM_eq_some, mapM_eq_some, List.map_congr_left same]

namespace Option

variable {α β γ : Type*} {related : β → γ → Prop}

theorem rel_bind {source : Option α} {left : α → Option β} {right : α → Option γ}
    (pointwise : ∀ value, Option.Rel related (left value) (right value)) :
    Option.Rel related (source.bind left) (source.bind right) := by
  cases source with
  | none => exact .none
  | some value => exact pointwise value

theorem exists_of_rel_some {value : β} {outcome : Option γ}
    (matched : Option.Rel related (some value) outcome) :
    ∃ found, outcome = some found ∧ related value found := by
  cases matched with
  | some holds => exact ⟨_, rfl, holds⟩

theorem eq_none_of_rel {outcome : Option γ} (matched : Option.Rel related none outcome) :
    outcome = none := by
  cases matched
  rfl

end Option

namespace Except

variable {ε α β : Type}

instance decidableEq [DecidableEq ε] [DecidableEq α] : DecidableEq (Except ε α)
  | .ok left, .ok right =>
      decidable_of_iff (left = right) ⟨congrArg Except.ok, Except.ok.inj⟩
  | .error left, .error right =>
      decidable_of_iff (left = right) ⟨congrArg Except.error, Except.error.inj⟩
  | .ok _, .error _ | .error _, .ok _ => isFalse nofun

theorem bind_eq_ok {result : Except ε α} {next : α → Except ε β} {value : β} :
    (result >>= next) = .ok value ↔ ∃ first, result = .ok first ∧ next first = .ok value := by
  cases result with
  | ok first => exact ⟨fun h => ⟨first, rfl, h⟩, fun ⟨_, rfl, h⟩ => h⟩
  | error failure => exact ⟨nofun, fun ⟨_, h, _⟩ => nomatch h⟩

theorem map_eq_error {result : Except ε α} {view : α → β} {failure : ε} :
    result.map view = .error failure ↔ result = .error failure := by
  cases result <;> simp [Except.map]

/-- Two computations go on alike if they have been alike so far and what follows depends only on
what can be seen of them. -/
theorem map_bind_congr {γ δ : Type} {view : α → γ} {outlook : β → δ} {first second : Except ε α}
    {next other : α → Except ε β} (same : first.map view = second.map view)
    (onwards : ∀ value rival, first = .ok value → view value = view rival →
      (next value).map outlook = (other rival).map outlook) :
    (first >>= next).map outlook = (second >>= other).map outlook := by
  cases first with
  | error failure =>
      cases second with
      | error reported => exact congrArg Except.error (Except.error.inj same)
      | ok rival => cases same
  | ok value =>
      cases second with
      | error reported => cases same
      | ok rival => exact onwards value rival rfl (Except.ok.inj same)

variable {convert : α → Except ε β} {list : List α}

theorem mapM_eq_ok {values : List β} :
    list.mapM convert = .ok values ↔
      List.Forall₂ (fun item value => convert item = .ok value) list values := by
  induction list generalizing values with
  | nil => simp [pure, Except.pure, eq_comm]
  | cons item rest induction =>
      rw [List.mapM_cons, List.forall₂_cons_left_iff, bind_eq_ok]
      constructor
      · rintro ⟨value, converted, tail⟩
        obtain ⟨later, rest_converted, ⟨⟩⟩ := bind_eq_ok.mp tail
        exact ⟨value, later, converted, induction.mp rest_converted, rfl⟩
      · rintro ⟨value, later, converted, rest_converted, rfl⟩
        exact ⟨value, converted, bind_eq_ok.mpr ⟨later, induction.mpr rest_converted, rfl⟩⟩

/-- A conversion of several items that fails has failed at the first of them that cannot be
converted. -/
theorem exists_of_mapM_eq_error {failure : ε} (failed : list.mapM convert = .error failure) :
    ∃ front item back values, list = front ++ item :: back ∧
      front.mapM convert = .ok values ∧ convert item = .error failure := by
  induction list with
  | nil => cases failed
  | cons item rest induction =>
      rw [List.mapM_cons] at failed
      cases converted : convert item with
      | error reported =>
          rw [converted] at failed
          obtain rfl : reported = failure := Except.error.inj failed
          exact ⟨[], item, rest, [], rfl, rfl, converted⟩
      | ok value =>
          cases later : rest.mapM convert with
          | ok values =>
              rw [converted, later] at failed
              cases failed
          | error reported =>
              rw [converted, later] at failed
              obtain rfl : reported = failure := Except.error.inj failed
              obtain ⟨front, stop, back, values, rfl, passed, stopped⟩ := induction later
              refine ⟨item :: front, stop, back, value :: values, rfl, ?_, stopped⟩
              rw [List.mapM_cons, converted, passed]
              rfl

end Except

end ScriptLowering
