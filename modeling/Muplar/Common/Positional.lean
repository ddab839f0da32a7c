import Mathlib.Data.List.Basic
import Mathlib.Data.Nat.Notation
import Mathlib.Tactic.Common
/-!
# Positional arguments

Fields are written one after the other, those that are absent are left
out, and they are read again by position, where nothing is as good as the
default. A field is read in another one's place unless everything behind
an absent field is absent or the default (`position_encode_iff`).
-/

namespace Muplar

namespace Positional

variable {α : Type*} {d : α} {fields : List (Option α)}

/-- The arguments: the fields that are present. -/
def encode (fields : List (Option α)) : List α :=
  fields.filterMap id

/-- The argument at a position. -/
def position (d : α) (args : List α) (i : ℕ) : α :=
  args[i]?.getD d

/-- The field at a position. -/
def field (d : α) (fields : List (Option α)) (i : ℕ) : α :=
  (fields[i]?.getD none).getD d

theorem position_encode_of_default (h : ∀ x ∈ fields, x.getD d = d) (i : ℕ) :
    position d (encode fields) i = d := by
  rw [position]
  cases hget : (encode fields)[i]? with
  | none => rfl
  | some a =>
    obtain ⟨x, hx, hsome⟩ := List.mem_filterMap.mp (List.mem_of_getElem? hget)
    rw [id_eq] at hsome
    rw [Option.getD_some, ← h x hx, hsome, Option.getD_some]

/-- Behind the last field there is nothing. -/
theorem position_encode_of_le {i : ℕ} (h : fields.length ≤ i) :
    position d (encode fields) i = field d fields i := by
  have hlen : (encode fields).length ≤ fields.length := List.length_filterMap_le id fields
  rw [position, field, List.getElem?_eq_none (by omega), List.getElem?_eq_none h]
  rfl

/-- A field that is present is an argument, no further back. -/
theorem exists_position {i : ℕ} {a : α} (h : fields[i]? = some (some a)) :
    ∃ k ≤ i, position d (encode fields) k = a := by
  induction fields generalizing i with
  | nil => cases h
  | cons x fields ih =>
    cases i with
    | zero =>
      obtain rfl : x = some a := Option.some.inj h
      exact ⟨0, Nat.le_refl 0, rfl⟩
    | succ i =>
      obtain ⟨k, hk, hpos⟩ := ih (i := i) h
      cases x with
      | none => exact ⟨k, by omega, hpos⟩
      | some b => exact ⟨k + 1, by omega, hpos⟩

/-- What is read one place too far back for every field is the default. -/
theorem field_default_of_shifted (hzero : position d (encode fields) 0 = d)
    (h : ∀ i, position d (encode fields) (i + 1) = field d fields i) (i : ℕ) :
    field d fields i = d := by
  induction i using Nat.strongRecOn with
  | ind i ih =>
    rw [field]
    cases hget : fields[i]? with
    | none => rfl
    | some x =>
      cases x with
      | none => rfl
      | some a =>
        obtain ⟨k, hk, hpos⟩ := exists_position (d := d) hget
        rw [Option.getD_some, Option.getD_some, ← hpos]
        cases k with
        | zero => exact hzero
        | succ k => rw [h k, ih k (by omega)]

/-- **Every field is read in its place** exactly where nothing but the
default stands behind an absent one. -/
theorem position_encode_iff :
    (∀ i, position d (encode fields) i = field d fields i) ↔
      fields.Pairwise fun x y => x = none → y.getD d = d := by
  induction fields with
  | nil => exact iff_of_true (fun i => rfl) .nil
  | cons x fields ih =>
    cases x with
    | some a =>
      rw [List.pairwise_cons, ← ih]
      constructor
      · exact fun h => ⟨fun y _ hnone => absurd hnone (Option.some_ne_none a), fun i => h (i + 1)⟩
      · rintro ⟨-, h⟩ i
        cases i with
        | zero => rfl
        | succ i => exact h i
    | none =>
      rw [List.pairwise_cons]
      constructor
      · intro h
        have hzero : position d (encode fields) 0 = d := h 0
        have hnext : ∀ i, position d (encode fields) (i + 1) = field d fields i := fun i =>
          h (i + 1)
        have hfields := field_default_of_shifted hzero hnext
        have hdefault : ∀ y ∈ fields, y.getD d = d := fun y hy => by
          obtain ⟨i, hi⟩ := List.mem_iff_getElem?.mp hy
          have hi' := hfields i
          rwa [field, hi] at hi'
        exact ⟨fun y hy _ => hdefault y hy,
          List.pairwise_of_forall_mem_list fun _ _ y hy _ => hdefault y hy⟩
      · rintro ⟨hdefault, -⟩ i
        have hall : ∀ y ∈ fields, y.getD d = d := fun y hy => hdefault y hy rfl
        have hpos := position_encode_of_default hall i
        rw [show encode (none :: fields) = encode fields from rfl, hpos]
        cases i with
        | zero => rfl
        | succ i =>
          rw [field, List.getElem?_cons_succ]
          cases hget : fields[i]? with
          | none => rfl
          | some y => exact (hall y (List.mem_of_getElem? hget)).symm

end Positional

end Muplar
