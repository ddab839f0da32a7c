import Mathlib.Data.List.Infix
import Mathlib.Data.Nat.Notation
import Mathlib.Tactic.Common
/-!
# Records of a fixed size

A stream of records that all have one size is cut anywhere on its way, and
the receiver keeps what does not fill a record for the next time. `whole`
is the records that are there in full, `rest` what is left behind them. To
cut the stream somewhere and to go on with the rest comes to the same
records as not to cut it (`whole_append`, `rest_append`), and what has come
of a list of records holds as many of them as it has room for
(`whole_of_prefix`).
-/

namespace Muplar

namespace Records

variable {α : Type*}

/-- The records that are there in full. -/
def whole (size : ℕ) (items : List α) : List (List α) :=
  if 0 < size ∧ size ≤ items.length then
    items.take size :: whole size (items.drop size)
  else []
termination_by items.length
decreasing_by
  rw [List.length_drop]
  omega

/-- What is left behind them. -/
def rest (size : ℕ) (items : List α) : List α :=
  if 0 < size ∧ size ≤ items.length then rest size (items.drop size) else items
termination_by items.length
decreasing_by
  rw [List.length_drop]
  omega

section

variable {size : ℕ} {items : List α}

theorem whole_of_le (hpos : 0 < size) (h : size ≤ items.length) :
    whole size items = items.take size :: whole size (items.drop size) := by
  rw [whole, if_pos ⟨hpos, h⟩]

theorem rest_of_le (hpos : 0 < size) (h : size ≤ items.length) :
    rest size items = rest size (items.drop size) := by
  rw [rest, if_pos ⟨hpos, h⟩]

theorem whole_of_lt (h : items.length < size) : whole size items = [] := by
  rw [whole, if_neg (by omega)]

theorem rest_of_lt (h : items.length < size) : rest size items = items := by
  rw [rest, if_neg (by omega)]

theorem length_rest (hpos : 0 < size) : (rest size items).length = items.length % size := by
  induction items using whole.induct size with
  | case1 items h ih => rw [rest_of_le h.1 h.2, ih, List.length_drop, Nat.mod_eq_sub_mod h.2]
  | case2 items h =>
    have hlt : items.length < size := by omega
    rw [rest_of_lt hlt, Nat.mod_eq_of_lt hlt]

end

/-! ## Streams that are cut -/

/-- **A cut does not matter**: the records of the whole are those before
the cut and those of what was left there with what comes. -/
theorem whole_append {size : ℕ} (hpos : 0 < size) (before after : List α) :
    whole size (before ++ after) = whole size before ++ whole size (rest size before ++ after) := by
  induction before using whole.induct size with
  | case1 items h ih =>
    have hle : size ≤ (items ++ after).length := by
      rw [List.length_append]
      omega
    rw [whole_of_le h.1 hle, whole_of_le h.1 h.2, rest_of_le h.1 h.2,
      List.take_append_of_le_length h.2, List.drop_append_of_le_length h.2, ih, List.cons_append]
  | case2 items h =>
    have hlt : items.length < size := by omega
    rw [whole_of_lt hlt, rest_of_lt hlt, List.nil_append]

theorem rest_append {size : ℕ} (hpos : 0 < size) (before after : List α) :
    rest size (before ++ after) = rest size (rest size before ++ after) := by
  induction before using whole.induct size with
  | case1 items h ih =>
    have hle : size ≤ (items ++ after).length := by
      rw [List.length_append]
      omega
    rw [rest_of_le h.1 hle, rest_of_le h.1 h.2, List.drop_append_of_le_length h.2, ih]
  | case2 items h =>
    have hlt : items.length < size := by omega
    rw [rest_of_lt hlt]

/-- **What has come of a list of records** is as many of them as fit. -/
theorem whole_of_prefix {size : ℕ} (hpos : 0 < size) {records : List (List α)}
    (hsize : ∀ r ∈ records, r.length = size) {items : List α} (h : items <+: records.flatten) :
    whole size items = records.take (items.length / size) := by
  induction records generalizing items with
  | nil =>
    rw [List.prefix_nil.mp h, whole_of_lt hpos, List.take_nil]
  | cons r records ih =>
    have hr : r.length = size := hsize r List.mem_cons_self
    obtain ⟨later, hlater⟩ := h
    by_cases hle : size ≤ items.length
    · have hitems : items = r ++ items.drop size := by
        have htake := congrArg (List.take size) hlater
        rw [List.take_append_of_le_length hle, List.flatten_cons, ← hr, List.take_left, hr] at htake
        rw [← htake, List.take_append_drop]
      have hprefix : items.drop size <+: records.flatten := by
        refine ⟨later, ?_⟩
        rw [hitems, List.flatten_cons, List.append_assoc] at hlater
        exact List.append_cancel_left hlater
      have hdiv : items.length / size = (items.drop size).length / size + 1 := by
        rw [List.length_drop, Nat.div_eq_sub_div hpos hle]
      rw [whole_of_le hpos hle, ih (fun r' h' => hsize r' (List.mem_cons_of_mem _ h')) hprefix,
        hdiv, List.take_succ_cons]
      congr 1
      rw [hitems, ← hr, List.take_left]
    · have hlt : items.length < size := by omega
      rw [whole_of_lt hlt, Nat.div_eq_of_lt hlt, List.take_zero]

end Records

end Muplar
