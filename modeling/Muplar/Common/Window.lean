import Mathlib.Algebra.Order.Group.Defs
import Mathlib.Algebra.Order.Group.Unbundled.Basic
import Mathlib.Data.List.Basic
/-!
# Sliding windows

A limiter that admits at most so many events in every window of a given
length keeps the times of the last ones and forgets the others. What it
keeps and the whole history agree from some time on; whoever only looks
further ahead cannot tell them apart.

An admission is a look that finds room. An event after it, however late,
fills no window above the limit: `within_concat_le`.
-/

namespace Muplar

namespace Window

variable {T : Type*} [LinearOrder T]

/-- The times from `cutoff` on. -/
def prune (cutoff : T) (times : List T) : List T :=
  times.filter fun t => decide (cutoff ≤ t)

/-- Nothing from `cutoff` on was forgotten. -/
def AgreeFrom (cutoff : T) (kept times : List T) : Prop :=
  ∀ c, cutoff ≤ c → prune c kept = prune c times

variable {cutoff c t : T} {kept times : List T}

theorem prune_concat_of_le (h : cutoff ≤ t) :
    prune cutoff (times ++ [t]) = prune cutoff times ++ [t] := by
  rw [prune, List.filter_append, List.filter_singleton, decide_eq_true h]
  rfl

theorem prune_concat_of_lt (h : t < cutoff) : prune cutoff (times ++ [t]) = prune cutoff times := by
  rw [prune, List.filter_append, List.filter_singleton, decide_eq_false (not_le_of_gt h)]
  exact List.append_nil _

theorem prune_prune (h : cutoff ≤ c) : prune c (prune cutoff times) = prune c times := by
  rw [prune, prune, List.filter_filter]
  refine List.filter_congr fun t _ => ?_
  rw [← Bool.decide_and]
  exact decide_eq_decide.mpr ⟨And.left, fun hc => ⟨hc, h.trans hc⟩⟩

/-- A later look finds no more. -/
theorem length_prune_le (h : cutoff ≤ c) :
    (prune c times).length ≤ (prune cutoff times).length := by
  rw [← prune_prune h]
  exact List.length_filter_le _ _

theorem AgreeFrom.refl : AgreeFrom cutoff times times := fun _ _ => rfl

theorem AgreeFrom.mono (h : AgreeFrom cutoff kept times) (hle : cutoff ≤ c) :
    AgreeFrom c kept times :=
  fun c' hc' => h c' (hle.trans hc')

/-- **Forgetting is not seen** by whoever looks no further back. -/
theorem AgreeFrom.prune (h : AgreeFrom cutoff kept times) :
    AgreeFrom cutoff (prune cutoff kept) times := by
  intro c hc
  rw [prune_prune hc, h c hc]

theorem AgreeFrom.concat (h : AgreeFrom cutoff kept times) (t : T) :
    AgreeFrom cutoff (kept ++ [t]) (times ++ [t]) := by
  intro c hc
  rcases le_or_gt c t with hle | hlt
  · rw [prune_concat_of_le hle, prune_concat_of_le hle, h c hc]
  · rw [prune_concat_of_lt hlt, prune_concat_of_lt hlt, h c hc]

/-! ## How full a window is -/

variable [AddCommGroup T] {a w now : T} {n : ℕ}

/-- How many of the times lie in `[a, a + w]`. -/
def within (a w : T) (times : List T) : ℕ :=
  times.countP fun t => decide (a ≤ t ∧ t ≤ a + w)

theorem within_concat :
    within a w (times ++ [t]) = within a w times + if a ≤ t ∧ t ≤ a + w then 1 else 0 := by
  rw [within, List.countP_append, List.countP_singleton, within]
  simp only [decide_eq_true_eq]

/-- A window holds no more than there is from its start on. -/
theorem within_le_length_prune (h : c ≤ a) : within a w times ≤ (prune c times).length := by
  rw [within, prune, ← List.countP_eq_length_filter]
  refine List.countP_mono_left fun t _ ht => ?_
  exact decide_eq_true (h.trans (of_decide_eq_true ht).1)

/-- The window that ends now holds all there is from its start on. -/
theorem within_eq_length_prune (h : ∀ t ∈ times, t ≤ now) :
    within (now - w) w times = (prune (now - w) times).length := by
  rw [within, prune, ← List.countP_eq_length_filter, sub_add_cancel]
  refine List.countP_congr fun t ht => ?_
  rw [decide_eq_true_eq, decide_eq_true_eq]
  exact and_iff_left (h t ht)

/-- **An admitted event fills no window above the limit.** Fewer than `n`
were found from `now - w` on, and `now` or later one more is recorded. -/
theorem within_concat_le [IsOrderedAddMonoid T] (hroom : (prune (now - w) times).length < n)
    (hlate : now ≤ t) (hbound : ∀ a, within a w times ≤ n) : within a w (times ++ [t]) ≤ n := by
  rw [within_concat]
  split
  · next hin =>
    have hstart : now - w ≤ a := sub_le_iff_le_add.mpr (hlate.trans hin.2)
    have hfew : within a w times ≤ (prune (now - w) times).length := within_le_length_prune hstart
    omega
  · exact hbound a

end Window

end Muplar
