import Mathlib.Data.Int.Notation
import Mathlib.Data.List.Basic
/-!
# Loops over a range of integers

`for (i = start; i < stop; i++)`, as a function of what its body does. Two
rules are enough for frames: a relation that goes on from step to step
holds between the beginning and the end, and what a body achieves and no
body undoes is achieved.
-/

namespace Muplar

namespace ForLoop

variable {σ : Type*} {start stop : ℤ} {body : ℤ → σ → σ} {s : σ}

/-- The loop. -/
def loop (start stop : ℤ) (body : ℤ → σ → σ) (s : σ) : σ :=
  (List.range (stop - start).toNat).foldl (fun s (i : ℕ) => body (start + i) s) s

/-- One more turn. -/
theorem foldl_concat (n : ℕ) : (List.range (n + 1)).foldl (fun s (i : ℕ) => body (start + i) s) s =
    body (start + n) ((List.range n).foldl (fun s (i : ℕ) => body (start + i) s) s) := by
  rw [List.range_succ, List.foldl_append, List.foldl_cons, List.foldl_nil]

/-- **The rule of relations.** -/
theorem loop_rel {R : σ → σ → Prop} (hrefl : ∀ s, R s s)
    (htrans : ∀ {a b c}, R a b → R b c → R a c)
    (hbody : ∀ i s, start ≤ i → i < stop → R s (body i s)) : R s (loop start stop body s) := by
  have hturns : ∀ n : ℕ, n ≤ (stop - start).toNat →
      R s ((List.range n).foldl (fun s (i : ℕ) => body (start + i) s) s) := by
    intro n
    induction n with
    | zero => exact fun _ => hrefl s
    | succ n ih =>
      intro hn
      rw [foldl_concat]
      exact htrans (ih (by omega)) (hbody _ _ (by omega) (by omega))
  exact hturns _ (Nat.le_refl _)

/-- **The rule of achievements.** What the body of one turn achieves, and
every body keeps, holds at the end. -/
theorem loop_achieves {P : σ → Prop} (hkeep : ∀ i s, P s → P (body i s)) {i : ℤ}
    (hlo : start ≤ i) (hhi : i < stop) (hbody : ∀ s, P (body i s)) :
    P (loop start stop body s) := by
  have hturns : ∀ n : ℕ, (i - start).toNat < n →
      P ((List.range n).foldl (fun s (i : ℕ) => body (start + i) s) s) := by
    intro n
    induction n with
    | zero => exact fun h => absurd h (Nat.not_lt_zero _)
    | succ n ih =>
      intro hn
      rw [foldl_concat]
      by_cases hlast : (i - start).toNat = n
      · have hturn : start + (n : ℤ) = i := by omega
        rw [hturn]
        exact hbody _
      · exact hkeep _ _ (ih (by omega))
  exact hturns _ (by omega)

/-- What every body keeps is kept. -/
theorem loop_keeps {P : σ → Prop} (hkeep : ∀ i s, P s → P (body i s)) (h : P s) :
    P (loop start stop body s) :=
  loop_rel (R := fun s s' => P s → P s') (fun _ h => h) (fun h h' hs => h' (h hs))
    (fun i s _ _ => hkeep i s) h

end ForLoop

end Muplar
