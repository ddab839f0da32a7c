import Mathlib.Data.UInt
import Muplar.Common.Run
/-!
# Counters of changes

A counter of 64 bits stands beside a value and goes up by one whenever the
value is changed. The counter comes round after 2^64 changes; in a run of
fewer events, a counter that is what it was says that the value is what it
was (`value_eq_of_counter_eq`).
-/

namespace Muplar

namespace Machine

variable {S E V : Type*} {step : S → E → S} {en : S → E → Prop} {s s' : S} {es : List E}
variable {counter : S → UInt64} {value : S → V}

/-- A step that counts what it changes. -/
def Counts (counter : S → UInt64) (value : S → V) (s s' : S) : Prop :=
  counter s' = counter s + 1 ∨ counter s' = counter s ∧ value s' = value s

/-- What `n` changes come to: without one the value is the same. -/
structure Changed (counter : S → UInt64) (value : S → V) (n : ℕ) (s s' : S) : Prop where
  counter : counter s' = counter s + UInt64.ofNat n
  value : n = 0 → value s' = value s

/-- A run makes as many changes as it has events, or fewer. -/
theorem exists_changed (hcounts : ∀ s e, en s e → Counts counter value s (step s e))
    (hm : Meets step en s es) : ∃ n ≤ es.length, Changed counter value n s (run step s es) := by
  induction es generalizing s with
  | nil => exact ⟨0, Nat.le_refl 0, (UInt64.add_zero _).symm, fun _ => rfl⟩
  | cons e es ih =>
    obtain ⟨n, hn, hcounter, hvalue⟩ := ih hm.2
    rw [run_cons, List.length_cons]
    rcases hcounts s e hm.1 with hup | ⟨hsame, hkept⟩
    · refine ⟨n + 1, by omega, ?_, fun h => absurd h (Nat.succ_ne_zero n)⟩
      rw [hcounter, hup, UInt64.ofNat_add, UInt64.add_assoc, UInt64.add_comm 1]
      rfl
    · exact ⟨n, by omega, by rw [hcounter, hsame], fun h => by rw [hvalue h, hkept]⟩

/-- **The rule of the counter.** Where every event counts what it changes,
a counter that is the same after fewer than 2^64 events stands beside the
same value. -/
theorem value_eq_of_counter_eq (hcounts : ∀ s e, en s e → Counts counter value s (step s e))
    (hm : Meets step en s es) (hshort : es.length < 2 ^ 64)
    (hsame : counter (run step s es) = counter s) : value (run step s es) = value s := by
  obtain ⟨n, hn, hcounter, hvalue⟩ := exists_changed hcounts hm
  apply hvalue
  have hnat := congrArg UInt64.toNat (hsame.symm.trans hcounter)
  rw [UInt64.toNat_add, UInt64.toNat_ofNat'] at hnat
  have hbound := (counter s).toNat_lt
  omega

end Machine

end Muplar
