import Mathlib.Data.Nat.Notation
import Mathlib.Tactic.Common
/-!
# Loops that may not end

A `while` loop is its body: from a state it throws, returns, or goes on
in another state. `run` gives it some number of iterations; a loop ends
if some number is enough. Computations made of loops are functions of the
fuel their loops get, and `halts_bind` puts them together.

`halts_iff` is the rule for termination. It asks for a measure that
shrinks wherever the loop comes and is not stalled, and for stalled
states to stay stalled; the loop then ends exactly when it never comes to
a stalled state.
-/

namespace Muplar

namespace Loop

variable {σ ε ρ α β : Type}

/-! ## Computations with fuel -/

/-- What a computation comes to when it gets `n` iterations for each of
its loops. -/
abbrev Fueled (ε α : Type) := ℕ → ExceptT ε Option α

/-- The computation comes to `out`, given fuel enough. -/
def Yields (c : Fueled ε α) (out : Except ε α) : Prop :=
  ∃ n, (c n).run = some out

def Halts (c : Fueled ε α) : Prop :=
  ∃ out, Yields c out

/-- More fuel than enough changes nothing. -/
def Steady (c : Fueled ε α) : Prop :=
  ∀ n m out, n ≤ m → (c n).run = some out → (c m).run = some out

theorem Yields.unique {c : Fueled ε α} {out out' : Except ε α} (hc : Steady c)
    (h : Yields c out) (h' : Yields c out') : out = out' := by
  obtain ⟨n, hn⟩ := h
  obtain ⟨m, hm⟩ := h'
  have hn' := hc n (max n m) out (by omega) hn
  have hm' := hc m (max n m) out' (by omega) hm
  exact Option.some.inj (hn'.symm.trans hm')

theorem run_bind_ok {x : ExceptT ε Option α} {f : α → ExceptT ε Option β} {a : α}
    (h : x.run = some (.ok a)) : (x >>= f).run = (f a).run := by
  rw [ExceptT.run_bind, h]
  rfl

theorem run_bind_error {x : ExceptT ε Option α} {f : α → ExceptT ε Option β} {e : ε}
    (h : x.run = some (.error e)) : (x >>= f).run = some (.error e) := by
  rw [ExceptT.run_bind, h]
  rfl

/-- A sequence that came to something: its first part threw it, or
returned a value from which the second part came to it. -/
theorem run_bind_cases {x : ExceptT ε Option α} {f : α → ExceptT ε Option β} {out : Except ε β}
    (h : (x >>= f).run = some out) :
    (∃ e, x.run = some (.error e) ∧ out = .error e) ∨
      ∃ a, x.run = some (.ok a) ∧ (f a).run = some out := by
  rw [ExceptT.run_bind] at h
  cases hx : x.run with
  | none =>
    rw [hx] at h
    cases h
  | some r =>
    rw [hx] at h
    cases r with
    | error e => exact Or.inl ⟨e, rfl, (Option.some.inj h).symm⟩
    | ok a => exact Or.inr ⟨a, rfl, h⟩

theorem steady_pure (out : ExceptT ε Option α) : Steady fun _ => out :=
  fun _ _ _ _ h => h

theorem steady_bind {x : Fueled ε α} {f : α → Fueled ε β} (hx : Steady x)
    (hf : ∀ a, Steady (f a)) : Steady fun n => x n >>= fun a => f a n := by
  intro n m out hnm h
  rcases run_bind_cases h with ⟨e, he, rfl⟩ | ⟨a, ha, hout⟩
  · exact run_bind_error (hx n m _ hnm he)
  · exact (run_bind_ok (hx n m _ hnm ha)).trans (hf a n m out hnm hout)

/-- A sequence comes to what its second part comes to from the value of
the first. -/
theorem Yields.bind {x : Fueled ε α} {f : α → Fueled ε β} {a : α} {out : Except ε β}
    (hx : Steady x) (hf : Steady (f a)) (h : Yields x (.ok a)) (h' : Yields (f a) out) :
    Yields (fun n => x n >>= fun a => f a n) out := by
  obtain ⟨n, hn⟩ := h
  obtain ⟨m, hm⟩ := h'
  refine ⟨max n m, ?_⟩
  rw [run_bind_ok (hx n (max n m) _ (by omega) hn)]
  exact hf m (max n m) out (by omega) hm

/-- A sequence halts when its first part does, and its second part does
from whatever the first returned. -/
theorem halts_bind {x : Fueled ε α} {f : α → Fueled ε β} (hx : Steady x)
    (hf : ∀ a, Steady (f a)) :
    Halts (fun n => x n >>= fun a => f a n) ↔
      Halts x ∧ ∀ a, Yields x (.ok a) → Halts (f a) := by
  constructor
  · rintro ⟨out, n, hn⟩
    rcases run_bind_cases hn with ⟨e, he, rfl⟩ | ⟨a, ha, hout⟩
    · refine ⟨⟨_, n, he⟩, fun a ha => ?_⟩
      exact absurd (Yields.unique hx ⟨n, he⟩ ha) (by simp)
    · refine ⟨⟨_, n, ha⟩, fun a' ha' => ?_⟩
      have heq := Yields.unique hx ⟨n, ha⟩ ha'
      obtain rfl : a = a' := by simpa using heq
      exact ⟨out, n, hout⟩
  · rintro ⟨⟨r, n, hn⟩, hall⟩
    cases r with
    | error e => exact ⟨_, n, run_bind_error hn⟩
    | ok a =>
      obtain ⟨out, hout⟩ := hall a ⟨n, hn⟩
      exact ⟨out, Yields.bind hx (hf a) ⟨n, hn⟩ hout⟩

theorem halts_pure (out : Except ε α) : Halts fun _ => (ExceptT.mk (some out)) :=
  ⟨out, 0, rfl⟩

/-! ## One loop -/

variable {body : σ → Except ε (σ ⊕ ρ)} {s t u : σ}

/-- At most `n` iterations from `s`. -/
def run (body : σ → Except ε (σ ⊕ ρ)) (s : σ) : Fueled ε ρ
  | 0 => ExceptT.mk none
  | n + 1 => match body s with
    | .error e => ExceptT.mk (some (.error e))
    | .ok (.inr r) => ExceptT.mk (some (.ok r))
    | .ok (.inl s') => run body s' n

/-- The loop comes from `s` to `t`. -/
inductive Visits (body : σ → Except ε (σ ⊕ ρ)) : σ → σ → Prop
  | refl (s : σ) : Visits body s s
  | next {s t u : σ} : body s = .ok (.inl t) → Visits body t u → Visits body s u

theorem Visits.trans (h : Visits body s t) (h' : Visits body t u) : Visits body s u := by
  induction h with
  | refl s => exact h'
  | next hs _ ih => exact .next hs (ih h')

/-- What one iteration keeps holds wherever the loop comes. -/
theorem Visits.preserves {P : σ → Prop} (hstep : ∀ t u, P t → body t = .ok (.inl u) → P u)
    (h : Visits body s t) (hs : P s) : P t := by
  induction h with
  | refl s => exact hs
  | next hb _ ih => exact ih (hstep _ _ hs hb)

theorem run_next (h : body s = .ok (.inl t)) (n : ℕ) : run body s (n + 1) = run body t n := by
  rw [run, h]

theorem run_steady (body : σ → Except ε (σ ⊕ ρ)) (s : σ) : Steady (run body s) := by
  intro n
  induction n generalizing s with
  | zero =>
    intro m out _ h
    cases h
  | succ n ih =>
    intro m out hm h
    obtain ⟨m, rfl⟩ : ∃ k, m = k + 1 := ⟨m - 1, by omega⟩
    rw [run] at h ⊢
    split at h
    · exact h
    · exact h
    · exact ih _ m out (by omega) h

/-- Going on in `t` comes to what `t` comes to. -/
theorem yields_next {out : Except ε ρ} (h : body s = .ok (.inl t)) :
    Yields (run body s) out ↔ Yields (run body t) out := by
  constructor
  · rintro ⟨n, hn⟩
    cases n with
    | zero => cases hn
    | succ n => exact ⟨n, by rwa [run_next h] at hn⟩
  · rintro ⟨n, hn⟩
    exact ⟨n + 1, by rwa [run_next h]⟩

theorem yields_visits {out : Except ε ρ} (h : Visits body s t) :
    Yields (run body s) out ↔ Yields (run body t) out := by
  induction h with
  | refl s => exact Iff.rfl
  | next hs _ ih => exact (yields_next hs).trans ih

theorem yields_return {r : ρ} (h : body s = .ok (.inr r)) : Yields (run body s) (.ok r) :=
  ⟨1, by rw [run, h]; rfl⟩

theorem yields_throw {e : ε} (h : body s = .error e) : Yields (run body s) (.error e) :=
  ⟨1, by rw [run, h]; rfl⟩

/-- A loop in a stalled state does not end. -/
theorem not_halts_of_stalled {Stalled : σ → Prop}
    (hstall : ∀ s, Stalled s → ∃ t, body s = .ok (.inl t) ∧ Stalled t) (hs : Stalled s) :
    ¬Halts (run body s) := by
  rintro ⟨out, n, hn⟩
  induction n generalizing s with
  | zero => cases hn
  | succ n ih =>
    obtain ⟨t, ht, hst⟩ := hstall s hs
    rw [run_next ht] at hn
    exact ih hst hn

/-- **When a loop ends.** -/
theorem halts_iff (measure : σ → ℕ) (Stalled : σ → Prop)
    (hstall : ∀ s, Stalled s → ∃ t, body s = .ok (.inl t) ∧ Stalled t)
    (hprogress : ∀ t u, Visits body s t → ¬Stalled t → body t = .ok (.inl u) →
      measure u < measure t) :
    Halts (run body s) ↔ ∀ t, Visits body s t → ¬Stalled t := by
  constructor
  · rintro ⟨out, hout⟩ t hvisit hst
    exact not_halts_of_stalled hstall hst ⟨out, (yields_visits hvisit).mp hout⟩
  · intro hnever
    -- on the measure, which bounds the iterations that are left
    induction hm : measure s using Nat.strongRecOn generalizing s with
    | ind m ih =>
      subst hm
      cases hb : body s with
      | error e => exact ⟨_, yields_throw hb⟩
      | ok r =>
        cases r with
        | inr r => exact ⟨_, yields_return hb⟩
        | inl t =>
          have hlt := hprogress s t (.refl s) (hnever s (.refl s)) hb
          obtain ⟨out, hout⟩ := ih (measure t) hlt
            (fun u v hu => hprogress u v (.next hb hu)) (fun u hu => hnever u (.next hb hu)) rfl
          exact ⟨out, (yields_next hb).mpr hout⟩

/-- **A loop that gets somewhere with every turn ends.** The order may be
any that is well founded, and what the loop keeps may be used for it. -/
theorem halts_of_decreasing {r : σ → σ → Prop} (hwf : WellFounded r) {P : σ → Prop}
    (hstep : ∀ t u, P t → body t = .ok (.inl u) → P u ∧ r u t) (hs : P s) :
    Halts (run body s) := by
  induction s using hwf.induction with
  | _ s ih =>
    cases hb : body s with
    | error e => exact ⟨_, yields_throw hb⟩
    | ok out =>
      cases out with
      | inr result => exact ⟨_, yields_return hb⟩
      | inl t =>
        obtain ⟨ht, hr⟩ := hstep s t hs hb
        obtain ⟨out, hout⟩ := ih t hr ht
        exact ⟨out, (yields_next hb).mpr hout⟩

/-- What a loop returns is returned in a state it comes to. -/
theorem visits_of_yields {result : ρ} (h : Yields (run body s) (.ok result)) :
    ∃ t, Visits body s t ∧ body t = .ok (.inr result) := by
  obtain ⟨n, hn⟩ := h
  induction n generalizing s with
  | zero => cases hn
  | succ n ih =>
    cases hb : body s with
    | error e =>
      rw [run, hb] at hn
      cases hn
    | ok out =>
      cases out with
      | inr result' =>
        rw [run, hb] at hn
        cases hn
        exact ⟨s, .refl s, hb⟩
      | inl t =>
        rw [run_next hb] at hn
        obtain ⟨u, hvisits, hu⟩ := ih hn
        exact ⟨u, .next hb hvisits, hu⟩

end Loop

end Muplar
