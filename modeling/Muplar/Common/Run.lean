import Mathlib.Data.List.Basic
/-!
# Runs of a machine

A machine is a step function on states and events, and a run is a list of
events. What a run does is said state by state: every event `Meets` a
condition in the state it comes to, a property holds `Throughout` the
states passed. Both unfold along the list, so they can be evaluated on a
run that is given.

The rules at the end are how a run is reasoned about: an invariant is
carried along, and a property that one step keeps exactly under a
condition holds throughout a run exactly where every event meets the
condition.
-/

namespace Muplar

namespace Machine

variable {S E : Type*} {step : S → E → S} {s : S} {es : List E}

/-- The state after the events. -/
def run (step : S → E → S) (s : S) (es : List E) : S :=
  es.foldl step s

/-- Every event meets `ok` in the state it comes to. -/
def Meets (step : S → E → S) (ok : S → E → Prop) : S → List E → Prop
  | _, [] => True
  | s, e :: es => ok s e ∧ Meets step ok (step s e) es

/-- `P` holds of every state of the run, the last one included. -/
def Throughout (step : S → E → S) (P : S → Prop) : S → List E → Prop
  | s, [] => P s
  | s, e :: es => P s ∧ Throughout step P (step s e) es

instance decidableMeets {ok : S → E → Prop} [∀ s e, Decidable (ok s e)] :
    (s : S) → (es : List E) → Decidable (Meets step ok s es)
  | _, [] => inferInstanceAs (Decidable True)
  | s, e :: es =>
    have : Decidable (Meets step ok (step s e) es) := decidableMeets (step s e) es
    inferInstanceAs (Decidable (ok s e ∧ Meets step ok (step s e) es))

@[simp] theorem run_nil : run step s [] = s := rfl

@[simp] theorem run_cons {e : E} : run step s (e :: es) = run step (step s e) es := rfl

theorem run_concat {e : E} : run step s (es ++ [e]) = step (run step s es) e := by
  rw [run, List.foldl_append]
  rfl

theorem run_append {es' : List E} : run step s (es ++ es') = run step (run step s es) es' :=
  List.foldl_append

theorem meets_append {ok : S → E → Prop} {es' : List E} : Meets step ok s (es ++ es') ↔
    Meets step ok s es ∧ Meets step ok (run step s es) es' := by
  induction es generalizing s with
  | nil => exact (and_iff_right trivial).symm
  | cons e es ih =>
    rw [List.cons_append, Meets, ih, run_cons, Meets, and_assoc]

theorem Meets.mono {ok ok' : S → E → Prop} (h : ∀ e ∈ es, ∀ s, ok s e → ok' s e)
    (hm : Meets step ok s es) : Meets step ok' s es := by
  induction es generalizing s with
  | nil => trivial
  | cons e es ih =>
    exact ⟨h e List.mem_cons_self s hm.1, ih (fun f hf => h f (List.mem_cons_of_mem e hf)) hm.2⟩

theorem Meets.and {ok ok' : S → E → Prop} (h : Meets step ok s es) (h' : Meets step ok' s es) :
    Meets step (fun s e => ok s e ∧ ok' s e) s es := by
  induction es generalizing s with
  | nil => trivial
  | cons e es ih => exact ⟨⟨h.1, h'.1⟩, ih h.2 h'.2⟩

theorem Throughout.mono {P Q : S → Prop} (h : ∀ s, P s → Q s) (ht : Throughout step P s es) :
    Throughout step Q s es := by
  induction es generalizing s with
  | nil => exact h s ht
  | cons e es ih => exact ⟨h s ht.1, ih ht.2⟩

/-! ## The rules -/

variable {K G : S → Prop} {en ok : S → E → Prop}

/-- **The invariant rule.** What every admitted step keeps holds in every
state of an admitted run. -/
theorem throughout_of_invariant (hK : ∀ s e, K s → en s e → K (step s e)) (h : K s)
    (hm : Meets step en s es) : Throughout step K s es := by
  induction es generalizing s with
  | nil => exact h
  | cons e es ih => exact ⟨h, ih (hK s e h hm.1) hm.2⟩

/-- The rule for a machine that admits every event. -/
theorem throughout_of_kept (hK : ∀ s e, K s → K (step s e)) (h : K s) (es : List E) :
    Throughout step K s es := by
  induction es generalizing s with
  | nil => exact h
  | cons e es ih => exact ⟨h, ih (hK s e h)⟩

/-- What an invariant gives of every admitted step is met throughout an
admitted run. -/
theorem meets_of_invariant {P : S → E → Prop} (hK : ∀ s e, K s → en s e → K (step s e))
    (hP : ∀ s e, K s → en s e → P s e) (h : K s) (hm : Meets step en s es) :
    Meets step P s es := by
  induction es generalizing s with
  | nil => trivial
  | cons e es ih => exact ⟨hP s e h hm.1, ih (hK s e h hm.1) hm.2⟩

/-- The rule for steps of a machine that admits every event. -/
theorem meets_of_kept {P : S → E → Prop} (hK : ∀ s e, K s → K (step s e))
    (hP : ∀ s e, K s → P s e) (h : K s) (es : List E) : Meets step P s es := by
  induction es generalizing s with
  | nil => trivial
  | cons e es ih => exact ⟨hP s e h, ih (hK s e h)⟩

/-- What holds throughout a run holds where it ends. -/
theorem Throughout.last (h : Throughout step K s es) : K (run step s es) := by
  induction es generalizing s with
  | nil => exact h
  | cons e es ih => exact ih h.2

theorem Throughout.head (h : Throughout step K s es) : K s := by
  cases es with
  | nil => exact h
  | cons e es => exact h.1

/-- **The exact rule.** Under an invariant `K`, a property that one step
keeps exactly under a condition holds throughout a run exactly where
every event meets the condition. -/
theorem throughout_iff_meets (hK : ∀ s e, K s → en s e → K (step s e))
    (hG : ∀ s e, K s → G s → en s e → (G (step s e) ↔ ok s e)) (h : K s) (hg : G s)
    (hm : Meets step en s es) : Throughout step G s es ↔ Meets step ok s es := by
  induction es generalizing s with
  | nil => exact ⟨fun _ => trivial, fun _ => hg⟩
  | cons e es ih =>
    constructor
    · rintro ⟨-, ht⟩
      have hg' := ht.head
      exact ⟨(hG s e h hg hm.1).mp hg', (ih (hK s e h hm.1) hg' hm.2).mp ht⟩
    · rintro ⟨hok, hrest⟩
      have hg' := (hG s e h hg hm.1).mpr hok
      exact ⟨hg, (ih (hK s e h hm.1) hg' hm.2).mpr hrest⟩

/-- **The rule of the first break.** Where `K` is kept by every event that
meets the condition and gives the property, and every other event breaks
it at once, the property holds throughout a run exactly where every event
meets the condition. -/
theorem throughout_iff_meets_of_breaks (hK : ∀ s e, K s → ok s e → K (step s e))
    (hG : ∀ s, K s → G s) (hbreak : ∀ s e, K s → ¬ok s e → ¬G (step s e)) (h : K s) :
    Throughout step G s es ↔ Meets step ok s es := by
  induction es generalizing s with
  | nil => exact ⟨fun _ => trivial, fun _ => hG s h⟩
  | cons e es ih =>
    constructor
    · rintro ⟨-, ht⟩
      have hok : ok s e := by
        by_contra hno
        exact hbreak s e h hno ht.head
      exact ⟨hok, (ih (hK s e h hok)).mp ht⟩
    · rintro ⟨hok, hrest⟩
      exact ⟨hG s h, (ih (hK s e h hok)).mpr hrest⟩

/-- **The exact rule for steps.** Under an invariant that is kept where the
condition is met, a property of steps that is equivalent to the condition
is met throughout a run exactly where the condition is. -/
theorem meets_iff_meets {P : S → E → Prop} (hK : ∀ s e, K s → en s e → ok s e → K (step s e))
    (hP : ∀ s e, K s → en s e → (P s e ↔ ok s e)) (h : K s) (hm : Meets step en s es) :
    Meets step P s es ↔ Meets step ok s es := by
  induction es generalizing s with
  | nil => exact Iff.rfl
  | cons e es ih =>
    constructor
    · rintro ⟨hp, hrest⟩
      have hok := (hP s e h hm.1).mp hp
      exact ⟨hok, (ih (hK s e h hm.1 hok) hm.2).mp hrest⟩
    · rintro ⟨hok, hrest⟩
      exact ⟨(hP s e h hm.1).mpr hok, (ih (hK s e h hm.1 hok) hm.2).mpr hrest⟩

/-- The rule for a machine that admits every event and keeps its
invariant whatever happens. -/
theorem meets_congr {P : S → E → Prop} (hK : ∀ s e, K s → K (step s e))
    (hP : ∀ s e, K s → (P s e ↔ ok s e)) (h : K s) (es : List E) :
    Meets step P s es ↔ Meets step ok s es := by
  induction es generalizing s with
  | nil => exact Iff.rfl
  | cons e es ih => exact and_congr (hP s e h) (ih (hK s e h))

end Machine

end Muplar
