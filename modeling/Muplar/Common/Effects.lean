import Mathlib.Tactic.Common
/-!
# Effects that outlive a throw

Code that changes a state and may throw keeps what it changed before the
throw. `Act` is such code and `exec` runs it: it gives how the code ended
and the state it left.

There are two rules. A predicate that every part keeps is kept by the
whole, however it ends (`Keeps`). Code that returned has run to its end
part by part, so what it returned is found by inverting `exec`
(`exec_bind_ok_iff`) and a loop that returned has an invariant over the
list it went through (`foldlM_ok`).
-/

namespace Muplar

/-- Code that may throw, over a state that survives the throw. -/
abbrev Act (σ ε : Type) := ExceptT ε (StateM σ)

namespace Act

variable {σ ε α β γ : Type}

/-- How the code ends, and the state it leaves. -/
def exec (x : Act σ ε α) (s : σ) : Except ε α × σ :=
  x s

/-- Code that may throw and touches nothing. -/
def lift (x : Except ε α) : Act σ ε α :=
  fun s => (x, s)

@[simp] theorem exec_pure (a : α) (s : σ) : exec (pure a : Act σ ε α) s = (.ok a, s) := rfl

@[simp] theorem exec_throw (e : ε) (s : σ) : exec (throw e : Act σ ε α) s = (.error e, s) := rfl

@[simp] theorem exec_lift (x : Except ε α) (s : σ) : exec (lift x) s = (x, s) := rfl

@[simp] theorem exec_get (s : σ) : exec (get : Act σ ε σ) s = (.ok s, s) := rfl

@[simp] theorem exec_set (s s' : σ) : exec (set s' : Act σ ε PUnit) s = (.ok ⟨⟩, s') := rfl

/-- What comes before decides whether the rest runs. -/
theorem exec_bind (x : Act σ ε α) (f : α → Act σ ε β) (s : σ) :
    exec (x >>= f) s = match exec x s with
      | (.ok a, s') => exec (f a) s'
      | (.error e, s') => (.error e, s') := by
  simp only [exec, bind, ExceptT.bind, ExceptT.mk, StateT.bind]
  rcases x s with ⟨r, s'⟩
  cases r with
  | ok a => rfl
  | error e => rfl

@[simp] theorem exec_get_bind (f : σ → Act σ ε β) (s : σ) :
    exec (get >>= f) s = exec (f s) s := rfl

/-- Code that returned has run to its end, part by part. -/
theorem exec_bind_ok_iff {x : Act σ ε α} {f : α → Act σ ε β} {s s' : σ} {b : β} :
    exec (x >>= f) s = (.ok b, s') ↔
      ∃ a s₁, exec x s = (.ok a, s₁) ∧ exec (f a) s₁ = (.ok b, s') := by
  rw [exec_bind]
  rcases exec x s with ⟨e | a, s₁⟩
  · constructor
    · intro h
      cases h
    · rintro ⟨a, s₂, ⟨⟩, -⟩
  · constructor
    · exact fun h => ⟨a, s₁, rfl, h⟩
    · rintro ⟨a', s₂, ⟨⟩, h⟩
      exact h

theorem except_bind_ok_iff {x : Except ε α} {f : α → Except ε β} {b : β} :
    x >>= f = .ok b ↔ ∃ a, x = .ok a ∧ f a = .ok b := by
  cases x with
  | error e =>
    constructor
    · intro h
      cases h
    · rintro ⟨a, ⟨⟩, -⟩
  | ok a =>
    constructor
    · exact fun h => ⟨a, rfl, h⟩
    · rintro ⟨a', ⟨⟩, h⟩
      exact h

theorem exec_lift_ok_iff {x : Except ε α} {s s' : σ} {a : α} :
    exec (lift x) s = (.ok a, s') ↔ x = .ok a ∧ s' = s := by
  rw [exec_lift, Prod.mk.injEq]
  exact and_congr_right fun _ => eq_comm

/-! ## What is kept -/

/-- The predicate holds after the code if it held before, also when the
code throws. -/
def Keeps (P : σ → Prop) (x : Act σ ε α) : Prop :=
  ∀ s, P s → P (exec x s).2

section Keeps

variable {P : σ → Prop}

theorem Keeps.pure (a : α) : Keeps P (pure a : Act σ ε α) := fun _ h => h

theorem Keeps.throw (e : ε) : Keeps P (throw e : Act σ ε α) := fun _ h => h

theorem Keeps.lift (x : Except ε α) : Keeps P (lift x) := fun _ h => h

theorem Keeps.bind {x : Act σ ε α} {f : α → Act σ ε β} (hx : Keeps P x)
    (hf : ∀ a, Keeps P (f a)) : Keeps P (x >>= f) := by
  intro s hs
  have hfirst := hx s hs
  rw [exec_bind]
  rcases hrun : exec x s with ⟨e | a, s₁⟩
  · rw [hrun] at hfirst
    exact hfirst
  · rw [hrun] at hfirst
    exact hf a s₁ hfirst

/-- Code that looks at the state is judged at the state it finds. -/
theorem Keeps.get_bind {f : σ → Act σ ε β} (h : ∀ s, P s → P (exec (f s) s).2) :
    Keeps P (get >>= f) :=
  fun s hs => h s hs

theorem Keeps.foldlM {f : β → γ → Act σ ε β} {items : List γ}
    (h : ∀ item ∈ items, ∀ b, Keeps P (f b item)) (b : β) : Keeps P (items.foldlM f b) := by
  induction items generalizing b with
  | nil => exact Keeps.pure b
  | cons item items ih =>
    rw [List.foldlM_cons]
    exact (h item List.mem_cons_self b).bind fun b' =>
      ih (fun other hother => h other (List.mem_cons_of_mem _ hother)) b'

end Keeps

/-! ## Loops that returned -/

/-- **A loop that returned.** An invariant over the items gone through so
far holds at its end for all of them. -/
theorem foldlM_ok {f : β → γ → Act σ ε β} {J : List γ → β → σ → Prop} {items : List γ}
    (hstep : ∀ before item after b s b' s', items = before ++ item :: after → J before b s →
      exec (f b item) s = (.ok b', s') → J (before ++ [item]) b' s')
    {b b' : β} {s s' : σ} (hstart : J [] b s)
    (h : exec (items.foldlM f b) s = (.ok b', s')) : J items b' s' := by
  -- the induction is on what is still to come, with what was gone through before it
  suffices hgen : ∀ (after before : List γ) b s, items = before ++ after → J before b s →
      exec (after.foldlM f b) s = (.ok b', s') → J items b' s' from
    hgen items [] b s rfl hstart h
  intro after
  induction after with
  | nil =>
    intro before b s hitems hJ hrun
    rw [List.append_nil] at hitems
    rw [List.foldlM_nil, exec_pure] at hrun
    cases hrun
    rwa [hitems]
  | cons item after ih =>
    intro before b s hitems hJ hrun
    rw [List.foldlM_cons] at hrun
    obtain ⟨b₁, s₁, hfirst, hrest⟩ := exec_bind_ok_iff.mp hrun
    refine ih (before ++ [item]) b₁ s₁ ?_ (hstep before item after b s b₁ s₁ hitems hJ hfirst) hrest
    rw [hitems, List.append_assoc, List.singleton_append]

end Act

end Muplar
