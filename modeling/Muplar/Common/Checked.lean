import Muplar.Common.Loop
/-!
# Element accesses that may fail

Indexing a vector outside its bounds is undefined. Code that indexes is
written here with every access explicit: `element` and `part` stop with a
`fault` where the index is not below the size, which no handler of the
code catches.

To show that no access faults, the code is compared with a version that
takes its elements for granted: where the two agree (`raise`, `raised`),
no access of the first can fault, and it returns or throws where the
second does (`safeIf_raised`).
-/

namespace Muplar

namespace Checked

/-- Why code stops early: an index out of bounds, or what it threw. -/
inductive Stop (ε : Type)
  | fault (index : ℕ)
  | thrown (e : ε)
  deriving DecidableEq

variable {ε α β σ ρ : Type}

/-- `xs[i]`. -/
def element (xs : List α) (i : ℕ) : Except (Stop ε) α :=
  match xs[i]? with
  | some x => .ok x
  | none => .error (.fault i)

/-- The elements from a pointer on, `len` of them. -/
def part (xs : List α) (off len : ℕ) : Except (Stop ε) (List α) :=
  if off + len ≤ xs.length then .ok ((xs.drop off).take len) else .error (.fault (off + len - 1))

theorem element_eq {xs : List α} {i : ℕ} (h : i < xs.length) :
    (element xs i : Except (Stop ε) α) = .ok xs[i] := by
  rw [element, List.getElem?_eq_getElem h]

/-- What is there is handed on. -/
theorem ok_bind (a : α) (f : α → Except ε β) : (Except.ok a >>= f) = f a := rfl

theorem part_eq {xs : List α} {off len : ℕ} (h : off + len ≤ xs.length) :
    (part xs off len : Except (Stop ε) (List α)) = .ok ((xs.drop off).take len) :=
  if_pos h

/-! ## Code without accesses -/

/-- Code that takes its elements for granted, among code that does not. -/
def raise (x : Except ε α) : Except (Stop ε) α :=
  x.mapError .thrown

@[simp] theorem raise_ok (a : α) : raise (.ok a : Except ε α) = .ok a := rfl

@[simp] theorem raise_error (e : ε) : raise (.error e : Except ε α) = .error (.thrown e) := rfl

@[simp] theorem raise_pure (a : α) : raise (pure a : Except ε α) = pure a := rfl

@[simp] theorem raise_throw (e : ε) : raise (throw e : Except ε α) = throw (.thrown e) := rfl

theorem raise_bind (x : Except ε α) (f : α → Except ε β) :
    raise (x >>= f) = raise x >>= fun a => raise (f a) := by
  cases x with
  | error e => rfl
  | ok a => rfl

theorem raise_ite (c : Prop) [Decidable c] (x y : Except ε α) :
    raise (if c then x else y) = if c then raise x else raise y :=
  apply_ite raise c x y

theorem raise_ne_fault (x : Except ε α) (i : ℕ) : raise x ≠ .error (.fault i) := by
  cases x with
  | error e =>
    intro h
    cases h
  | ok a =>
    intro h
    cases h

/-! ## Loops -/

def raised (x : ExceptT ε Option α) : ExceptT (Stop ε) Option α :=
  ExceptT.mk (x.run.map raise)

/-- Code that does not depend on fuel. -/
def atOnce (x : Except ε α) : ExceptT ε Option α :=
  ExceptT.mk (some x)

theorem raised_bind (x : ExceptT ε Option α) (f : α → ExceptT ε Option β) :
    raised (x >>= f) = raised x >>= fun a => raised (f a) := by
  refine ExceptT.ext ?_
  rw [ExceptT.run_bind]
  show Option.map raise (x >>= f).run = Option.bind (Option.map raise x.run) _
  rw [ExceptT.run_bind]
  rcases x.run with _ | (e | a)
  · rfl
  · rfl
  · rfl

/-- A loop agrees if its body does, wherever the loop comes. -/
theorem run_raised {body : σ → Except ε (σ ⊕ ρ)} {checked : σ → Except (Stop ε) (σ ⊕ ρ)}
    {P : σ → Prop} (hbody : ∀ s, P s → checked s = raise (body s))
    (hkeep : ∀ s t, P s → body s = .ok (.inl t) → P t) {s : σ} (hs : P s) (n : ℕ) :
    Loop.run checked s n = raised (Loop.run body s n) := by
  induction n generalizing s with
  | zero => rfl
  | succ n ih =>
    rw [Loop.run, Loop.run, hbody s hs]
    cases hnext : body s with
    | error e => rfl
    | ok r =>
      cases r with
      | inr r => rfl
      | inl t => exact ih (hkeep s t hs hnext)

/-! ## What is safe -/

/-- No access faults, however long the code runs. -/
def Inside (c : Loop.Fueled (Stop ε) α) : Prop :=
  ∀ n i, (c n).run ≠ some (.error (.fault i))

/-- The code returns, or it throws. -/
def Ends (c : Loop.Fueled (Stop ε) α) : Prop :=
  (∃ a, Loop.Yields c (.ok a)) ∨ ∃ e, Loop.Yields c (.error (.thrown e))

/-- No access faults, and where `P` holds the code returns or throws. -/
def SafeIf (P : Prop) (c : Loop.Fueled (Stop ε) α) : Prop :=
  Inside c ∧ (P → Ends c)

theorem inside_raised (c : Loop.Fueled ε α) : Inside fun n => raised (c n) := by
  intro n i h
  obtain ⟨x, -, hx⟩ := Option.map_eq_some_iff.mp h
  exact raise_ne_fault x i hx

theorem ends_raised {c : Loop.Fueled ε α} (h : Loop.Halts c) : Ends fun n => raised (c n) := by
  obtain ⟨out, n, hn⟩ := h
  have hraised : (raised (c n)).run = some (raise out) := congrArg (Option.map raise) hn
  cases out with
  | ok a => exact Or.inl ⟨a, n, hraised⟩
  | error e => exact Or.inr ⟨e, n, hraised⟩

/-- **Code that agrees with code without accesses is safe** where that
code ends. -/
theorem safeIf_raised {P : Prop} {checked : Loop.Fueled (Stop ε) α} {c : Loop.Fueled ε α}
    (heq : ∀ n, checked n = raised (c n)) (hhalts : P → Loop.Halts c) : SafeIf P checked := by
  rw [funext heq]
  exact ⟨inside_raised c, fun hp => ends_raised (hhalts hp)⟩

end Checked

end Muplar
