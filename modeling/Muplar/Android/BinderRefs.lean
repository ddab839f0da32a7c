import Mathlib.Algebra.BigOperators.Intervals
import Muplar.Common.Run
import Muplar.Android.Binder
/-!
# The Android runtime — strong references

A local binder's count is meant to be the references the guest holds plus
the binders whose extension it is. Each call keeps that equation but one:
a lookup that finds a local binder gives the guest a reference and counts
nothing. As long as none does, and no count runs over its 32 bits, no
binder is destroyed under a guest that holds it, whatever is destroyed
along with an extension.
-/

namespace Muplar

namespace Android

/-! ## Runs and what is asked of them -/

/-- The table with a record of the run: the references the guest has
obtained and not released, and the services it has registered. -/
structure BinderWorld where
  binders : Binders
  held : ℕ → ℕ
  registered : List (Bytes × ℕ)

/-- The binder a call gives the guest a reference to. -/
def BinderCall.grants (b : Binders) (c : BinderCall) : Option ℕ :=
  match c with
  | .new _ _ _ | .serviceLookup _ _ | .weakPromote _ => some (b.call c).result |>.filter (· ≠ 0)
  | .incStrong handle => if (b.services handle).isSome then some handle else none
  | .getExtension _ _ => (b.call c).out.filter (· ≠ 0)
  | .readStrongBinder _ => (b.call c).out.filter fun h => (b.services h).isSome
  | _ => none

/-- The binder a call takes a reference of the guest's from. -/
def BinderCall.releases : BinderCall → Option ℕ
  | .decStrong handle => some handle
  | _ => none

/-- The service a call registers. -/
def BinderCall.registers (b : Binders) (c : BinderCall) : List (Bytes × ℕ) :=
  match c with
  | .addService handle name => if (b.call c).result = statusOk then [(name, handle)] else []
  | _ => []

def BinderWorld.step (w : BinderWorld) (c : BinderCall) : BinderWorld where
  binders := (w.binders.call c).binders
  held h := w.held h - (if c.releases = some h then 1 else 0) +
    (if c.grants w.binders = some h then 1 else 0)
  registered := c.registers w.binders ++ w.registered

def BinderWorld.start : BinderWorld where
  binders := .empty
  held _ := 0
  registered := []

/-- **References are sound.** No binder the guest holds a reference to was
destroyed, and a service that is alive is found under the name it was
registered with. -/
def BinderWorld.Sound (w : BinderWorld) : Prop :=
  (∀ h, 0 < w.held h → (w.binders.services h).isSome) ∧
    ∀ p ∈ w.registered, (w.binders.services p.2).any (·.alive) = true →
      ∀ owned, (w.binders.serviceLookup p.1 owned).result = p.2

/-- The guest releases a reference it has. -/
def BinderCall.Admitted (w : BinderWorld) (c : BinderCall) : Prop :=
  c.releases.all fun h => 0 < w.held h

/-- The call is a lookup, and finds a local service that is alive. -/
def BinderCall.findsLocal (b : Binders) : BinderCall → Bool
  | .serviceLookup name _ => (b.serviceByName name).any fun h =>
      (b.services h).any fun s => s.alive && !s.remote
  | _ => false

/-- The binder whose count a call may add to. -/
def BinderCall.acquires (b : Binders) : BinderCall → Option ℕ
  | .incStrong handle => some handle
  | .weakPromote weak => b.weaks weak
  | .setExtension _ extension => some extension
  | .getExtension handle _ => (b.services handle).map BinderService.extensionHandle
  | .readStrongBinder parcel => (b.parcels parcel).bind fun p =>
      p.values[p.cursor]?.map fun v => v.value.toNat
  | _ => none

/-- It is a local binder's, and has no room for one more. -/
def BinderCall.overflows (b : Binders) (c : BinderCall) : Bool :=
  (c.acquires b).any fun h => (b.services h).any fun s => !s.remote && 2 ^ 32 ≤ s.refCount + 1

/-- **The call counts what it gives.** -/
def BinderCall.Counted (w : BinderWorld) (c : BinderCall) : Prop :=
  c.findsLocal w.binders = false ∧ c.overflows w.binders = false

instance (w : BinderWorld) (c : BinderCall) : Decidable (c.Admitted w) :=
  inferInstanceAs (Decidable (_ = true))

instance (w : BinderWorld) (c : BinderCall) : Decidable (c.Counted w) :=
  inferInstanceAs (Decidable (_ ∧ _))

theorem BinderCall.Counted.room {w : BinderWorld} {c : BinderCall} (hc : c.Counted w) {h : ℕ}
    (hh : c.acquires w.binders = some h) :
    ∀ s ∈ w.binders.services h, s.remote = false → s.refCount + 1 < 2 ^ 32 := by
  intro s hs hlocal
  have hno := hc.2
  rw [Option.mem_def] at hs
  simp only [BinderCall.overflows, hh, hs, hlocal, Option.any_some, Bool.not_false,
    Bool.true_and, decide_eq_false_iff_not] at hno
  omega

/-! ## Counting extensions -/

/-- Whether the extension of one entry is `k`, as a number. -/
def Binders.extensionAt (b : Binders) (j k : ℕ) : ℕ :=
  if (b.services j).map BinderService.extensionHandle = some k then 1 else 0

/-- The number of binders whose extension is `k`. -/
def Binders.extensionsOf (b : Binders) (k : ℕ) : ℕ :=
  ∑ j ∈ Finset.Ico firstBinderHandle b.nextBinderHandle, b.extensionAt j k

/-- The number of entries. -/
def Binders.present (b : Binders) : ℕ :=
  ((Finset.Ico firstBinderHandle b.nextBinderHandle).filter fun j => (b.services j).isSome).card

section Counting

variable {b b' : Binders} {j k : ℕ}

/-- Two tables that differ in one entry. -/
theorem extensionsOf_of_agree (b b' : Binders) (j k : ℕ)
    (hnext : b'.nextBinderHandle = b.nextBinderHandle)
    (hoff : ∀ i, i ≠ j → b'.services i = b.services i)
    (hj : firstBinderHandle ≤ j ∧ j < b.nextBinderHandle) :
    b'.extensionsOf k + b.extensionAt j k = b.extensionsOf k + b'.extensionAt j k := by
  have hmem : j ∈ Finset.Ico firstBinderHandle b.nextBinderHandle := Finset.mem_Ico.mpr hj
  have hrest : ∑ i ∈ (Finset.Ico firstBinderHandle b.nextBinderHandle).erase j,
      b'.extensionAt i k =
        ∑ i ∈ (Finset.Ico firstBinderHandle b.nextBinderHandle).erase j, b.extensionAt i k := by
    refine Finset.sum_congr rfl fun i hi => ?_
    rw [Binders.extensionAt, Binders.extensionAt, hoff i (Finset.ne_of_mem_erase hi)]
  rw [Binders.extensionsOf, Binders.extensionsOf, hnext, ← Finset.add_sum_erase _ _ hmem, hrest,
    ← Finset.add_sum_erase _ (fun i => b.extensionAt i k) hmem]
  omega

theorem extensionsOf_congr (hnext : b'.nextBinderHandle = b.nextBinderHandle)
    (h : ∀ i, (b'.services i).map BinderService.extensionHandle =
      (b.services i).map BinderService.extensionHandle) (k : ℕ) :
    b'.extensionsOf k = b.extensionsOf k := by
  rw [Binders.extensionsOf, Binders.extensionsOf, hnext]
  refine Finset.sum_congr rfl fun i _ => ?_
  rw [Binders.extensionAt, Binders.extensionAt, h]

theorem exists_of_extensionsOf_pos (h : 0 < b.extensionsOf k) :
    ∃ i s, b.services i = some s ∧ s.extensionHandle = k := by
  obtain ⟨i, -, hi⟩ := Finset.exists_ne_zero_of_sum_ne_zero (Nat.ne_of_gt h)
  rw [Binders.extensionAt] at hi
  split at hi
  · next hsome =>
    obtain ⟨s, hs, hext⟩ := Option.map_eq_some_iff.mp hsome
    exact ⟨i, s, hs, hext⟩
  · exact absurd rfl hi

theorem extensionsOf_create {s : BinderService} (hlow : firstBinderHandle ≤ b.nextBinderHandle)
    (hs : s.extensionHandle = 0) (hk : k ≠ 0) :
    (b.create s).extensionsOf k = b.extensionsOf k := by
  rw [Binders.extensionsOf, Binders.extensionsOf]
  show ∑ i ∈ Finset.Ico firstBinderHandle (b.nextBinderHandle + 1), _ = _
  rw [Finset.sum_Ico_succ_top hlow]
  have hnew : (b.create s).extensionAt b.nextBinderHandle k = 0 := by
    simp [Binders.extensionAt, Binders.create, hs, hk.symm]
  have hold : ∑ i ∈ Finset.Ico firstBinderHandle b.nextBinderHandle,
      (b.create s).extensionAt i k =
        ∑ i ∈ Finset.Ico firstBinderHandle b.nextBinderHandle, b.extensionAt i k := by
    refine Finset.sum_congr rfl fun i hi => ?_
    have hne : i ≠ b.nextBinderHandle := Nat.ne_of_lt (Finset.mem_Ico.mp hi).2
    simp [Binders.extensionAt, Binders.create, hne]
  omega

theorem present_erase {s : BinderService} (hs : b.services j = some s)
    (hj : firstBinderHandle ≤ j ∧ j < b.nextBinderHandle) :
    (b.erase j).present + 1 = b.present := by
  have hset : ((Finset.Ico firstBinderHandle b.nextBinderHandle).filter fun i =>
      ((b.erase j).services i).isSome) =
        ((Finset.Ico firstBinderHandle b.nextBinderHandle).filter fun i =>
          (b.services i).isSome).erase j := by
    ext i
    rw [Finset.mem_filter, Finset.mem_erase, Finset.mem_filter]
    by_cases hi : i = j
    · simp [hi, Binders.erase]
    · simp [hi, Binders.erase]
  have hmem : j ∈ (Finset.Ico firstBinderHandle b.nextBinderHandle).filter fun i =>
      (b.services i).isSome := by
    simp [hj, hs]
  have hcard := Finset.card_erase_add_one hmem
  rw [← hset] at hcard
  exact hcard

theorem present_lt : b.present < b.nextBinderHandle + 1 := by
  have hle := Finset.card_filter_le (Finset.Ico firstBinderHandle b.nextBinderHandle)
    fun j => (b.services j).isSome
  rw [Nat.card_Ico] at hle
  unfold Binders.present
  omega

/-- A release stops before its fuel does: each turn erases an entry. -/
theorem releaseFuel_eq (fuel fuel' handle : ℕ)
    (hrange : ∀ k s, b.services k = some s → firstBinderHandle ≤ k ∧ k < b.nextBinderHandle)
    (hfuel : b.present < fuel) (hfuel' : b.present < fuel') :
    b.releaseFuel fuel handle = b.releaseFuel fuel' handle := by
  induction fuel generalizing b handle fuel' with
  | zero => omega
  | succ fuel ih =>
    obtain ⟨fuel', rfl⟩ : ∃ n, fuel' = n + 1 := ⟨fuel' - 1, by omega⟩
    rw [Binders.releaseFuel, Binders.releaseFuel]
    cases hs : b.services handle with
    | none => rfl
    | some s =>
      have hcard := present_erase hs (hrange handle s hs)
      have hrest : (b.erase handle).releaseFuel fuel s.extensionHandle =
          (b.erase handle).releaseFuel fuel' s.extensionHandle := by
        refine ih fuel' s.extensionHandle (fun k t ht => ?_) (by omega) (by omega)
        by_cases hk : k = handle
        · rw [hk, erase_services_self] at ht
          cases ht
        · rw [erase_services_of_ne hk] at ht
          exact hrange k t ht
      simp only [hrest]

end Counting

/-! ## The equation -/

/-- **The table is balanced.** A local binder's count is what is `owed`
for it plus the binders whose extension it is; what is held, and what is
an extension, is there. -/
structure Balanced (b : Binders) (owed held : ℕ → ℕ) : Prop where
  low : firstBinderHandle ≤ b.nextBinderHandle
  range : ∀ h s, b.services h = some s → firstBinderHandle ≤ h ∧ h < b.nextBinderHandle
  refs : ∀ h s, b.services h = some s → s.remote = false →
    s.refCount = owed h + b.extensionsOf h
  held : ∀ h, 0 < held h → (b.services h).isSome
  extension : ∀ h s, b.services h = some s → s.extensionHandle ≠ 0 →
    (b.services s.extensionHandle).isSome

/-- What counting looks at. -/
def BinderService.counts (s : BinderService) : ℕ × Bool × ℕ :=
  (s.refCount, s.remote, s.extensionHandle)

section Balance

variable {b b' : Binders} {owed held : ℕ → ℕ} {handle : ℕ}

theorem Balanced.ne_zero (h : Balanced b owed held) {k : ℕ} {s : BinderService}
    (hs : b.services k = some s) : k ≠ 0 := by
  have hrange := (h.range k s hs).1
  unfold firstBinderHandle at hrange
  omega

/-- A table that counts the same is as balanced. -/
theorem Balanced.congr (h : Balanced b owed held)
    (hnext : b'.nextBinderHandle = b.nextBinderHandle)
    (hcounts : ∀ k, (b'.services k).map BinderService.counts =
      (b.services k).map BinderService.counts) : Balanced b' owed held := by
  have hback : ∀ k s', b'.services k = some s' → ∃ s, b.services k = some s ∧
      s.counts = s'.counts := by
    intro k s' hs'
    have hk := hcounts k
    rw [hs', Option.map_some] at hk
    exact Option.map_eq_some_iff.mp hk.symm
  have hsome : ∀ k, (b'.services k).isSome = (b.services k).isSome := by
    intro k
    have hk := congrArg Option.isSome (hcounts k)
    simpa using hk
  have hext : ∀ k, b'.extensionsOf k = b.extensionsOf k := by
    refine extensionsOf_congr hnext fun i => ?_
    have hi := congrArg (Option.map fun c => c.2.2) (hcounts i)
    simpa [BinderService.counts, Function.comp_def] using hi
  refine ⟨hnext ▸ h.low, fun k s' hs' => ?_, fun k s' hs' hlocal => ?_, fun k hk => ?_,
    fun k s' hs' hne => ?_⟩
  · obtain ⟨s, hs, -⟩ := hback k s' hs'
    rw [hnext]
    exact h.range k s hs
  · obtain ⟨s, hs, heq⟩ := hback k s' hs'
    simp only [BinderService.counts, Prod.mk.injEq] at heq
    rw [hext, ← heq.1]
    exact h.refs k s hs (heq.2.1.trans hlocal)
  · rw [hsome]
    exact h.held k hk
  · obtain ⟨s, hs, heq⟩ := hback k s' hs'
    simp only [BinderService.counts, Prod.mk.injEq] at heq
    rw [hsome, ← heq.2.2]
    exact h.extension k s hs (by rw [heq.2.2]; exact hne)

/-- Changing what counting does not look at. -/
theorem Balanced.modify (h : Balanced b owed held) (handle : ℕ)
    {f : BinderService → BinderService} (hf : ∀ s, (f s).counts = s.counts) :
    Balanced (b.modify handle f) owed held := by
  refine h.congr rfl fun k => ?_
  by_cases hk : k = handle
  · rw [hk, modify_services_self, Option.map_map]
    congr 1
    funext s
    exact hf s
  · rw [modify_services_of_ne _ hk]

/-- A change of one count and of what is owed for it. -/
theorem Balanced.recount (h : Balanced b owed held) {owed' held' : ℕ → ℕ}
    {f : BinderService → BinderService} (hrest : ∀ s, (f s).remote = s.remote ∧
      (f s).extensionHandle = s.extensionHandle)
    (howed : ∀ k, k ≠ handle → owed' k = owed k)
    (hcount : ∀ s, b.services handle = some s → s.remote = false →
      (f s).refCount + owed handle = s.refCount + owed' handle)
    (hheld : ∀ k, 0 < held' k → (b.services k).isSome) :
    Balanced (b.modify handle f) owed' held' := by
  have hext : ∀ k, (b.modify handle f).extensionsOf k = b.extensionsOf k := by
    refine extensionsOf_congr rfl fun i => ?_
    by_cases hi : i = handle
    · rw [hi, modify_services_self, Option.map_map]
      congr 1
      funext s
      exact (hrest s).2
    · rw [modify_services_of_ne _ hi]
  have hsome : ∀ k, ((b.modify handle f).services k).isSome = (b.services k).isSome := by
    intro k
    by_cases hk : k = handle
    · rw [hk, modify_services_self, Option.isSome_map]
    · rw [modify_services_of_ne _ hk]
  have hback : ∀ k s', (b.modify handle f).services k = some s' →
      ∃ s, b.services k = some s ∧ (k = handle ∧ s' = f s ∨ k ≠ handle ∧ s' = s) := by
    intro k s' hs'
    by_cases hk : k = handle
    · rw [hk, modify_services_self] at hs'
      obtain ⟨s, hs, rfl⟩ := Option.map_eq_some_iff.mp hs'
      exact ⟨s, hk ▸ hs, Or.inl ⟨hk, rfl⟩⟩
    · rw [modify_services_of_ne _ hk] at hs'
      exact ⟨s', hs', Or.inr ⟨hk, rfl⟩⟩
  refine ⟨h.low, fun k s' hs' => ?_, fun k s' hs' hlocal => ?_, fun k hk => ?_,
    fun k s' hs' hne => ?_⟩
  · obtain ⟨s, hs, -⟩ := hback k s' hs'
    exact h.range k s hs
  · rw [hext]
    obtain ⟨s, hs, ⟨rfl, rfl⟩ | ⟨hk, rfl⟩⟩ := hback k s' hs'
    · rw [(hrest s).1] at hlocal
      have hrefs := h.refs k s hs hlocal
      have := hcount s hs hlocal
      omega
    · rw [howed k hk]
      exact h.refs k s' hs hlocal
  · rw [hsome]
    exact hheld k hk
  · rw [hsome]
    obtain ⟨s, hs, ⟨-, rfl⟩ | ⟨-, rfl⟩⟩ := hback k s' hs'
    · rw [(hrest s).2] at hne ⊢
      exact h.extension k s hs hne
    · exact h.extension k s' hs hne

theorem Balanced.owed_congr (h : Balanced b owed held) (owed' : ℕ → ℕ)
    (howed : ∀ k s, b.services k = some s → s.remote = false → owed' k = owed k) :
    Balanced b owed' held := by
  refine ⟨h.low, h.range, fun k s hs hlocal => ?_, h.held, h.extension⟩
  rw [howed k s hs hlocal]
  exact h.refs k s hs hlocal

theorem Balanced.held_mono (h : Balanced b owed held) (held' : ℕ → ℕ)
    (hle : ∀ k, held' k ≤ held k) : Balanced b owed held' :=
  ⟨h.low, h.range, h.refs, fun k hk => h.held k (Nat.lt_of_lt_of_le hk (hle k)), h.extension⟩

theorem extensionsOf_pos {k : ℕ} {s : BinderService} (hs : b.services k = some s)
    (hk : firstBinderHandle ≤ k ∧ k < b.nextBinderHandle) :
    0 < b.extensionsOf s.extensionHandle := by
  have hterm : b.extensionAt k s.extensionHandle = 1 := by
    simp [Binders.extensionAt, hs]
  rw [Binders.extensionsOf, ← Finset.add_sum_erase _ _ (Finset.mem_Ico.mpr hk), hterm]
  omega

/-- An entry that nobody holds and that is nobody's extension is erased:
its own extension has one reference too many. -/
theorem Balanced.erase (h : Balanced b owed held) {s : BinderService}
    (hs : b.services handle = some s) (hheld : held handle = 0)
    (hexts : b.extensionsOf handle = 0) :
    Balanced (b.erase handle)
      (fun k => owed k + if k = s.extensionHandle then 1 else 0) held := by
  have hoff : ∀ k, k ≠ handle → (b.erase handle).services k = b.services k :=
    fun k hk => erase_services_of_ne hk
  have hgone : (b.erase handle).services handle = none := erase_services_self
  have hother : ∀ k s', (b.erase handle).services k = some s' →
      k ≠ handle ∧ b.services k = some s' := by
    intro k s' hs'
    by_cases hk : k = handle
    · rw [hk, hgone] at hs'
      cases hs'
    · rw [hoff k hk] at hs'
      exact ⟨hk, hs'⟩
  refine ⟨h.low, fun k s' hs' => ?_, fun k s' hs' hlocal => ?_, fun k hk => ?_,
    fun k s' hs' hne => ?_⟩
  · exact h.range k s' (hother k s' hs').2
  · obtain ⟨hk, hs'⟩ := hother k s' hs'
    have hcount := extensionsOf_of_agree b (b.erase handle) handle k rfl hoff
      (h.range handle s hs)
    have hzero : (b.erase handle).extensionAt handle k = 0 := by
      simp [Binders.extensionAt, hgone]
    have hone : b.extensionAt handle k = if k = s.extensionHandle then 1 else 0 := by
      simp [Binders.extensionAt, hs, eq_comm]
    have hrefs := h.refs k s' hs' hlocal
    omega
  · have hne : k ≠ handle := by
      intro heq
      rw [heq, hheld] at hk
      omega
    rw [hoff k hne]
    exact h.held k hk
  · obtain ⟨hk, hs'⟩ := hother k s' hs'
    have hext : s'.extensionHandle ≠ handle := by
      intro heq
      have hpos := extensionsOf_pos hs' (h.range k s' hs')
      rw [heq, hexts] at hpos
      omega
    rw [hoff _ hext]
    exact h.extension k s' hs' hne

/-- **Releasing one reference too many.** However far the release goes
along extensions, the table is balanced after it. -/
theorem Balanced.release (fuel : ℕ) (hfuel : b.present < fuel)
    (h : Balanced b (fun k => held k + if k = handle then 1 else 0) held) :
    Balanced (b.releaseFuel fuel handle).1 held held := by
  induction fuel generalizing b handle with
  | zero => omega
  | succ fuel ih =>
    rw [Binders.releaseFuel]
    cases hs : b.services handle with
    | none =>
      refine h.owed_congr _ fun k s hk _ => ?_
      have hne : k ≠ handle := by
        rintro rfl
        rw [hs] at hk
        cases hk
      simp [hne]
    | some s =>
      simp only
      cases hremote : s.remote with
      | true =>
        have hsame : ∀ k s', b.services k = some s' → s'.remote = false →
            held k = held k + if k = handle then 1 else 0 := by
          intro k s' hk hlocal
          have hne : k ≠ handle := by
            rintro rfl
            rw [hs] at hk
            rw [← Option.some.inj hk, hremote] at hlocal
            cases hlocal
          simp [hne]
        rw [if_pos rfl]
        split
        · refine (h.owed_congr _ hsame).recount (fun s => ⟨rfl, rfl⟩) (fun _ _ => rfl) ?_ h.held
          intro s' hs' hlocal
          rw [hs] at hs'
          rw [← Option.some.inj hs', hremote] at hlocal
          cases hlocal
        · exact h.owed_congr _ hsame
      | false =>
        rw [if_neg (by simp)]
        have hrefs := h.refs handle s hs hremote
        simp only [if_true] at hrefs
        by_cases hmany : 1 < s.refCount
        · rw [if_pos hmany]
          refine h.recount (fun s => ⟨rfl, rfl⟩) (fun k hk => by simp [hk]) ?_ h.held
          intro s' hs' _
          rw [hs] at hs'
          rw [← Option.some.inj hs']
          simp only [BinderService.drop, if_true]
          omega
        · -- the count was the one reference, so nobody else has the binder
          rw [if_neg hmany]
          have herased := h.erase hs (by omega) (by omega)
          have hrange := h.range handle s hs
          have hleft : ∀ k s', (b.erase handle).services k = some s' → k ≠ handle := by
            rintro k s' hk rfl
            simp [Binders.erase] at hk
          split
          · refine ih ?_ (herased.owed_congr _ fun k s' hk _ => ?_)
            · have := present_erase hs hrange
              omega
            · simp [hleft k s' hk]
          · next hnone =>
            refine herased.owed_congr _ fun k s' hk _ => ?_
            have hzero : k ≠ s.extensionHandle := by
              rw [not_not.mp hnone]
              exact herased.ne_zero hk
            simp [hleft k s' hk, hzero]

theorem Balanced.releaseBinderStrong
    (h : Balanced b (fun k => held k + if k = handle then 1 else 0) held) :
    Balanced (b.releaseBinderStrong handle).1 held held :=
  h.release _ present_lt

/-- A new entry. -/
theorem Balanced.create (h : Balanced b owed held) {s : BinderService}
    (hs : s.extensionHandle = 0) {owed' held' : ℕ → ℕ}
    (howed : ∀ k s, b.services k = some s → owed' k = owed k)
    (hnew : s.remote = false → s.refCount = owed' b.nextBinderHandle)
    (hheld : ∀ k, 0 < held' k → k = b.nextBinderHandle ∨ (b.services k).isSome) :
    Balanced (b.create s) owed' held' := by
  have hself : (b.create s).services b.nextBinderHandle = some s := Function.update_self ..
  have hoff : ∀ k, k ≠ b.nextBinderHandle → (b.create s).services k = b.services k :=
    fun k hk => Function.update_of_ne hk ..
  have hkept : ∀ k, (b.services k).isSome → ((b.create s).services k).isSome := by
    intro k hk
    by_cases heq : k = b.nextBinderHandle
    · rw [heq, hself]
      rfl
    · rwa [hoff k heq]
  have hnext : b.nextBinderHandle ≠ 0 := by
    have := h.low
    unfold firstBinderHandle at this
    omega
  refine ⟨Nat.le_succ_of_le h.low, fun k s' hs' => ?_, fun k s' hs' hlocal => ?_, fun k hk => ?_,
    fun k s' hs' hne => ?_⟩
  · show firstBinderHandle ≤ k ∧ k < b.nextBinderHandle + 1
    by_cases heq : k = b.nextBinderHandle
    · have := h.low
      omega
    · rw [hoff k heq] at hs'
      have := h.range k s' hs'
      omega
  · by_cases heq : k = b.nextBinderHandle
    · rw [heq, hself] at hs'
      obtain rfl := Option.some.inj hs'
      rw [heq, extensionsOf_create h.low hs hnext, hnew hlocal]
      -- nothing has the new handle as its extension, since extensions are there
      rcases Nat.eq_zero_or_pos (b.extensionsOf b.nextBinderHandle) with hzero | hpos
      · omega
      · obtain ⟨i, t, ht, hext⟩ := exists_of_extensionsOf_pos hpos
        have hthere := h.extension i t ht (by rw [hext]; exact hnext)
        rw [hext] at hthere
        obtain ⟨u, hu⟩ := Option.isSome_iff_exists.mp hthere
        have := h.range _ u hu
        omega
    · rw [hoff k heq] at hs'
      rw [extensionsOf_create h.low hs (h.ne_zero hs'), howed k s' hs']
      exact h.refs k s' hs' hlocal
  · rcases hheld k hk with rfl | hthere
    · rw [hself]
      rfl
    · exact hkept k hthere
  · by_cases heq : k = b.nextBinderHandle
    · rw [heq, hself] at hs'
      rw [← Option.some.inj hs', hs] at hne
      exact absurd rfl hne
    · rw [hoff k heq] at hs'
      exact hkept _ (h.extension k s' hs' hne)

/-- The extension of an entry is set: a reference to the new one is owed
less, one to the old one more. -/
theorem Balanced.relink (h : Balanced b owed held) {s : BinderService}
    (hs : b.services handle = some s) {extension : ℕ}
    (hthere : (b.services extension).isSome) (owed' : ℕ → ℕ)
    (howed : ∀ k, k ≠ 0 → owed' k + (if k = extension then 1 else 0) =
      owed k + if k = s.extensionHandle then 1 else 0) :
    Balanced (b.modify handle fun s => { s with extensionHandle := extension }) owed' held := by
  set b' := b.modify handle fun s => { s with extensionHandle := extension } with hb'
  have hself : b'.services handle = some { s with extensionHandle := extension } := by
    rw [hb', modify_services_self, hs]
    rfl
  have hoff : ∀ k, k ≠ handle → b'.services k = b.services k := by
    intro k hk
    rw [hb', modify_services_of_ne _ hk]
  have hsome : ∀ k, (b'.services k).isSome = (b.services k).isSome := by
    intro k
    by_cases hk : k = handle
    · rw [hk, hself, hs]
      rfl
    · rw [hoff k hk]
  have hback : ∀ k s', b'.services k = some s' → ∃ t, b.services k = some t ∧
      t.remote = s'.remote ∧ t.refCount = s'.refCount := by
    intro k s' hs'
    by_cases hk : k = handle
    · rw [hk, hself] at hs'
      rw [hk, ← Option.some.inj hs']
      exact ⟨s, hs, rfl, rfl⟩
    · rw [hoff k hk] at hs'
      exact ⟨s', hs', rfl, rfl⟩
  refine ⟨h.low, fun k s' hs' => ?_, fun k s' hs' hlocal => ?_, fun k hk => ?_,
    fun k s' hs' hne => ?_⟩
  · obtain ⟨t, ht, -⟩ := hback k s' hs'
    exact h.range k t ht
  · obtain ⟨t, ht, hremote, hcount⟩ := hback k s' hs'
    have hrefs := h.refs k t ht (hremote.trans hlocal)
    have hk := howed k (h.ne_zero ht)
    have hagree := extensionsOf_of_agree b b' handle k rfl hoff (h.range handle s hs)
    have hold : b.extensionAt handle k = if k = s.extensionHandle then 1 else 0 := by
      simp [Binders.extensionAt, hs, eq_comm]
    have hnew : b'.extensionAt handle k = if k = extension then 1 else 0 := by
      simp [Binders.extensionAt, hself, eq_comm]
    omega
  · rw [hsome]
    exact h.held k hk
  · rw [hsome]
    by_cases hk : k = handle
    · rw [hk, hself] at hs'
      rw [← Option.some.inj hs']
      exact hthere
    · rw [hoff k hk] at hs'
      exact h.extension k s' hs' hne

theorem Balanced.same (h : Balanced b owed held) (hsame : SameTable b b') :
    Balanced b' owed held :=
  h.congr hsame.next fun k => by rw [hsame.services]

/-- A count goes up with what the guest holds. -/
theorem Balanced.acquire (h : Balanced b held held) (hthere : (b.services handle).isSome)
    (hroom : ∀ s ∈ b.services handle, s.remote = false → s.refCount + 1 < 2 ^ 32) :
    Balanced (b.modify handle .acquire) (fun k => held k + if k = handle then 1 else 0)
      (fun k => held k + if k = handle then 1 else 0) := by
  refine h.recount (fun s => ⟨rfl, rfl⟩) (fun k hk => by simp [hk]) ?_ ?_
  · intro s hs hlocal
    have hlt := hroom s hs hlocal
    simp only [BinderService.acquire, if_true, Nat.mod_eq_of_lt hlt]
    omega
  · intro k hk
    by_cases heq : k = handle
    · rw [heq]
      exact hthere
    · exact h.held k (by simpa [heq] using hk)

end Balance

theorem exists_of_any {o : Option BinderService} (h : o.any (·.alive) = true) :
    ∃ s, o = some s ∧ s.alive = true := by
  cases o with
  | none => cases h
  | some s => exact ⟨s, rfl, h⟩

/-! ## What the guest holds after a call -/

section Held

variable {w : BinderWorld} {c : BinderCall}

theorem held_of_none (hreleases : c.releases = none) (hgrants : c.grants w.binders = none) :
    (w.step c).held = w.held := by
  funext k
  simp [BinderWorld.step, hreleases, hgrants]

theorem held_of_grant {g : ℕ} (hreleases : c.releases = none)
    (hgrants : c.grants w.binders = some g) :
    (w.step c).held = fun k => w.held k + if k = g then 1 else 0 := by
  funext k
  simp [BinderWorld.step, hreleases, hgrants, eq_comm]

end Held

/-- The equation of the whole world. -/
def BinderWorld.Balanced (w : BinderWorld) : Prop :=
  Android.Balanced w.binders w.held w.held

section Step

variable {w : BinderWorld}

/-- A call that changes no count and gives nothing. -/
theorem BinderWorld.Balanced.of_none {c : BinderCall} (hreleases : c.releases = none)
    (hgrants : c.grants w.binders = none)
    (h : Android.Balanced (w.binders.call c).binders w.held w.held) : (w.step c).Balanced := by
  unfold BinderWorld.Balanced
  rw [held_of_none hreleases hgrants]
  exact h

theorem BinderWorld.Balanced.of_grant {c : BinderCall} {g : ℕ} (hreleases : c.releases = none)
    (hgrants : c.grants w.binders = some g)
    (h : Android.Balanced (w.binders.call c).binders
      (fun k => w.held k + if k = g then 1 else 0)
      (fun k => w.held k + if k = g then 1 else 0)) : (w.step c).Balanced := by
  unfold BinderWorld.Balanced
  rw [held_of_grant hreleases hgrants]
  exact h

/-- A new binder is given to the guest. -/
theorem BinderWorld.Balanced.created (h : w.Balanced) (s : BinderService)
    (hext : s.extensionHandle = 0) (hcount : s.remote = false → s.refCount = 1) :
    Android.Balanced (w.binders.create s)
      (fun k => w.held k + if k = w.binders.nextBinderHandle then 1 else 0)
      (fun k => w.held k + if k = w.binders.nextBinderHandle then 1 else 0) := by
  have hfree : w.binders.services w.binders.nextBinderHandle = none := by
    by_contra hsome
    obtain ⟨t, ht⟩ := Option.ne_none_iff_exists'.mp hsome
    exact Nat.lt_irrefl _ (h.range _ t ht).2
  have hheld : w.held w.binders.nextBinderHandle = 0 := by
    by_contra hpos
    have hthere := h.held _ (Nat.pos_of_ne_zero hpos)
    rw [hfree] at hthere
    cases hthere
  refine Android.Balanced.create h hext (fun k t ht => ?_) (fun hlocal => ?_) (fun k hk => ?_)
  · have hne : k ≠ w.binders.nextBinderHandle := Nat.ne_of_lt (h.range k t ht).2
    simp [hne]
  · simp [hheld, hcount hlocal]
  · by_cases heq : k = w.binders.nextBinderHandle
    · exact Or.inl heq
    · exact Or.inr (h.held k (by simpa [heq] using hk))

theorem BinderWorld.Balanced.incStrong (h : w.Balanced) (handle : ℕ)
    (hc : (BinderCall.incStrong handle).Counted w) : (w.step (.incStrong handle)).Balanced := by
  by_cases hthere : (w.binders.services handle).isSome
  · refine BinderWorld.Balanced.of_grant (g := handle) rfl (if_pos hthere) ?_
    exact Android.Balanced.acquire h hthere (hc.room rfl)
  · refine BinderWorld.Balanced.of_none rfl (if_neg hthere) ?_
    have hnone : w.binders.services handle = none := by simpa using hthere
    show Android.Balanced (w.binders.modify handle .acquire) _ _
    rw [modify_of_none _ hnone]
    exact h

theorem BinderWorld.Balanced.weakPromote (h : w.Balanced) (weak : ℕ)
    (hc : (BinderCall.weakPromote weak).Counted w) : (w.step (.weakPromote weak)).Balanced := by
  cases htarget : (w.binders.weaks weak).filter fun h =>
      (w.binders.services h).any (·.alive) with
  | none =>
    have hcall : w.binders.call (.weakPromote weak) = { binders := w.binders } := by
      simp only [Binders.call, Binders.weakPromote, htarget]
    refine BinderWorld.Balanced.of_none rfl ?_ ?_
    · simp [BinderCall.grants, hcall]
    · rw [hcall]
      exact h
  | some handle =>
    obtain ⟨hweak, halive⟩ := Option.filter_eq_some_iff.mp htarget
    obtain ⟨s, hs, -⟩ := exists_of_any halive
    have hcall : w.binders.call (.weakPromote weak) =
        { binders := w.binders.modify handle .acquire, result := handle } := by
      simp only [Binders.call, Binders.weakPromote, htarget]
    refine BinderWorld.Balanced.of_grant (g := handle) rfl ?_ ?_
    · have hne := Android.Balanced.ne_zero h hs
      simp [BinderCall.grants, hcall, hne]
    · rw [hcall]
      exact Android.Balanced.acquire h (by rw [hs]; rfl) (hc.room hweak)

theorem BinderWorld.Balanced.getExtension (h : w.Balanced) (handle out : ℕ)
    (hc : (BinderCall.getExtension handle out).Counted w) :
    (w.step (.getExtension handle out)).Balanced := by
  -- the branches that give nothing leave the table as it is
  have hnothing : ∀ result written, (∀ e ∈ written, e = 0) →
      w.binders.call (.getExtension handle out) =
        { binders := w.binders, result := result, out := written } →
      (w.step (.getExtension handle out)).Balanced := by
    intro result written hzero hcall
    refine BinderWorld.Balanced.of_none rfl ?_ (by rw [hcall]; exact h)
    rw [BinderCall.grants, hcall, Option.filter_eq_none_iff]
    intro e he
    simp [hzero e he]
  by_cases hhandle : handle = 0
  · exact hnothing statusUnexpectedNull none (by simp)
      (by simp [Binders.call, Binders.getExtension, hhandle])
  by_cases hout : out = 0
  · exact hnothing statusBadValue none (by simp)
      (by simp [Binders.call, Binders.getExtension, hhandle, hout])
  cases hs : w.binders.services handle with
  | none =>
    exact hnothing statusBadValue none (by simp)
      (by simp [Binders.call, Binders.getExtension, hhandle, hout, hs])
  | some s =>
    by_cases hext : s.extensionHandle = 0
    · exact hnothing statusOk (some 0) (by simp)
        (by simp [Binders.call, Binders.getExtension, hhandle, hout, hs, hext])
    by_cases halive : (w.binders.services s.extensionHandle).any (·.alive) = true
    · have hcall : w.binders.call (.getExtension handle out) =
          { binders := w.binders.modify s.extensionHandle .acquire
            result := statusOk
            out := some s.extensionHandle } := by
        simp only [Binders.call, Binders.getExtension, if_neg hhandle, if_neg hout, hs,
          if_neg hext, if_pos halive]
      obtain ⟨e, he, -⟩ := exists_of_any halive
      refine BinderWorld.Balanced.of_grant (g := s.extensionHandle) rfl ?_ ?_
      · simp [BinderCall.grants, hcall, hext]
      · rw [hcall]
        refine Android.Balanced.acquire h (by rw [he]; rfl) (hc.room ?_)
        simp [BinderCall.acquires, hs]
    · refine hnothing statusDeadObject (some 0) (by simp) ?_
      simp only [Binders.call, Binders.getExtension, if_neg hhandle, if_neg hout, hs,
        if_neg hext, if_neg halive]

theorem BinderWorld.Balanced.readStrongBinder (h : w.Balanced) (parcel : ℕ)
    (hc : (BinderCall.readStrongBinder parcel).Counted w) :
    (w.step (.readStrongBinder parcel)).Balanced := by
  cases hread : w.binders.readValue parcel .strongBinder with
  | error status =>
    have hcall : w.binders.call (.readStrongBinder parcel) =
        { binders := w.binders, result := status } := by
      simp only [Binders.call, Binders.readStrongBinder, hread]
    refine BinderWorld.Balanced.of_none rfl ?_ (by rw [hcall]; exact h)
    simp [BinderCall.grants, hcall]
  | ok r =>
    obtain ⟨read, value⟩ := r
    obtain ⟨hsame, p, hp, hvalue⟩ := parcelRead_spec w.binders hread
    have hcall : w.binders.call (.readStrongBinder parcel) =
        { binders := read.modify value.value.toNat .acquire
          result := statusOk
          out := some value.value.toNat } := by
      simp only [Binders.call, Binders.readStrongBinder, hread]
    have hbalanced : Android.Balanced read w.held w.held := Android.Balanced.same h hsame
    by_cases hthere : (w.binders.services value.value.toNat).isSome
    · refine BinderWorld.Balanced.of_grant (g := value.value.toNat) rfl ?_ ?_
      · simp [BinderCall.grants, hcall, hthere]
      · rw [hcall]
        refine hbalanced.acquire (by rw [hsame.services]; exact hthere) ?_
        rw [hsame.services]
        refine hc.room ?_
        simp [BinderCall.acquires, hp, hvalue]
    · have hnone : w.binders.services value.value.toNat = none := by simpa using hthere
      refine BinderWorld.Balanced.of_none rfl ?_ ?_
      · simp [BinderCall.grants, hcall, hnone]
      · rw [hcall, modify_of_none _ (by rw [hsame.services]; exact hnone)]
        exact hbalanced

theorem BinderWorld.Balanced.serviceLookup (h : w.Balanced) (name : Bytes) (owned : Bool)
    (hc : (BinderCall.serviceLookup name owned).Counted w) :
    (w.step (.serviceLookup name owned)).Balanced := by
  have hzero : ∀ b', w.binders.call (.serviceLookup name owned) = { binders := b' } →
      Android.Balanced b' w.held w.held → (w.step (.serviceLookup name owned)).Balanced := by
    intro b' hcall hb'
    refine BinderWorld.Balanced.of_none rfl ?_ (by rw [hcall]; exact hb')
    simp [BinderCall.grants, hcall]
  by_cases hempty : name.isEmpty
  · exact hzero w.binders (by simp [Binders.call, Binders.serviceLookup,
      Binders.serviceHandleForName, hempty]) h
  cases hfound : (w.binders.serviceByName name).filter fun h =>
      (w.binders.services h).any (·.alive) with
  | some handle =>
    have hcall : w.binders.call (.serviceLookup name owned) =
        { binders := w.binders, result := handle } := by
      simp only [Binders.call, Binders.serviceLookup, Binders.serviceHandleForName,
        if_neg hempty, hfound]
    obtain ⟨hname, halive⟩ := Option.filter_eq_some_iff.mp hfound
    obtain ⟨s, hs, hsalive⟩ := exists_of_any halive
    have hremote : s.remote = true := by
      have hno := hc.1
      simpa [BinderCall.findsLocal, hname, hs, hsalive] using hno
    refine BinderWorld.Balanced.of_grant (g := handle) rfl ?_ ?_
    · have hne := Android.Balanced.ne_zero h hs
      simp [BinderCall.grants, hcall, hne]
    · -- the count is not that of a local binder, so nothing is owed
      rw [hcall]
      have howed := Android.Balanced.owed_congr h
        (fun k => w.held k + if k = handle then 1 else 0) (by
          intro k t ht hlocal
          have hne : k ≠ handle := by
            rintro rfl
            rw [hs] at ht
            rw [← Option.some.inj ht, hremote] at hlocal
            cases hlocal
          simp [hne])
      refine ⟨howed.low, howed.range, howed.refs, fun k hk => ?_, howed.extension⟩
      by_cases heq : k = handle
      · rw [heq, hs]
        rfl
      · exact h.held k (by simpa [heq] using hk)
  | none =>
    by_cases hremoved : w.binders.removedServiceNames name
    · refine hzero { w.binders with
        serviceByName := Function.update w.binders.serviceByName name none } ?_
        (Android.Balanced.congr h rfl fun _ => rfl)
      simp only [Binders.call, Binders.serviceLookup, Binders.serviceHandleForName,
        if_neg hempty, hfound, if_pos hremoved]
    · have hcall : w.binders.call (.serviceLookup name owned) =
          { binders := { w.binders.create { name, daemonOwned := owned } with
              serviceByName := Function.update w.binders.serviceByName name
                (some w.binders.nextBinderHandle) }
            result := w.binders.nextBinderHandle } := by
        simp only [Binders.call, Binders.serviceLookup, Binders.serviceHandleForName,
          if_neg hempty, hfound, if_neg hremoved]
        rfl
      refine BinderWorld.Balanced.of_grant (g := w.binders.nextBinderHandle) rfl ?_ ?_
      · have hlow := h.low
        unfold firstBinderHandle at hlow
        have hne : w.binders.nextBinderHandle ≠ 0 := by omega
        simp [BinderCall.grants, hcall, hne]
      · rw [hcall]
        have hcreated := h.created { name, daemonOwned := owned } rfl (fun hlocal => by cases hlocal)
        exact hcreated.congr rfl fun _ => rfl

theorem BinderWorld.Balanced.new (h : w.Balanced) (clazz args created : ℕ) :
    (w.step (.new clazz args created)).Balanced := by
  cases hclass : w.binders.classes clazz with
  | none =>
    have hcall : w.binders.call (.new clazz args created) = { binders := w.binders } := by
      simp only [Binders.call, Binders.new, hclass]
    refine BinderWorld.Balanced.of_none rfl ?_ (by rw [hcall]; exact h)
    simp [BinderCall.grants, hcall]
  | some cl =>
    have hcall : w.binders.call (.new clazz args created) =
        { binders := w.binders.create
            { name := cl.descriptor
              remote := false
              classHandle := clazz
              userData := if cl.onCreate ≠ 0 then created else args }
          result := w.binders.nextBinderHandle } := by
      simp only [Binders.call, Binders.new, hclass]
    refine BinderWorld.Balanced.of_grant (g := w.binders.nextBinderHandle) rfl ?_ ?_
    · have hlow := h.low
      unfold firstBinderHandle at hlow
      have hne : w.binders.nextBinderHandle ≠ 0 := by omega
      simp [BinderCall.grants, hcall, hne]
    · rw [hcall]
      exact h.created _ rfl fun _ => rfl

theorem BinderWorld.Balanced.decStrong (h : w.Balanced) (handle : ℕ)
    (ha : (BinderCall.decStrong handle).Admitted w) :
    (w.step (.decStrong handle)).Balanced := by
  have hpos : 0 < w.held handle := by simpa [BinderCall.Admitted, BinderCall.releases] using ha
  have hheld : ∀ k, (w.step (.decStrong handle)).held k + (if k = handle then 1 else 0) =
      w.held k := by
    intro k
    show w.held k - (if some handle = some k then 1 else 0) + 0 + _ = _
    by_cases heq : k = handle
    · subst heq
      simp only [if_true]
      omega
    · have hne : ¬some handle = some k := by simpa [eq_comm] using heq
      simp [heq, hne]
  generalize hafter : (w.step (.decStrong handle)).held = held at hheld
  have hbefore : Android.Balanced w.binders (fun k => held k + if k = handle then 1 else 0)
      held := by
    refine ⟨h.low, h.range, fun k s hs hlocal => ?_, fun k hk => ?_, h.extension⟩
    · rw [hheld k]
      exact h.refs k s hs hlocal
    · refine h.held k ?_
      have := hheld k
      omega
  unfold BinderWorld.Balanced
  rw [hafter]
  simp only [BinderWorld.step, Binders.call, Binders.decStrong]
  exact hbefore.releaseBinderStrong

theorem BinderWorld.Balanced.setExtension (h : w.Balanced) (handle extension : ℕ)
    (hc : (BinderCall.setExtension handle extension).Counted w) :
    (w.step (.setExtension handle extension)).Balanced := by
  refine BinderWorld.Balanced.of_none rfl rfl ?_
  show Android.Balanced (w.binders.setExtension handle extension).binders _ _
  unfold Binders.setExtension
  split
  · exact h
  · split
    · next s e hs he =>
      split
      · exact h
      · split
        · exact h
        · split
          · exact h
          · next hnew =>
            have hacquired := Android.Balanced.acquire h (by rw [he]; rfl) (hc.room rfl)
            have hself : ∃ s', (w.binders.modify extension .acquire).services handle = some s' ∧
                s'.extensionHandle = s.extensionHandle := by
              by_cases heq : handle = extension
              · rw [heq, modify_services_self, ← heq, hs]
                exact ⟨_, rfl, rfl⟩
              · rw [modify_services_of_ne _ heq, hs]
                exact ⟨s, rfl, rfl⟩
            obtain ⟨s', hs', hold⟩ := hself
            have hthere : ((w.binders.modify extension .acquire).services extension).isSome := by
              rw [modify_services_self, he]
              rfl
            -- the new reference is the extension's, and the old extension has one too many
            have hlinked := (Android.Balanced.relink hacquired hs' hthere
              (fun k => w.held k + if k = s.extensionHandle then 1 else 0) (by
                intro k _
                rw [hold]
                omega)).held_mono w.held (fun k => Nat.le_add_right _ _)
            split
            · exact hlinked.releaseBinderStrong
            · next hnone =>
              refine hlinked.owed_congr _ fun k t ht _ => ?_
              have hne : k ≠ s.extensionHandle := by
                rw [not_not.mp hnone]
                exact hlinked.ne_zero ht
              simp [hne]
    · exact h

/-- **Every call keeps the equation**, if it counts what it gives and the
guest releases what it has. -/
theorem BinderWorld.Balanced.step (h : w.Balanced) (c : BinderCall) (ha : c.Admitted w)
    (hc : c.Counted w) : (w.step c).Balanced := by
  by_cases haside : c.aside = true
  · have hsame := (aside_spec w.binders haside).1
    refine BinderWorld.Balanced.of_none ?_ ?_ (Android.Balanced.same h hsame)
    · cases c <;> first | rfl | cases haside
    · cases c <;> first | rfl | cases haside
  cases c with
  | serviceLookup name owned => exact h.serviceLookup name owned hc
  | new clazz args created => exact h.new clazz args created
  | incStrong handle => exact h.incStrong handle hc
  | decStrong handle => exact h.decStrong handle ha
  | weakPromote weak => exact h.weakPromote weak hc
  | setExtension handle extension => exact h.setExtension handle extension hc
  | getExtension handle out => exact h.getExtension handle out hc
  | readStrongBinder parcel => exact h.readStrongBinder parcel hc
  | addService handle name =>
    refine BinderWorld.Balanced.of_none rfl rfl ?_
    simp only [Binders.call, Binders.addService]
    split
    · exact h
    · split
      · exact h
      · split
        · exact h
        · have hrenamed : Android.Balanced
              (w.binders.modify handle fun s => { s with name }) w.held w.held :=
            Android.Balanced.modify h handle fun _ => rfl
          exact hrenamed.congr rfl fun _ => rfl
  | associateClass handle clazz =>
    refine BinderWorld.Balanced.of_none rfl rfl ?_
    simp only [Binders.call, Binders.associateClass]
    split
    · exact h
    · exact Android.Balanced.modify h handle fun _ => rfl
  | deathRecipientNew onBinderDied =>
    refine BinderWorld.Balanced.of_none rfl rfl ?_
    simp only [Binders.call, Binders.deathRecipientNew]
    split
    · exact h
    · exact Android.Balanced.congr h rfl fun _ => rfl
  | deathRecipientSetOnUnlinked recipient onUnlinked =>
    exact BinderWorld.Balanced.of_none rfl rfl (Android.Balanced.congr h rfl fun _ => rfl)
  | deathRecipientDelete recipient =>
    refine BinderWorld.Balanced.of_none rfl rfl ?_
    simp only [Binders.call, Binders.deathRecipientDelete]
    split
    · exact h
    · refine Android.Balanced.congr h rfl fun k => ?_
      rw [Option.map_map]
      rfl
  | linkToDeath handle recipient cookie =>
    refine BinderWorld.Balanced.of_none rfl rfl ?_
    simp only [Binders.call, Binders.linkToDeath]
    split
    · split
      · exact h
      · split
        · exact h
        · split
          · exact h
          · exact Android.Balanced.modify h handle fun _ => rfl
    · exact h
  | unlinkToDeath handle recipient cookie =>
    refine BinderWorld.Balanced.of_none rfl rfl ?_
    simp only [Binders.call, Binders.unlinkToDeath]
    split
    · split
      · exact Android.Balanced.modify h handle fun _ => rfl
      · exact h
    · exact h
  | muplarBinderKill handle =>
    refine BinderWorld.Balanced.of_none rfl rfl ?_
    simp only [Binders.call, Binders.muplarBinderKill]
    split
    · exact h
    · simp only [Binders.retireService]
      split
      · exact h
      · have hnames : Android.Balanced (w.binders.cleanupServiceNames handle false) w.held w.held :=
          Android.Balanced.congr h rfl fun _ => rfl
        exact hnames.modify handle fun _ => rfl
  | transact t daemon =>
    refine BinderWorld.Balanced.of_none rfl rfl ?_
    obtain ⟨-, ⟨-, hsame⟩ | ⟨-, hsame⟩⟩ := transact_spec w.binders t daemon
    · exact Android.Balanced.same h hsame
    · have hdead : Android.Balanced
          (w.binders.modify t.binder fun s => { s with alive := false }) w.held w.held :=
        Android.Balanced.modify h t.binder fun _ => rfl
      exact hdead.same hsame
  | _ => exact absurd rfl haside

end Step

/-! ## Names -/

/-- **What becomes of the names.** A binder that is alive after the call
was alive before it, and the names that led to it still do. -/
structure Kept (b b' : Binders) : Prop where
  next : b.nextBinderHandle ≤ b'.nextBinderHandle
  alive : ∀ k < b.nextBinderHandle, ∀ s', b'.services k = some s' → s'.alive = true →
    (∃ s, b.services k = some s ∧ s.alive = true) ∧
      ∀ name, b.serviceByName name = some k → b'.serviceByName name = some k

section Names

variable {b b' : Binders}

theorem Kept.trans {b'' : Binders} (h : Kept b b') (h' : Kept b' b'') : Kept b b'' := by
  refine ⟨Nat.le_trans h.next h'.next, fun k hk s hs halive => ?_⟩
  obtain ⟨⟨s', hs', halive'⟩, hnames'⟩ := h'.alive k (Nat.lt_of_lt_of_le hk h.next) s hs halive
  obtain ⟨hthere, hnames⟩ := h.alive k hk s' hs' halive'
  exact ⟨hthere, fun name hname => hnames' name (hnames name hname)⟩

theorem Kept.of_same (h : SameTable b b') : Kept b b' := by
  refine ⟨by rw [h.next], fun k _ s hs halive => ⟨⟨s, ?_, halive⟩, fun name hname => ?_⟩⟩
  · rw [← h.services]
    exact hs
  · rw [h.names]
    exact hname

theorem Kept.refl (b : Binders) : Kept b b := Kept.of_same (SameTable.refl b)

/-- The entries are changed and the names are not. -/
theorem Kept.of_names (hnames : b'.serviceByName = b.serviceByName)
    (hnext : b.nextBinderHandle ≤ b'.nextBinderHandle)
    (halive : ∀ k < b.nextBinderHandle, ∀ s', b'.services k = some s' → s'.alive = true →
      ∃ s, b.services k = some s ∧ s.alive = true) : Kept b b' := by
  refine ⟨hnext, fun k hk s' hs' ha => ⟨halive k hk s' hs' ha, fun name hname => ?_⟩⟩
  rw [hnames]
  exact hname

theorem Kept.modify (handle : ℕ) {f : BinderService → BinderService}
    (hf : ∀ s, (f s).alive = true → s.alive = true) : Kept b (b.modify handle f) := by
  refine Kept.of_names rfl (Nat.le_refl _) fun k _ s' hs' ha => ?_
  by_cases hk : k = handle
  · rw [hk, modify_services_self] at hs'
    obtain ⟨s, hs, rfl⟩ := Option.map_eq_some_iff.mp hs'
    exact ⟨s, hk ▸ hs, hf s ha⟩
  · rw [modify_services_of_ne _ hk] at hs'
    exact ⟨s', hs', ha⟩

/-- Names go with the binder they lead to. -/
theorem Kept.cleanup {handle : ℕ}
    (hgone : ∀ s', b'.services handle = some s' → s'.alive = false)
    (hoff : ∀ k, k ≠ handle → b'.services k = b.services k)
    (hnext : b'.nextBinderHandle = b.nextBinderHandle)
    (hnames : ∀ name, b'.serviceByName name =
      if b.serviceByName name = some handle then none else b.serviceByName name) : Kept b b' := by
  refine ⟨by rw [hnext], fun k _ s' hs' ha => ?_⟩
  have hk : k ≠ handle := by
    rintro rfl
    rw [hgone s' hs'] at ha
    cases ha
  rw [hoff k hk] at hs'
  refine ⟨⟨s', hs', ha⟩, fun name hname => ?_⟩
  rw [hnames, hname, if_neg (by simpa using hk)]

theorem Kept.erase (handle : ℕ) : Kept b (b.erase handle) := by
  refine Kept.cleanup (fun s' hs' => ?_) (fun k hk => erase_services_of_ne hk) rfl fun _ => rfl
  rw [erase_services_self] at hs'
  cases hs'

theorem Kept.release (fuel handle : ℕ) : Kept b (b.releaseFuel fuel handle).1 := by
  induction fuel generalizing b handle with
  | zero => exact Kept.refl b
  | succ fuel ih =>
    rw [Binders.releaseFuel]
    split
    · exact Kept.refl b
    · split
      · split
        · exact Kept.modify handle fun _ h => h
        · exact Kept.refl b
      · split
        · exact Kept.modify handle fun _ h => h
        · split
          · exact (Kept.erase handle).trans (ih _)
          · exact Kept.erase handle

theorem kept_serviceLookup (name : Bytes) (owned : Bool) :
    Kept b (b.serviceLookup name owned).binders := by
  unfold Binders.serviceLookup Binders.serviceHandleForName
  split
  · exact Kept.refl b
  · split
    · exact Kept.refl b
    · next hnone =>
      -- a name that leads to a binder that is alive is not touched
      have hkeep : ∀ k s, b.services k = some s → s.alive = true → ∀ name',
          b.serviceByName name' = some k → name' ≠ name := by
        rintro k s hs ha name' hname' rfl
        rw [Option.filter_eq_none_iff] at hnone
        exact hnone k hname' (by rw [hs]; exact ha)
      have hforgotten : ∀ next : Option ℕ, ∀ k s, b.services k = some s → s.alive = true →
          ∀ name', b.serviceByName name' = some k →
            Function.update b.serviceByName name next name' = some k := by
        intro next k s hs ha name' hname'
        rw [Function.update_of_ne (hkeep k s hs ha name' hname')]
        exact hname'
      split
      · exact ⟨Nat.le_refl _, fun k _ s hs ha => ⟨⟨s, hs, ha⟩, hforgotten none k s hs ha⟩⟩
      · split
        · exact ⟨Nat.le_refl _, fun k _ s hs ha => ⟨⟨s, hs, ha⟩, hforgotten none k s hs ha⟩⟩
        · refine ⟨Nat.le_succ _, fun k hk s hs ha => ?_⟩
          have hold : b.services k = some s := by
            rw [← hs]
            exact (Function.update_of_ne (Nat.ne_of_lt hk) ..).symm
          exact ⟨⟨s, hold, ha⟩, hforgotten _ k s hold ha⟩

theorem kept_addService (handle : ℕ) (name : Bytes) :
    Kept b (b.addService handle name).binders := by
  unfold Binders.addService
  split
  · exact Kept.refl b
  · split
    · exact Kept.refl b
    · split
      · exact Kept.refl b
      · next hfree =>
        refine (Kept.modify handle (f := fun s => { s with name }) fun _ h => h).trans ?_
        refine ⟨Nat.le_refl _, fun k _ s hs ha => ⟨⟨s, hs, ha⟩, fun name' hname' => ?_⟩⟩
        show Function.update b.serviceByName name (some handle) name' = some k
        by_cases hname : name' = name
        · subst hname
          rw [Function.update_self]
          by_contra hne
          -- a binder that is alive under the name would have been in the way
          have hk : k ≠ handle := fun heq => hne (by rw [heq])
          have hold : b.services k = some s := by
            rw [← hs]
            exact (modify_services_of_ne _ hk).symm
          have hby : b.serviceByName name' = some k := hname'
          refine hfree ?_
          simp [hby, hk, hold, ha]
        · rw [Function.update_of_ne hname]
          exact hname'

theorem kept_setExtension (handle extension : ℕ) :
    Kept b (b.call (.setExtension handle extension)).binders := by
  simp only [Binders.call, Binders.setExtension]
  split
  · exact Kept.refl b
  · split
    · split
      · exact Kept.refl b
      · split
        · exact Kept.refl b
        · split
          · exact Kept.refl b
          · have hacquired : Kept b (b.modify extension .acquire) :=
              Kept.modify extension fun _ h => h
            have hlinked : Kept b ((b.modify extension .acquire).modify handle fun s =>
                { s with extensionHandle := extension }) :=
              hacquired.trans (Kept.modify handle fun _ h => h)
            split
            · exact hlinked.trans (Kept.release _ _)
            · exact hlinked
    · exact Kept.refl b

theorem kept_muplarBinderKill (handle : ℕ) :
    Kept b (b.call (.muplarBinderKill handle)).binders := by
  simp only [Binders.call, Binders.muplarBinderKill]
  split
  · exact Kept.refl b
  · simp only [Binders.retireService]
    split
    · exact Kept.refl b
    · refine Kept.cleanup (fun s' hs' => ?_) (fun k hk => modify_services_of_ne _ hk) rfl
        fun _ => rfl
      rw [modify_services_self] at hs'
      obtain ⟨s, -, rfl⟩ := Option.map_eq_some_iff.mp hs'
      rfl

theorem kept_call (c : BinderCall) : Kept b (b.call c).binders := by
  by_cases haside : c.aside = true
  · exact Kept.of_same (aside_spec b haside).1
  cases c with
  | serviceLookup name owned => exact kept_serviceLookup name owned
  | addService handle name => exact kept_addService handle name
  | new clazz args created =>
    simp only [Binders.call, Binders.new]
    split
    · exact Kept.refl b
    · refine Kept.of_names rfl (Nat.le_succ _) fun k hk s hs ha => ⟨s, ?_, ha⟩
      rw [← hs]
      exact (Function.update_of_ne (Nat.ne_of_lt hk) ..).symm
  | associateClass handle clazz =>
    simp only [Binders.call, Binders.associateClass]
    split
    · exact Kept.refl b
    · exact Kept.modify handle fun _ h => h
  | incStrong handle => exact Kept.modify handle fun _ h => h
  | decStrong handle => exact Kept.release _ handle
  | weakPromote weak =>
    simp only [Binders.call, Binders.weakPromote]
    split
    · exact Kept.refl b
    · exact Kept.modify _ fun _ h => h
  | setExtension handle extension => exact kept_setExtension handle extension
  | getExtension handle out =>
    simp only [Binders.call, Binders.getExtension]
    split
    · exact Kept.refl b
    · split
      · exact Kept.refl b
      · split
        · exact Kept.refl b
        · split
          · exact Kept.refl b
          · split
            · exact Kept.modify _ fun _ h => h
            · exact Kept.refl b
  | deathRecipientNew onBinderDied =>
    simp only [Binders.call, Binders.deathRecipientNew]
    split
    · exact Kept.refl b
    · exact Kept.of_names rfl (Nat.le_refl _) fun k _ s hs ha => ⟨s, hs, ha⟩
  | deathRecipientSetOnUnlinked recipient onUnlinked =>
    exact Kept.of_names rfl (Nat.le_refl _) fun k _ s hs ha => ⟨s, hs, ha⟩
  | deathRecipientDelete recipient =>
    simp only [Binders.call, Binders.deathRecipientDelete]
    split
    · exact Kept.refl b
    · refine Kept.of_names rfl (Nat.le_refl _) fun k _ s' hs' ha => ?_
      obtain ⟨s, hs, rfl⟩ := Option.map_eq_some_iff.mp hs'
      exact ⟨s, hs, ha⟩
  | linkToDeath handle recipient cookie =>
    simp only [Binders.call, Binders.linkToDeath]
    split
    · split
      · exact Kept.refl b
      · split
        · exact Kept.refl b
        · split
          · exact Kept.refl b
          · exact Kept.modify handle fun _ h => h
    · exact Kept.refl b
  | unlinkToDeath handle recipient cookie =>
    simp only [Binders.call, Binders.unlinkToDeath]
    split
    · split
      · exact Kept.modify handle fun _ h => h
      · exact Kept.refl b
    · exact Kept.refl b
  | muplarBinderKill handle => exact kept_muplarBinderKill handle
  | readStrongBinder parcel =>
    simp only [Binders.call, Binders.readStrongBinder]
    split
    · exact Kept.refl b
    · next read value hread =>
      exact (Kept.of_same (parcelRead_spec b hread).1).trans (Kept.modify _ fun _ h => h)
  | transact t daemon =>
    obtain ⟨-, ⟨-, hsame⟩ | ⟨-, hsame⟩⟩ := transact_spec b t daemon
    · exact Kept.of_same hsame
    · have hdead : Kept b (b.modify t.binder fun s => { s with alive := false }) :=
        Kept.modify t.binder fun _ h => by cases h
      exact hdead.trans (Kept.of_same hsame)
  | _ => exact absurd rfl haside

/-- What `addService` registers is found. -/
theorem registers_spec {c : BinderCall} {p : Bytes × ℕ} (hp : p ∈ c.registers b) :
    p.1 ≠ [] ∧ (b.services p.2).isSome ∧
      (b.call c).binders.nextBinderHandle = b.nextBinderHandle ∧
      (b.call c).binders.serviceByName p.1 = some p.2 := by
  cases c with
  | addService handle name =>
    simp only [BinderCall.registers] at hp
    by_cases hok : (b.call (.addService handle name)).result = statusOk
    · rw [if_pos hok] at hp
      obtain rfl := List.mem_singleton.mp hp
      simp only [Binders.call, Binders.addService] at hok ⊢
      split at hok
      · exact absurd hok statusBadValue_ne_ok
      · next s hs =>
        split at hok
        · exact absurd hok statusBadValue_ne_ok
        · next hname =>
          split at hok
          · exact absurd hok statusAlreadyExists_ne_ok
          · next hfree =>
            rw [if_neg hname, if_neg hfree]
            refine ⟨?_, by rw [hs]; rfl, rfl, Function.update_self ..⟩
            rintro rfl
            simp at hname
    · rw [if_neg hok] at hp
      cases hp
  | _ => cases hp

end Names

/-! ## Whole runs -/

/-- **The invariant.** -/
structure BinderWorld.Inv (w : BinderWorld) : Prop where
  balanced : w.Balanced
  names : ∀ p ∈ w.registered, p.1 ≠ [] ∧ p.2 < w.binders.nextBinderHandle ∧
    ∀ s, w.binders.services p.2 = some s → s.alive = true →
      w.binders.serviceByName p.1 = some p.2

theorem BinderWorld.start_inv : BinderWorld.start.Inv := by
  refine ⟨⟨Nat.le_refl _, ?_, ?_, ?_, ?_⟩, ?_⟩
  · intro h s hs
    cases hs
  · intro h s hs
    cases hs
  · intro h hpos
    exact absurd hpos (Nat.lt_irrefl 0)
  · intro h s hs
    cases hs
  · intro p hp
    cases hp

theorem BinderWorld.Inv.step {w : BinderWorld} (h : w.Inv) (c : BinderCall) (ha : c.Admitted w)
    (hc : c.Counted w) : (w.step c).Inv := by
  refine ⟨h.balanced.step c ha hc, fun p hp => ?_⟩
  have hkept : Kept w.binders (w.binders.call c).binders := kept_call c
  rcases List.mem_append.mp hp with hnew | hold
  · obtain ⟨hname, hthere, hnext, hby⟩ := registers_spec hnew
    obtain ⟨t, ht⟩ := Option.isSome_iff_exists.mp hthere
    refine ⟨hname, ?_, fun _ _ _ => hby⟩
    show p.2 < (w.binders.call c).binders.nextBinderHandle
    rw [hnext]
    exact (h.balanced.range p.2 t ht).2
  · obtain ⟨hname, hlt, hfound⟩ := h.names p hold
    refine ⟨hname, Nat.lt_of_lt_of_le hlt hkept.next, fun s hs halive => ?_⟩
    obtain ⟨⟨t, ht, htalive⟩, hnames⟩ := hkept.alive p.2 hlt s hs halive
    exact hnames p.1 (hfound t ht htalive)

theorem BinderWorld.Inv.sound {w : BinderWorld} (h : w.Inv) : w.Sound := by
  refine ⟨h.balanced.held, fun p hp halive owned => ?_⟩
  obtain ⟨hname, -, hfound⟩ := h.names p hp
  obtain ⟨s, hs, hsalive⟩ := exists_of_any halive
  have hby := hfound s hs hsalive
  have hfilter : (w.binders.serviceByName p.1).filter (fun h =>
      (w.binders.services h).any (·.alive)) = some p.2 := by
    rw [hby, Option.filter_some, if_pos halive]
  have hempty : ¬p.1.isEmpty = true := by simpa using hname
  simp only [Binders.serviceLookup, Binders.serviceHandleForName, if_neg hempty, hfilter]

/-- **When strong references are sound.** In every run in which the guest
releases what it has, no lookup finds a local service that is alive and
no local binder's count runs over: nothing the guest holds is ever
destroyed, and every registered service that is alive is found under its
name. -/
theorem binder_references_sound (calls : List BinderCall)
    (h : Machine.Meets BinderWorld.step (fun w c => c.Admitted w ∧ c.Counted w)
      BinderWorld.start calls) :
    Machine.Throughout BinderWorld.step BinderWorld.Sound BinderWorld.start calls := by
  have hinv := Machine.throughout_of_invariant (K := BinderWorld.Inv)
    (fun w c hw hok => hw.step c hok.1 hok.2) BinderWorld.start_inv h
  exact hinv.mono fun w hw => hw.sound

/-- A guest makes two binders, registers the first, sets the second as its
extension, reads it back and gives everything up. -/
def extensionReleased : List BinderCall :=
  [.classDefine (ascii "demo") 0 7 9, .new 0xB1C00001 0 0, .new 0xB1C00001 0 0,
   .addService 0xB1D00001 (ascii "svc"), .setExtension 0xB1D00001 0xB1D00002,
   .decStrong 0xB1D00002, .getExtension 0xB1D00001 0x1000, .decStrong 0xB1D00001,
   .decStrong 0xB1D00002]

theorem binder_references_sound_extension :
    Machine.Meets BinderWorld.step (fun w c => c.Admitted w ∧ c.Counted w)
        BinderWorld.start extensionReleased ∧
      Machine.Throughout BinderWorld.step BinderWorld.Sound BinderWorld.start
        extensionReleased := by
  have hmeets : Machine.Meets BinderWorld.step (fun w c => c.Admitted w ∧ c.Counted w)
      BinderWorld.start extensionReleased := by
    decide +kernel
  exact ⟨hmeets, binder_references_sound extensionReleased hmeets⟩

/-- A guest registers a binder, looks it up and releases what the lookup
gave it. -/
def lookedUp : List BinderCall :=
  [.classDefine (ascii "demo") 0 7 9, .new 0xB1C00001 0 0,
   .addService 0xB1D00001 (ascii "svc"), .serviceLookup (ascii "svc") false,
   .decStrong 0xB1D00001]

/-- **A binder destroyed under its owner.** The guest releases one of its
two references, which is the only one that was counted. -/
theorem held_binder_destroyed :
    ¬∀ calls : List BinderCall,
      Machine.Meets BinderWorld.step (fun w c => c.Admitted w) BinderWorld.start calls →
        Machine.Throughout BinderWorld.step BinderWorld.Sound BinderWorld.start calls := by
  intro hall
  have hlast := (hall lookedUp (by decide +kernel)).last.1 0xB1D00001 (by decide +kernel)
  revert hlast
  decide +kernel

end Android

end Muplar
