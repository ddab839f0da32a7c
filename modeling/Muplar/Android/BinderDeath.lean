import Mathlib.Data.List.Count
import Mathlib.Data.List.Nodup
import Mathlib.Data.List.Range
import Muplar.Common.Run
import Muplar.Android.Binder
/-!
# The Android runtime — death recipients

A link from a binder to a recipient ends with one `on_unlinked`: when it
is taken back, when its recipient is deleted or when the binder dies. A
binder that dies also tells each link so. The links are kept with their
binder, and the callbacks are made where a link is taken out; only remote
binders have links, so destroying a local one concerns none.

There is one place that marks a binder dead and leaves its links alone: a
transaction that the daemon does not take.
-/

namespace Muplar

namespace Android

/-! ## Runs and what is asked of them -/

/-- The table with a record of the run: the links that were made, the
links a binder had when it died, and the callbacks. -/
structure LinkWorld where
  binders : Binders
  established : List (ℕ × DeathLink)
  owed : List (ℕ × DeathLink)
  callbacks : List Callback

def Binders.isAlive (b : Binders) (handle : ℕ) : Bool :=
  (b.services handle).any (·.alive)

/-- The link a call makes. -/
def BinderCall.establishes (b : Binders) (c : BinderCall) : List (ℕ × DeathLink) :=
  match c with
  | .linkToDeath handle recipient cookie =>
    if (b.call c).result = statusOk then
      ((b.deathRecipients recipient).map fun r =>
        (handle, (⟨recipient, cookie, r.onBinderDied, r.onUnlinked⟩ : DeathLink))).toList
    else []
  | _ => []

/-- The links of the binders that were alive and no longer are. -/
def Binders.deaths (b b' : Binders) : List (ℕ × DeathLink) :=
  b.handles.flatMap fun h =>
    if b.isAlive h && !b'.isAlive h then (b.linksOf h).map fun l => (h, l) else []

def LinkWorld.step (w : LinkWorld) (c : BinderCall) : LinkWorld where
  binders := (w.binders.call c).binders
  established := w.established ++ c.establishes w.binders
  owed := w.owed ++ w.binders.deaths (w.binders.call c).binders
  callbacks := w.callbacks ++ (w.binders.call c).callbacks

def LinkWorld.start : LinkWorld where
  binders := .empty
  established := []
  owed := []
  callbacks := []

/-- **The protocol of links.** Of the links made so far, those that are
still there have had no `on_unlinked` and each other one has had one; the
links a binder had when it died have had one `on_binder_died` each, and
no other has; and a binder that is dead has no link left. A callback for
a link that is not there would break one of the two equations. -/
structure LinkWorld.Protocol (w : LinkWorld) : Prop where
  unlinked : ∀ h l, l.onUnlinked ≠ 0 → w.established.count (h, l) =
    w.callbacks.count (.unlinked h l) + (w.binders.linksOf h).count l
  died : ∀ h l, w.callbacks.count (.died h l) = w.owed.count (h, l)
  live : ∀ h, w.binders.linksOf h ≠ [] → w.binders.isAlive h = true

/-- The call is no transaction that the daemon does not take, with a
binder that has links. -/
def BinderCall.Delivers (w : LinkWorld) : BinderCall → Prop
  | .transact t daemon => t.Fails w.binders daemon → w.binders.linksOf t.binder = []
  | _ => True

/-! ## Counting callbacks -/

section Count

variable {α : Type*} [BEq α]

/-- Of lists that are put together one for each number, only one has a
given element. -/
theorem count_flatMap_of_nodup {f : ℕ → List α} {a : α} {h : ℕ} {l : List ℕ} (hl : l.Nodup)
    (hoff : ∀ k, k ≠ h → (f k).count a = 0) :
    (l.flatMap f).count a = if h ∈ l then (f h).count a else 0 := by
  induction l with
  | nil => simp
  | cons k l ih =>
    rw [List.nodup_cons] at hl
    rw [List.flatMap_cons, List.count_append, ih hl.2]
    by_cases hk : k = h
    · subst hk
      simp [hl.1]
    · have hk' : h ≠ k := Ne.symm hk
      simp [hoff k hk, hk']

theorem count_link (h handle : ℕ) (l link : DeathLink) :
    List.count (h, l) [(handle, link)] = if h = handle then List.count l [link] else 0 := by
  by_cases hh : h = handle
  · subst hh
    simp [List.count_singleton]
  · have hh' : handle ≠ h := Ne.symm hh
    simp [hh, hh']

variable {handle h : ℕ} {l : DeathLink} (links : List DeathLink)

theorem count_unlinked (hl : l.onUnlinked ≠ 0) :
    (links.flatMap (notifyDeathUnlinked handle)).count (.unlinked h l) =
      if h = handle then links.count l else 0 := by
  induction links with
  | nil => simp
  | cons x links ih =>
    rw [List.flatMap_cons, List.count_append, ih, notifyDeathUnlinked]
    by_cases hx : x = l
    · subst hx
      by_cases hh : h = handle
      · simp [hh, hl, Nat.add_comm]
      · have hh' : handle ≠ h := Ne.symm hh
        simp [hh, hh', hl]
    · by_cases hfn : x.onUnlinked ≠ 0
      · simp [hfn, hx]
      · simp [hfn, hx]

/-- The links of a recipient and the others are all of them. -/
theorem count_parted (recipient : ℕ) :
    links.count l = (links.filter (·.recipientHandle = recipient)).count l +
      (links.filter (·.recipientHandle ≠ recipient)).count l := by
  induction links with
  | nil => rfl
  | cons x links ih =>
    by_cases hx : x.recipientHandle = recipient
    · simp only [List.filter_cons, hx, List.count_cons, ih, decide_true, if_true, ne_eq,
        not_true_eq_false, decide_false, Bool.false_eq_true, if_false]
      omega
    · simp only [List.filter_cons, hx, List.count_cons, ih, decide_true, if_true, ne_eq,
        not_false_eq_true, decide_false, Bool.false_eq_true, if_false]
      omega

theorem died_not_mem_unlinked : Callback.died h l ∉ links.flatMap (notifyDeathUnlinked handle) := by
  intro hmem
  obtain ⟨x, -, hx⟩ := List.mem_flatMap.mp hmem
  rw [notifyDeathUnlinked] at hx
  split at hx
  · cases List.mem_singleton.mp hx
  · cases hx

/-- What a dying binder calls. -/
def deathCallbacks (handle : ℕ) (links : List DeathLink) : List Callback :=
  links.flatMap fun link => notifyBinderDied handle link ++ notifyDeathUnlinked handle link

theorem count_death_unlinked (hl : l.onUnlinked ≠ 0) :
    (deathCallbacks handle links).count (.unlinked h l) =
      if h = handle then links.count l else 0 := by
  rw [← count_unlinked links hl, deathCallbacks]
  induction links with
  | nil => rfl
  | cons x links ih =>
    rw [List.flatMap_cons, List.flatMap_cons, List.count_append, List.count_append, ih,
      List.count_append]
    have hdied : (notifyBinderDied handle x).count (.unlinked h l) = 0 := by
      rw [notifyBinderDied]
      split <;> simp
    omega

theorem count_death_died (hlinks : ∀ x ∈ links, x.onBinderDied ≠ 0) :
    (deathCallbacks handle links).count (.died h l) =
      if h = handle then links.count l else 0 := by
  rw [deathCallbacks]
  induction links with
  | nil => simp
  | cons x links ih =>
    have hx := hlinks x List.mem_cons_self
    rw [List.flatMap_cons, List.count_append,
      ih fun y hy => hlinks y (List.mem_cons_of_mem _ hy), List.count_append, notifyBinderDied,
      if_pos hx]
    have hunlinked : (notifyDeathUnlinked handle x).count (.died h l) = 0 := by
      rw [notifyDeathUnlinked]
      split <;> simp
    by_cases heq : x = l
    · subst heq
      by_cases hh : h = handle
      · subst hh
        simp [hunlinked, Nat.add_comm]
      · have hh' : handle ≠ h := Ne.symm hh
        simp [hh, hh', hunlinked]
    · simp [heq, hunlinked]

end Count

/-! ## Entries and handles -/

/-- The entries have handles that were given out. -/
structure Ranged (b : Binders) : Prop where
  low : firstBinderHandle ≤ b.nextBinderHandle
  range : ∀ h s, b.services h = some s → firstBinderHandle ≤ h ∧ h < b.nextBinderHandle

section Handles

variable {b b' : Binders} {h : ℕ} {l : DeathLink}

theorem Ranged.mem_handles (hr : Ranged b) {s : BinderService} (hs : b.services h = some s) :
    h ∈ b.handles := by
  have hrange := hr.range h s hs
  have hlow := hr.low
  rw [Binders.handles, List.mem_range'_1]
  omega

theorem linksOf_of_none (hs : b.services h = none) : b.linksOf h = [] := by
  rw [Binders.linksOf, hs]
  rfl

theorem linksOf_of_some {s : BinderService} (hs : b.services h = some s) :
    b.linksOf h = s.deathLinks := by
  rw [Binders.linksOf, hs]
  rfl

theorem isAlive_of_some {s : BinderService} (hs : b.services h = some s) :
    b.isAlive h = s.alive := by
  rw [Binders.isAlive, hs]
  rfl

/-- Where only the part of one handle counts, it counts. -/
theorem count_handles {α : Type*} [BEq α] (hr : Ranged b) {f : ℕ → List α} {a : α}
    (hoff : ∀ k, k ≠ h → (f k).count a = 0) (hnone : b.services h = none → (f h).count a = 0) :
    (b.handles.flatMap f).count a = (f h).count a := by
  have hnodup : b.handles.Nodup := List.nodup_range' ..
  rw [count_flatMap_of_nodup hnodup hoff]
  split
  · rfl
  · next hnot =>
    refine (hnone ?_).symm
    rw [Option.eq_none_iff_forall_ne_some]
    intro s hs
    exact hnot (hr.mem_handles hs)

theorem count_deaths (hr : Ranged b) :
    (b.deaths b').count (h, l) =
      if b.isAlive h && !b'.isAlive h then (b.linksOf h).count l else 0 := by
  have hpart : ∀ k, ((b.linksOf k).map fun x => (k, x)).count (h, l) =
      if k = h then (b.linksOf k).count l else 0 := by
    intro k
    split
    · next hk =>
      subst hk
      exact List.count_map_of_injective _ _ (fun x y hxy => (Prod.mk.inj hxy).2) _
    · next hk =>
      rw [List.count_eq_zero]
      intro hmem
      obtain ⟨x, -, hx⟩ := List.mem_map.mp hmem
      exact hk (Prod.mk.inj hx).1
  rw [Binders.deaths, count_handles (h := h) hr]
  · split
    · rw [hpart, if_pos rfl]
    · rfl
  · intro k hk
    split
    · rw [hpart, if_neg hk]
    · rfl
  · intro hs
    rw [linksOf_of_none hs]
    split <;> rfl

end Handles

/-! ## Calls that do not touch links -/

/-- What the protocol looks at in an entry. -/
def BinderService.bonds (s : BinderService) : Bool × Bool × List DeathLink :=
  (s.alive, s.remote, s.deathLinks)

/-- **Nothing happens to links.** Each entry is as it was, as far as the
protocol looks, or has no links before and after. -/
structure Calm (b b' : Binders) : Prop where
  next : b.nextBinderHandle ≤ b'.nextBinderHandle
  range : ∀ h s', b'.services h = some s' → b.services h = none →
    b.nextBinderHandle ≤ h ∧ h < b'.nextBinderHandle
  bonds : ∀ h, (b'.services h).map BinderService.bonds = (b.services h).map BinderService.bonds ∨
    b.linksOf h = [] ∧ b'.linksOf h = []
  recipients : b'.deathRecipients = b.deathRecipients

section Calm

variable {b b' b'' : Binders} {h : ℕ}

theorem linksOf_of_bonds
    (heq : (b'.services h).map BinderService.bonds = (b.services h).map BinderService.bonds) :
    b'.linksOf h = b.linksOf h ∧ b'.isAlive h = b.isAlive h := by
  rw [Binders.linksOf, Binders.linksOf, Binders.isAlive, Binders.isAlive]
  cases hs' : b'.services h with
  | none =>
    rw [hs', Option.map_none, eq_comm, Option.map_eq_none_iff] at heq
    rw [heq]
    exact ⟨rfl, rfl⟩
  | some s' =>
    rw [hs', Option.map_some, eq_comm, Option.map_eq_some_iff] at heq
    obtain ⟨s, hs, hbonds⟩ := heq
    simp only [BinderService.bonds, Prod.mk.injEq] at hbonds
    rw [hs]
    exact ⟨hbonds.2.2.symm, hbonds.1.symm⟩

theorem Calm.links (hc : Calm b b') (h : ℕ) : b'.linksOf h = b.linksOf h := by
  rcases hc.bonds h with heq | ⟨hbefore, hafter⟩
  · exact (linksOf_of_bonds heq).1
  · rw [hbefore, hafter]

/-- A binder with links stays alive. -/
theorem Calm.alive (hc : Calm b b') (hlinks : b.linksOf h ≠ []) :
    b'.isAlive h = b.isAlive h := by
  rcases hc.bonds h with heq | ⟨hbefore, -⟩
  · exact (linksOf_of_bonds heq).2
  · exact absurd hbefore hlinks

theorem Calm.refl (b : Binders) : Calm b b := by
  refine ⟨Nat.le_refl _, fun h s hs hnone => ?_, fun _ => Or.inl rfl, rfl⟩
  rw [hs] at hnone
  cases hnone

theorem Calm.trans (h₁ : Calm b b') (h₂ : Calm b' b'') : Calm b b'' := by
  refine ⟨Nat.le_trans h₁.next h₂.next, fun h s hs hnone => ?_, fun h => ?_,
    h₂.recipients.trans h₁.recipients⟩
  · cases hs' : b'.services h with
    | none =>
      have hrange := h₂.range h s hs hs'
      have := h₁.next
      omega
    | some s' =>
      have hrange := h₁.range h s' hs' hnone
      have := h₂.next
      omega
  · rcases h₁.bonds h with heq₁ | ⟨hbefore, hmiddle⟩
    · rcases h₂.bonds h with heq₂ | ⟨hmiddle, hafter⟩
      · exact Or.inl (heq₂.trans heq₁)
      · exact Or.inr ⟨(linksOf_of_bonds heq₁).1.symm.trans hmiddle, hafter⟩
    · exact Or.inr ⟨hbefore, (h₂.links h).trans hmiddle⟩

theorem Calm.of_same (hs : SameTable b b') : Calm b b' := by
  refine ⟨by rw [hs.next], fun h s h' hnone => ?_, fun h => Or.inl (by rw [hs.services]),
    hs.recipients⟩
  rw [hs.services, hnone] at h'
  cases h'

/-- A change makes no entry. -/
theorem modify_range (handle : ℕ) (f : BinderService → BinderService) :
    ∀ h s', (b.modify handle f).services h = some s' → b.services h = none →
      b.nextBinderHandle ≤ h ∧ h < (b.modify handle f).nextBinderHandle := by
  intro h s' hs' hnone
  by_cases hk : h = handle
  · rw [hk] at hnone hs'
    rw [modify_services_self, hnone] at hs'
    cases hs'
  · rw [modify_services_of_ne _ hk, hnone] at hs'
    cases hs'

theorem Calm.modify (handle : ℕ) {f : BinderService → BinderService}
    (hf : ∀ s, (f s).bonds = s.bonds) : Calm b (b.modify handle f) := by
  refine ⟨Nat.le_refl _, modify_range handle f, fun h => Or.inl ?_, rfl⟩
  by_cases hk : h = handle
  · rw [hk, modify_services_self, Option.map_map]
    congr 1
    funext s
    exact hf s
  · rw [modify_services_of_ne _ hk]

/-- An entry without links may be changed in any way that gives it none. -/
theorem Calm.modify_unlinked {handle : ℕ} {f : BinderService → BinderService}
    (hlinks : b.linksOf handle = []) (hf : ∀ s, (f s).deathLinks = s.deathLinks) :
    Calm b (b.modify handle f) := by
  refine ⟨Nat.le_refl _, modify_range handle f, fun h => ?_, rfl⟩
  by_cases hk : h = handle
  · rw [hk]
    refine Or.inr ⟨hlinks, ?_⟩
    rw [Binders.linksOf, modify_services_self, ← hlinks, Binders.linksOf]
    cases b.services handle with
    | none => rfl
    | some s => exact hf s
  · exact Or.inl (by rw [modify_services_of_ne _ hk])

theorem Calm.create {s : BinderService} (hfree : b.services b.nextBinderHandle = none)
    (hs : s.deathLinks = []) : Calm b (b.create s) := by
  have hself : (b.create s).services b.nextBinderHandle = some s := Function.update_self ..
  have hoff : ∀ k, k ≠ b.nextBinderHandle → (b.create s).services k = b.services k :=
    fun k hk => Function.update_of_ne hk ..
  refine ⟨Nat.le_succ _, fun h s' hs' hnone => ?_, fun h => ?_, rfl⟩
  · by_cases hk : h = b.nextBinderHandle
    · rw [hk]
      exact ⟨Nat.le_refl _, Nat.lt_succ_self _⟩
    · rw [hoff h hk, hnone] at hs'
      cases hs'
  · by_cases hk : h = b.nextBinderHandle
    · rw [hk]
      exact Or.inr ⟨linksOf_of_none hfree, (linksOf_of_some hself).trans hs⟩
    · exact Or.inl (by rw [hoff h hk])

theorem Calm.erase {handle : ℕ} (hlinks : b.linksOf handle = []) : Calm b (b.erase handle) := by
  refine ⟨Nat.le_refl _, fun h s' hs' hnone => ?_, fun h => ?_, rfl⟩
  · by_cases hk : h = handle
    · rw [hk, erase_services_self] at hs'
      cases hs'
    · rw [erase_services_of_ne hk, hnone] at hs'
      cases hs'
  · by_cases hk : h = handle
    · rw [hk]
      exact Or.inr ⟨hlinks, linksOf_of_none erase_services_self⟩
    · exact Or.inl (by rw [erase_services_of_ne hk])

/-- No link is told anything. -/
def Silent (callbacks : List Callback) : Prop :=
  ∀ h l, Callback.died h l ∉ callbacks ∧ Callback.unlinked h l ∉ callbacks

theorem Silent.nil : Silent [] := by
  intro h l
  simp

theorem Silent.refused (handle : ℕ) (link : DeathLink) : Silent (notifyRefused handle link) := by
  intro h l
  rw [notifyRefused]
  split <;> simp

/-- Only remote binders have links. -/
def LocalUnlinked (b : Binders) : Prop :=
  ∀ h s, b.services h = some s → s.remote = false → s.deathLinks = []

theorem LocalUnlinked.calm (hl : LocalUnlinked b) (hc : Calm b b') : LocalUnlinked b' := by
  intro h s' hs' hremote
  rcases hc.bonds h with heq | ⟨-, hafter⟩
  · rw [hs', Option.map_some, eq_comm, Option.map_eq_some_iff] at heq
    obtain ⟨s, hs, hbonds⟩ := heq
    simp only [BinderService.bonds, Prod.mk.injEq] at hbonds
    rw [← hbonds.2.2]
    exact hl h s hs (hbonds.2.1.trans hremote)
  · rw [← linksOf_of_some hs']
    exact hafter

theorem Ranged.calm (hr : Ranged b) (hc : Calm b b') : Ranged b' := by
  refine ⟨Nat.le_trans hr.low hc.next, fun h s' hs' => ?_⟩
  have hnext := hc.next
  cases hs : b.services h with
  | none =>
    have hrange := hc.range h s' hs' hs
    have hlow := hr.low
    omega
  | some s =>
    have hrange := hr.range h s hs
    omega

theorem Ranged.free (hr : Ranged b) : b.services b.nextBinderHandle = none := by
  rw [Option.eq_none_iff_forall_ne_some]
  intro s hs
  exact Nat.lt_irrefl _ (hr.range _ s hs).2

/-- Releasing destroys local binders only, which have no links. -/
theorem release_calm (hl : LocalUnlinked b) (fuel handle : ℕ) :
    Calm b (b.releaseFuel fuel handle).1 ∧ Silent (b.releaseFuel fuel handle).2 := by
  induction fuel generalizing b handle with
  | zero => exact ⟨Calm.refl b, Silent.nil⟩
  | succ fuel ih =>
    rw [Binders.releaseFuel]
    cases hs : b.services handle with
    | none => exact ⟨Calm.refl b, Silent.nil⟩
    | some s =>
      simp only
      split
      · split
        · exact ⟨Calm.modify handle fun _ => rfl, Silent.nil⟩
        · exact ⟨Calm.refl b, Silent.nil⟩
      · next hremote =>
        split
        · exact ⟨Calm.modify handle fun _ => rfl, Silent.nil⟩
        · have hlinks : s.deathLinks = [] := hl handle s hs (by simpa using hremote)
          have hcalm : Calm b (b.erase handle) :=
            Calm.erase ((linksOf_of_some hs).trans hlinks)
          have hsilent : Silent (b.destroyCallbacks handle s) := by
            intro h l
            simp only [Binders.destroyCallbacks, hlinks, List.flatMap_nil, List.append_nil]
            split <;> simp
          split
          · obtain ⟨hrest, hquiet⟩ := ih (hl.calm hcalm) s.extensionHandle
            refine ⟨hcalm.trans hrest, fun h l => ?_⟩
            rw [List.mem_append, List.mem_append, not_or, not_or]
            exact ⟨⟨(hsilent h l).1, (hquiet h l).1⟩, (hsilent h l).2, (hquiet h l).2⟩
          · exact ⟨hcalm, hsilent⟩

theorem setExtension_calm (hl : LocalUnlinked b) (handle extension : ℕ) :
    Calm b (b.setExtension handle extension).binders ∧
      Silent (b.setExtension handle extension).callbacks := by
  unfold Binders.setExtension
  split
  · exact ⟨Calm.refl b, Silent.nil⟩
  · split
    · split
      · exact ⟨Calm.refl b, Silent.nil⟩
      · split
        · exact ⟨Calm.refl b, Silent.nil⟩
        · split
          · exact ⟨Calm.refl b, Silent.nil⟩
          · have hacquired : Calm b (b.modify extension .acquire) :=
              Calm.modify extension fun _ => rfl
            have hlinked : Calm b ((b.modify extension .acquire).modify handle fun s =>
                { s with extensionHandle := extension }) :=
              hacquired.trans (Calm.modify handle fun _ => rfl)
            split
            · obtain ⟨hrest, hquiet⟩ := release_calm (hl.calm hlinked) _ _
              exact ⟨hlinked.trans hrest, hquiet⟩
            · exact ⟨hlinked, Silent.nil⟩
    · exact ⟨Calm.refl b, Silent.nil⟩

theorem serviceLookup_calm (hr : Ranged b) (name : Bytes) (owned : Bool) :
    Calm b (b.serviceLookup name owned).binders ∧
      Silent (b.serviceLookup name owned).callbacks := by
  have hnames : ∀ (b : Binders) names, Calm b { b with serviceByName := names } := by
    intro b names
    refine ⟨Nat.le_refl _, fun h s hs hnone => ?_, fun _ => Or.inl rfl, rfl⟩
    rw [show b.services h = some s from hs] at hnone
    cases hnone
  unfold Binders.serviceLookup Binders.serviceHandleForName
  split
  · exact ⟨Calm.refl b, Silent.nil⟩
  · split
    · exact ⟨Calm.refl b, Silent.nil⟩
    · split
      · exact ⟨hnames b _, Silent.nil⟩
      · split
        · exact ⟨hnames b _, Silent.nil⟩
        · have hcreated : Calm b (b.create { name, daemonOwned := owned }) :=
            Calm.create hr.free rfl
          exact ⟨hcreated.trans (hnames _ _), Silent.nil⟩

/-- The calls for recipients, and those that may take links out. -/
def BinderCall.binds : BinderCall → Bool
  | .deathRecipientNew _ | .deathRecipientSetOnUnlinked _ _ | .deathRecipientDelete _ => true
  | .linkToDeath _ _ _ | .unlinkToDeath _ _ _ => true
  | .muplarBinderKill _ | .transact _ _ => true
  | _ => false

/-- **Every other call leaves links alone.** -/
theorem calm_call (hr : Ranged b) (hl : LocalUnlinked b) {c : BinderCall}
    (hc : c.binds = false) : Calm b (b.call c).binders ∧ Silent (b.call c).callbacks := by
  by_cases haside : c.aside = true
  · obtain ⟨hsame, hnone⟩ := aside_spec b haside
    rw [hnone]
    exact ⟨Calm.of_same hsame, Silent.nil⟩
  cases c with
  | serviceLookup name owned => exact serviceLookup_calm hr name owned
  | addService handle name =>
    simp only [Binders.call, Binders.addService]
    split
    · exact ⟨Calm.refl b, Silent.nil⟩
    · split
      · exact ⟨Calm.refl b, Silent.nil⟩
      · split
        · exact ⟨Calm.refl b, Silent.nil⟩
        · have hrenamed : Calm b (b.modify handle fun s => { s with name }) :=
            Calm.modify handle fun _ => rfl
          exact ⟨⟨hrenamed.next, hrenamed.range, hrenamed.bonds, rfl⟩, Silent.nil⟩
  | new clazz args created =>
    simp only [Binders.call, Binders.new]
    split
    · exact ⟨Calm.refl b, Silent.nil⟩
    · exact ⟨Calm.create hr.free rfl, Silent.nil⟩
  | associateClass handle clazz =>
    simp only [Binders.call, Binders.associateClass]
    split
    · exact ⟨Calm.refl b, Silent.nil⟩
    · exact ⟨Calm.modify handle fun _ => rfl, Silent.nil⟩
  | incStrong handle => exact ⟨Calm.modify handle fun _ => rfl, Silent.nil⟩
  | decStrong handle => exact release_calm hl _ handle
  | weakPromote weak =>
    simp only [Binders.call, Binders.weakPromote]
    split
    · exact ⟨Calm.refl b, Silent.nil⟩
    · exact ⟨Calm.modify _ fun _ => rfl, Silent.nil⟩
  | setExtension handle extension => exact setExtension_calm hl handle extension
  | getExtension handle out =>
    simp only [Binders.call, Binders.getExtension]
    split
    · exact ⟨Calm.refl b, Silent.nil⟩
    · split
      · exact ⟨Calm.refl b, Silent.nil⟩
      · split
        · exact ⟨Calm.refl b, Silent.nil⟩
        · split
          · exact ⟨Calm.refl b, Silent.nil⟩
          · split
            · exact ⟨Calm.modify _ fun _ => rfl, Silent.nil⟩
            · exact ⟨Calm.refl b, Silent.nil⟩
  | readStrongBinder parcel =>
    simp only [Binders.call, Binders.readStrongBinder]
    split
    · exact ⟨Calm.refl b, Silent.nil⟩
    · next read value hread =>
      have hread := Calm.of_same (parcelRead_spec b hread).1
      exact ⟨hread.trans (Calm.modify _ fun _ => rfl), Silent.nil⟩
  | deathRecipientNew onBinderDied => cases hc
  | deathRecipientSetOnUnlinked recipient onUnlinked => cases hc
  | linkToDeath handle recipient cookie => cases hc
  | unlinkToDeath handle recipient cookie => cases hc
  | deathRecipientDelete recipient => cases hc
  | muplarBinderKill handle => cases hc
  | transact t daemon => cases hc
  | _ => exact absurd rfl haside

end Calm

/-! ## The invariant -/

/-- **The protocol, and what carries it.** -/
structure LinkWorld.Inv (w : LinkWorld) : Prop where
  protocol : w.Protocol
  ranged : Ranged w.binders
  localUnlinked : LocalUnlinked w.binders
  links : ∀ h, ∀ l ∈ w.binders.linksOf h, l.onBinderDied ≠ 0
  recipients : ∀ r x, w.binders.deathRecipients r = some x → x.onBinderDied ≠ 0

section Step

variable {w : LinkWorld} {c : BinderCall}

/-- What one call owes the protocol. -/
theorem LinkWorld.Inv.protocol_step (hi : w.Inv)
    (hunlinked : ∀ h l, l.onUnlinked ≠ 0 →
      (c.establishes w.binders).count (h, l) + (w.binders.linksOf h).count l =
        (w.binders.call c).callbacks.count (.unlinked h l) +
          ((w.binders.call c).binders.linksOf h).count l)
    (hdied : ∀ h l, (w.binders.call c).callbacks.count (.died h l) =
      if w.binders.isAlive h && !(w.binders.call c).binders.isAlive h then
        (w.binders.linksOf h).count l else 0)
    (hlive : ∀ h, (w.binders.call c).binders.linksOf h ≠ [] →
      (w.binders.call c).binders.isAlive h = true) : (w.step c).Protocol := by
  refine ⟨fun h l hl => ?_, fun h l => ?_, hlive⟩
  · show (w.established ++ c.establishes w.binders).count (h, l) =
      (w.callbacks ++ (w.binders.call c).callbacks).count (.unlinked h l) +
        ((w.binders.call c).binders.linksOf h).count l
    have hbefore := hi.protocol.unlinked h l hl
    have hcall := hunlinked h l hl
    rw [List.count_append, List.count_append]
    omega
  · show (w.callbacks ++ (w.binders.call c).callbacks).count (.died h l) =
      (w.owed ++ w.binders.deaths (w.binders.call c).binders).count (h, l)
    rw [List.count_append, List.count_append, hi.protocol.died h l, hdied h l,
      count_deaths hi.ranged]

/-- A call that nothing happens to links in. -/
theorem LinkWorld.Inv.calm (hi : w.Inv) (hcalm : Calm w.binders (w.binders.call c).binders)
    (hsilent : Silent (w.binders.call c).callbacks) (hnone : c.establishes w.binders = []) :
    (w.step c).Inv := by
  refine ⟨hi.protocol_step (fun h l hl => ?_) (fun h l => ?_) (fun h hh => ?_),
    hi.ranged.calm hcalm, hi.localUnlinked.calm hcalm, fun h l hl => ?_, fun r x hx => ?_⟩
  · rw [hnone, List.count_nil, hcalm.links, List.count_eq_zero.mpr (hsilent h l).2]
  · rw [List.count_eq_zero.mpr (hsilent h l).1]
    split
    · next hdies =>
      have hlinks : w.binders.linksOf h = [] := by
        by_contra hne
        rw [hcalm.alive hne] at hdies
        simp at hdies
      rw [hlinks]
      rfl
    · rfl
  · rw [hcalm.links] at hh
    rw [hcalm.alive hh]
    exact hi.protocol.live h hh
  · refine hi.links h l ?_
    rw [← hcalm.links h]
    exact hl
  · refine hi.recipients r x ?_
    rw [← hcalm.recipients]
    exact hx

/-- A call that changes nothing, and tells at most that it does not. -/
theorem LinkWorld.Inv.refused (hi : w.Inv) {result : ℕ} {callbacks : List Callback}
    (hcall : w.binders.call c = { binders := w.binders, result, callbacks })
    (hsilent : Silent callbacks) (hnone : c.establishes w.binders = []) : (w.step c).Inv :=
  hi.calm (by rw [hcall]; exact Calm.refl _) (by rw [hcall]; exact hsilent) hnone

/-- A call that changes recipients and nothing else. -/
theorem LinkWorld.Inv.recipientsOnly (hi : w.Inv)
    (hservices : (w.binders.call c).binders.services = w.binders.services)
    (hnext : (w.binders.call c).binders.nextBinderHandle = w.binders.nextBinderHandle)
    (hcallbacks : (w.binders.call c).callbacks = []) (hnone : c.establishes w.binders = [])
    (hrecipients : ∀ r x, (w.binders.call c).binders.deathRecipients r = some x →
      x.onBinderDied ≠ 0) : (w.step c).Inv := by
  have hlinks : ∀ h, (w.binders.call c).binders.linksOf h = w.binders.linksOf h := by
    intro h
    rw [Binders.linksOf, Binders.linksOf, hservices]
  have halive : ∀ h, (w.binders.call c).binders.isAlive h = w.binders.isAlive h := by
    intro h
    rw [Binders.isAlive, Binders.isAlive, hservices]
  refine ⟨hi.protocol_step (fun h l hl => ?_) (fun h l => ?_) (fun h hh => ?_), ?_, ?_,
    fun h l hl => ?_, hrecipients⟩
  · rw [hnone, hcallbacks, hlinks]
    rfl
  · rw [hcallbacks, halive]
    simp
  · rw [hlinks] at hh
    rw [halive]
    exact hi.protocol.live h hh
  · refine ⟨?_, fun h s hs => ?_⟩
    · show firstBinderHandle ≤ (w.binders.call c).binders.nextBinderHandle
      rw [hnext]
      exact hi.ranged.low
    · have hrange := hi.ranged.range h s (by rw [← hservices]; exact hs)
      rw [← hnext] at hrange
      exact hrange
  · intro h s hs
    exact hi.localUnlinked h s (by rw [← hservices]; exact hs)
  · refine hi.links h l ?_
    rw [← hlinks h]
    exact hl

/-- A call that changes one entry. -/
theorem LinkWorld.Inv.rebound (hi : w.Inv) {handle : ℕ} {s s' : BinderService}
    (hs : w.binders.services handle = some s)
    (hself : (w.binders.call c).binders.services handle = some s')
    (hoff : ∀ k, k ≠ handle → (w.binders.call c).binders.services k = w.binders.services k)
    (hnext : (w.binders.call c).binders.nextBinderHandle = w.binders.nextBinderHandle)
    (hrecipients : (w.binders.call c).binders.deathRecipients = w.binders.deathRecipients)
    (hmay : s'.deathLinks ≠ [] → s'.alive = true ∧ s'.remote = true)
    (hfns : ∀ l ∈ s'.deathLinks, l.onBinderDied ≠ 0)
    (hunlinked : ∀ h l, l.onUnlinked ≠ 0 →
      (c.establishes w.binders).count (h, l) + (if h = handle then s.deathLinks.count l else 0) =
        (w.binders.call c).callbacks.count (.unlinked h l) +
          if h = handle then s'.deathLinks.count l else 0)
    (hdied : ∀ h l, (w.binders.call c).callbacks.count (.died h l) =
      if h = handle then (if s.alive && !s'.alive then s.deathLinks.count l else 0) else 0) :
    (w.step c).Inv := by
  have hlinks : ∀ h, h ≠ handle →
      (w.binders.call c).binders.linksOf h = w.binders.linksOf h := by
    intro h hh
    rw [Binders.linksOf, Binders.linksOf, hoff h hh]
  have halive : ∀ h, h ≠ handle →
      (w.binders.call c).binders.isAlive h = w.binders.isAlive h := by
    intro h hh
    rw [Binders.isAlive, Binders.isAlive, hoff h hh]
  refine ⟨hi.protocol_step (fun h l hl => ?_) (fun h l => ?_) (fun h hh => ?_), ?_, ?_,
    fun h l hl => ?_, ?_⟩
  · have hcount := hunlinked h l hl
    by_cases hh : h = handle
    · subst hh
      rw [linksOf_of_some hs, linksOf_of_some hself]
      simpa using hcount
    · rw [hlinks h hh]
      simp only [if_neg hh] at hcount
      omega
  · rw [hdied]
    by_cases hh : h = handle
    · subst hh
      rw [if_pos rfl, isAlive_of_some hs, isAlive_of_some hself, linksOf_of_some hs]
    · rw [if_neg hh, halive h hh]
      simp
  · by_cases hh' : h = handle
    · subst hh'
      rw [linksOf_of_some hself] at hh
      rw [isAlive_of_some hself]
      exact (hmay hh).1
    · rw [hlinks h hh'] at hh
      rw [halive h hh']
      exact hi.protocol.live h hh
  · refine ⟨?_, fun h t ht => ?_⟩
    · show firstBinderHandle ≤ (w.binders.call c).binders.nextBinderHandle
      rw [hnext]
      exact hi.ranged.low
    · show firstBinderHandle ≤ h ∧ h < (w.binders.call c).binders.nextBinderHandle
      rw [hnext]
      by_cases hh : h = handle
      · rw [hh]
        exact hi.ranged.range handle s hs
      · exact hi.ranged.range h t ((hoff h hh).symm.trans ht)
  · intro h t ht hremote
    by_cases hh : h = handle
    · subst hh
      obtain rfl := Option.some.inj (hself.symm.trans ht)
      by_contra hne
      rw [(hmay hne).2] at hremote
      cases hremote
    · exact hi.localUnlinked h t ((hoff h hh).symm.trans ht) hremote
  · by_cases hh : h = handle
    · subst hh
      have hl' : l ∈ (w.binders.call c).binders.linksOf h := hl
      rw [linksOf_of_some hself] at hl'
      exact hfns l hl'
    · refine hi.links h l ?_
      rw [← hlinks h hh]
      exact hl
  · intro r x hx
    refine hi.recipients r x ?_
    rw [← hrecipients]
    exact hx

theorem LinkWorld.Inv.linkToDeath (hi : w.Inv) (handle recipient cookie : ℕ) :
    (w.step (.linkToDeath handle recipient cookie)).Inv := by
  -- a link that is refused changes nothing
  have hrefused : ∀ result {callbacks}, Silent callbacks → result ≠ statusOk →
      w.binders.call (.linkToDeath handle recipient cookie) =
        { binders := w.binders, result, callbacks } →
      (w.step (.linkToDeath handle recipient cookie)).Inv := fun _ _ hsilent hresult hcall =>
    hi.refused hcall hsilent (by rw [BinderCall.establishes, hcall]; exact if_neg hresult)
  cases hs : w.binders.services handle with
  | none =>
    exact hrefused _ Silent.nil statusBadValue_ne_ok
      (by simp only [Binders.call, Binders.linkToDeath, hs])
  | some s =>
    cases hr : w.binders.deathRecipients recipient with
    | none =>
      exact hrefused _ Silent.nil statusBadValue_ne_ok
        (by simp only [Binders.call, Binders.linkToDeath, hs, hr])
    | some r =>
      by_cases hdead : (!s.alive) = true
      · exact hrefused statusDeadObject (Silent.refused handle _) (by decide)
          (by simp only [Binders.call, Binders.linkToDeath, hs, hr, if_pos hdead]; rfl)
      by_cases hlocal : (!s.remote) = true
      · exact hrefused statusInvalidOperation (Silent.refused handle _) (by decide)
          (by simp only [Binders.call, Binders.linkToDeath, hs, hr, if_neg hdead,
            if_pos hlocal]; rfl)
      by_cases hexists : (s.deathLinks.any fun l =>
          l.recipientHandle = recipient && l.cookie = cookie) = true
      · exact hrefused statusAlreadyExists (Silent.refused handle _) (by decide)
          (by simp only [Binders.call, Binders.linkToDeath, hs, hr, if_neg hdead,
            if_neg hlocal, if_pos hexists]; rfl)
      have hcall : w.binders.call (.linkToDeath handle recipient cookie) =
          { binders := w.binders.modify handle fun s => { s with deathLinks := s.deathLinks ++
              [⟨recipient, cookie, r.onBinderDied, r.onUnlinked⟩] }
            result := statusOk } := by
        simp only [Binders.call, Binders.linkToDeath, hs, hr, if_neg hdead, if_neg hlocal,
          if_neg hexists]
      have hmade : BinderCall.establishes w.binders (.linkToDeath handle recipient cookie) =
          [(handle, ⟨recipient, cookie, r.onBinderDied, r.onUnlinked⟩)] := by
        simp only [BinderCall.establishes, hcall, hr]
        rfl
      have hself : (w.binders.call (.linkToDeath handle recipient cookie)).binders.services handle =
          some { s with deathLinks := s.deathLinks ++
            [⟨recipient, cookie, r.onBinderDied, r.onUnlinked⟩] } := by
        rw [hcall, modify_services_self, hs]
        rfl
      refine hi.rebound hs hself (fun k hk => ?_) (by rw [hcall]; rfl) (by rw [hcall]; rfl)
        (fun _ => ⟨by simpa using hdead, by simpa using hlocal⟩) ?_ (fun h l _ => ?_)
        (fun h l => ?_)
      · rw [hcall, modify_services_of_ne _ hk]
      · intro l hl
        rcases List.mem_append.mp hl with hold | hnew
        · exact hi.links handle l (by rw [linksOf_of_some hs]; exact hold)
        · rw [List.mem_singleton.mp hnew]
          exact hi.recipients recipient r hr
      · rw [hmade, hcall, List.count_append, count_link]
        by_cases hh : h = handle
        · simp only [if_pos hh, List.count_nil]
          omega
        · simp only [if_neg hh, List.count_nil]
      · rw [hcall]
        simp

theorem LinkWorld.Inv.unlinkToDeath (hi : w.Inv) (handle recipient cookie : ℕ) :
    (w.step (.unlinkToDeath handle recipient cookie)).Inv := by
  have hnothing : ∀ result, w.binders.call (.unlinkToDeath handle recipient cookie) =
        { binders := w.binders, result := result } →
      (w.step (.unlinkToDeath handle recipient cookie)).Inv :=
    fun result hcall => hi.refused hcall Silent.nil rfl
  cases hs : w.binders.services handle with
  | none => exact hnothing statusBadValue (by simp only [Binders.call, Binders.unlinkToDeath, hs])
  | some s =>
    cases hr : w.binders.deathRecipients recipient with
    | none =>
      exact hnothing statusBadValue (by simp only [Binders.call, Binders.unlinkToDeath, hs, hr])
    | some r =>
      cases hfind : s.deathLinks.find? fun l =>
          l.recipientHandle = recipient && l.cookie = cookie with
      | none =>
        exact hnothing statusNameNotFound
          (by simp only [Binders.call, Binders.unlinkToDeath, hs, hr, hfind])
      | some link =>
        have hmem : link ∈ s.deathLinks := List.mem_of_find?_eq_some hfind
        have hlinked : w.binders.linksOf handle ≠ [] := by
          rw [linksOf_of_some hs]
          exact List.ne_nil_of_mem hmem
        have hcall : w.binders.call (.unlinkToDeath handle recipient cookie) =
            { binders := w.binders.modify handle fun s =>
                { s with deathLinks := s.deathLinks.erase link }
              result := statusOk
              callbacks := notifyDeathUnlinked handle link } := by
          simp only [Binders.call, Binders.unlinkToDeath, hs, hr, hfind]
        have hself : (w.binders.call (.unlinkToDeath handle recipient cookie)).binders.services
            handle = some { s with deathLinks := s.deathLinks.erase link } := by
          rw [hcall, modify_services_self, hs]
          rfl
        refine hi.rebound hs hself (fun k hk => ?_) (by rw [hcall]; rfl) (by rw [hcall]; rfl)
          (fun _ => ⟨?_, ?_⟩) ?_ (fun h l hl => ?_) (fun h l => ?_)
        · rw [hcall, modify_services_of_ne _ hk]
        · rw [← isAlive_of_some hs]
          exact hi.protocol.live handle hlinked
        · by_contra hlocal
          rw [linksOf_of_some hs] at hlinked
          exact hlinked (hi.localUnlinked handle s hs (by simpa using hlocal))
        · intro l hl
          exact hi.links handle l (by rw [linksOf_of_some hs]; exact List.mem_of_mem_erase hl)
        · have hnotify : (notifyDeathUnlinked handle link).count (.unlinked h l) =
              if h = handle then [link].count l else 0 := by
            rw [← count_unlinked [link] hl, List.flatMap_singleton]
          rw [hcall, hnotify]
          by_cases hh : h = handle
          · have herase : (s.deathLinks.erase link).count l =
                s.deathLinks.count l - if (link == l) = true then 1 else 0 := List.count_erase
            simp only [if_pos hh, BinderCall.establishes, List.count_nil, List.count_singleton]
            by_cases heq : link = l
            · subst heq
              have hpos := List.count_pos_iff.mpr hmem
              simp only [BEq.rfl, if_true] at herase ⊢
              omega
            · have hbeq : ¬(link == l) = true := by simpa using heq
              rw [if_neg hbeq] at herase ⊢
              omega
          · simp only [if_neg hh, BinderCall.establishes, List.count_nil]
        · have hnone : Callback.died h l ∉ notifyDeathUnlinked handle link := by
            rw [notifyDeathUnlinked]
            split <;> simp
          rw [hcall, List.count_eq_zero.mpr hnone]
          simp

theorem LinkWorld.Inv.muplarBinderKill (hi : w.Inv) (handle : ℕ) :
    (w.step (.muplarBinderKill handle)).Inv := by
  have hnothing : ∀ result, w.binders.call (.muplarBinderKill handle) =
      { binders := w.binders, result := result } → (w.step (.muplarBinderKill handle)).Inv :=
    fun result hcall => hi.refused hcall Silent.nil rfl
  cases hs : w.binders.services handle with
  | none =>
    exact hnothing statusBadValue (by simp only [Binders.call, Binders.muplarBinderKill, hs])
  | some s =>
    by_cases hdead : (!s.alive) = true
    · exact hnothing statusDeadObject (by
        simp only [Binders.call, Binders.muplarBinderKill, hs, Binders.retireService,
          if_pos hdead])
    have hcall : w.binders.call (.muplarBinderKill handle) =
        { binders := (w.binders.cleanupServiceNames handle false).modify handle fun s =>
            { s with alive := false, deathLinks := [] }
          result := statusOk
          callbacks := deathCallbacks handle s.deathLinks } := by
      simp only [Binders.call, Binders.muplarBinderKill, hs, Binders.retireService,
        if_neg hdead, deathCallbacks]
    have halive : s.alive = true := by simpa using hdead
    have hself : (w.binders.call (.muplarBinderKill handle)).binders.services handle =
        some { s with alive := false, deathLinks := [] } := by
      rw [hcall, modify_services_self]
      show (w.binders.services handle).map _ = _
      rw [hs]
      rfl
    refine hi.rebound hs hself (fun k hk => ?_) (by rw [hcall]; rfl) (by rw [hcall]; rfl)
      (fun hne => absurd rfl hne) (by simp) (fun h l hl => ?_) (fun h l => ?_)
    · rw [hcall, modify_services_of_ne _ hk]
      rfl
    · rw [hcall, count_death_unlinked s.deathLinks hl]
      simp [BinderCall.establishes]
    · have hfns : ∀ x ∈ s.deathLinks, x.onBinderDied ≠ 0 := by
        intro x hx
        exact hi.links handle x (by rw [linksOf_of_some hs]; exact hx)
      rw [hcall, count_death_died s.deathLinks hfns]
      simp [halive]

/-- Every link of the recipient goes, wherever it is. -/
theorem LinkWorld.Inv.deathRecipientDelete (hi : w.Inv) (recipient : ℕ) :
    (w.step (.deathRecipientDelete recipient)).Inv := by
  by_cases hno : (w.binders.deathRecipients recipient).isNone = true
  · have hcall : w.binders.call (.deathRecipientDelete recipient) = { binders := w.binders } := by
      simp only [Binders.call, Binders.deathRecipientDelete, if_pos hno]
    exact hi.refused hcall Silent.nil rfl
  have hcall : w.binders.call (.deathRecipientDelete recipient) =
      { binders := { w.binders with
          services := fun h => (w.binders.services h).map fun s =>
            { s with deathLinks := s.deathLinks.filter (·.recipientHandle ≠ recipient) }
          deathRecipients := Function.update w.binders.deathRecipients recipient none }
        callbacks := w.binders.handles.flatMap fun h =>
          ((w.binders.linksOf h).filter (·.recipientHandle = recipient)).flatMap
            (notifyDeathUnlinked h) } := by
    simp only [Binders.call, Binders.deathRecipientDelete, if_neg hno]
  have hcallbacks : (w.binders.call (.deathRecipientDelete recipient)).callbacks =
      w.binders.handles.flatMap fun h =>
        ((w.binders.linksOf h).filter (·.recipientHandle = recipient)).flatMap
          (notifyDeathUnlinked h) := by
    rw [hcall]
  have hrecipients : (w.binders.call (.deathRecipientDelete recipient)).binders.deathRecipients =
      Function.update w.binders.deathRecipients recipient none := by
    rw [hcall]
  have hservices : ∀ h,
      (w.binders.call (.deathRecipientDelete recipient)).binders.services h =
        (w.binders.services h).map fun s =>
          { s with deathLinks := s.deathLinks.filter (·.recipientHandle ≠ recipient) } := by
    intro h
    rw [hcall]
  have hlinks : ∀ h, (w.binders.call (.deathRecipientDelete recipient)).binders.linksOf h =
      (w.binders.linksOf h).filter (·.recipientHandle ≠ recipient) := by
    intro h
    rw [Binders.linksOf, Binders.linksOf, hservices]
    cases w.binders.services h <;> rfl
  have halive : ∀ h, (w.binders.call (.deathRecipientDelete recipient)).binders.isAlive h =
      w.binders.isAlive h := by
    intro h
    rw [Binders.isAlive, Binders.isAlive, hservices]
    cases w.binders.services h <;> rfl
  refine ⟨hi.protocol_step (fun h l hl => ?_) (fun h l => ?_) (fun h hh => ?_), ?_, ?_,
    fun h l hl => ?_, fun r x hx => ?_⟩
  · -- each binder's own links are told, and the rest of them stay
    have hcount : (w.binders.call (.deathRecipientDelete recipient)).callbacks.count
        (.unlinked h l) =
          ((w.binders.linksOf h).filter (·.recipientHandle = recipient)).count l := by
      rw [hcallbacks, count_handles hi.ranged (fun k hk => ?_) (fun hs => ?_), count_unlinked _ hl,
        if_pos rfl]
      · rw [count_unlinked _ hl, if_neg (Ne.symm hk)]
      · rw [linksOf_of_none hs]
        rfl
    have hparted := count_parted (l := l) (w.binders.linksOf h) recipient
    have hnone : BinderCall.establishes w.binders (.deathRecipientDelete recipient) = [] := rfl
    rw [hcount, hlinks, hnone, List.count_nil]
    omega
  · have hnone : Callback.died h l ∉
        (w.binders.call (.deathRecipientDelete recipient)).callbacks := by
      rw [hcallbacks, List.mem_flatMap]
      rintro ⟨k, -, hk⟩
      exact died_not_mem_unlinked _ hk
    rw [List.count_eq_zero.mpr hnone, halive]
    simp
  · rw [halive]
    refine hi.protocol.live h fun hnil => hh ?_
    rw [hlinks, hnil]
    rfl
  · refine ⟨?_, fun h s' hs' => ?_⟩
    · show firstBinderHandle ≤
        (w.binders.call (.deathRecipientDelete recipient)).binders.nextBinderHandle
      rw [hcall]
      exact hi.ranged.low
    · have hs'' : (w.binders.call (.deathRecipientDelete recipient)).binders.services h =
          some s' := hs'
      rw [hservices, Option.map_eq_some_iff] at hs''
      obtain ⟨s, hs, -⟩ := hs''
      show _ ∧ h < (w.binders.call (.deathRecipientDelete recipient)).binders.nextBinderHandle
      rw [hcall]
      exact hi.ranged.range h s hs
  · intro h s' hs' hlocal
    have hs'' : (w.binders.call (.deathRecipientDelete recipient)).binders.services h =
        some s' := hs'
    rw [hservices, Option.map_eq_some_iff] at hs''
    obtain ⟨s, hs, rfl⟩ := hs''
    show s.deathLinks.filter _ = []
    rw [hi.localUnlinked h s hs hlocal]
    rfl
  · have hl' : l ∈ (w.binders.call (.deathRecipientDelete recipient)).binders.linksOf h := hl
    rw [hlinks] at hl'
    exact hi.links h l (List.mem_filter.mp hl').1
  · have hx' : (w.binders.call (.deathRecipientDelete recipient)).binders.deathRecipients r =
        some x := hx
    rw [hrecipients] at hx'
    by_cases hr : r = recipient
    · rw [hr, Function.update_self] at hx'
      cases hx'
    · rw [Function.update_of_ne hr] at hx'
      exact hi.recipients r x hx'

theorem LinkWorld.Inv.deathRecipientNew (hi : w.Inv) (onBinderDied : ℕ) :
    (w.step (.deathRecipientNew onBinderDied)).Inv := by
  refine hi.recipientsOnly ?_ ?_ ?_ rfl fun r x hx => ?_
  · simp only [Binders.call, Binders.deathRecipientNew]
    split <;> rfl
  · simp only [Binders.call, Binders.deathRecipientNew]
    split <;> rfl
  · simp only [Binders.call, Binders.deathRecipientNew]
    split <;> rfl
  · simp only [Binders.call, Binders.deathRecipientNew] at hx
    split at hx
    · exact hi.recipients r x hx
    · next hfn =>
      dsimp only at hx
      by_cases hr : r = w.binders.nextBinderDeathHandle
      · rw [hr, Function.update_self] at hx
        cases hx
        exact hfn
      · rw [Function.update_of_ne hr] at hx
        exact hi.recipients r x hx

theorem LinkWorld.Inv.deathRecipientSetOnUnlinked (hi : w.Inv) (recipient onUnlinked : ℕ) :
    (w.step (.deathRecipientSetOnUnlinked recipient onUnlinked)).Inv := by
  refine hi.recipientsOnly rfl rfl rfl rfl fun r x hx => ?_
  simp only [Binders.call, Binders.deathRecipientSetOnUnlinked] at hx
  by_cases hr : r = recipient
  · rw [hr, Function.update_self, Option.map_eq_some_iff] at hx
    obtain ⟨old, hold, rfl⟩ := hx
    exact hi.recipients recipient old hold
  · rw [Function.update_of_ne hr] at hx
    exact hi.recipients r x hx

theorem LinkWorld.Inv.transact (hi : w.Inv) {t : Transaction} {daemon : Option Bytes}
    (hok : BinderCall.Delivers w (.transact t daemon)) : (w.step (.transact t daemon)).Inv := by
  obtain ⟨hnone, hspec⟩ := transact_spec w.binders t daemon
  have hsilent : Silent (w.binders.call (.transact t daemon)).callbacks := by
    show Silent (w.binders.transact t daemon).callbacks
    rw [hnone]
    exact Silent.nil
  rcases hspec with ⟨-, hsame⟩ | ⟨hfails, hsame⟩
  · exact hi.calm (Calm.of_same hsame) hsilent rfl
  · have hbefore := hok hfails
    refine hi.calm (Calm.trans ?_ (Calm.of_same hsame)) hsilent rfl
    exact Calm.modify_unlinked hbefore fun _ => rfl

/-- **One call keeps the invariant**, but for a failed transaction with a
binder that has links. -/
theorem LinkWorld.Inv.step (hi : w.Inv) (hok : c.Delivers w) : (w.step c).Inv := by
  by_cases hbinds : c.binds = true
  · cases c with
    | deathRecipientNew onBinderDied => exact hi.deathRecipientNew onBinderDied
    | deathRecipientSetOnUnlinked recipient onUnlinked =>
      exact hi.deathRecipientSetOnUnlinked recipient onUnlinked
    | deathRecipientDelete recipient => exact hi.deathRecipientDelete recipient
    | linkToDeath handle recipient cookie => exact hi.linkToDeath handle recipient cookie
    | unlinkToDeath handle recipient cookie => exact hi.unlinkToDeath handle recipient cookie
    | muplarBinderKill handle => exact hi.muplarBinderKill handle
    | transact t daemon => exact hi.transact hok
    | _ => cases hbinds
  · obtain ⟨hcalm, hsilent⟩ := calm_call hi.ranged hi.localUnlinked (by simpa using hbinds)
    refine hi.calm hcalm hsilent ?_
    cases c with
    | linkToDeath handle recipient cookie => exact absurd rfl hbinds
    | _ => rfl

/-- The failed transaction leaves a dead binder with links. -/
theorem LinkWorld.Inv.broken (hno : ¬c.Delivers w) : ¬(w.step c).Protocol := by
  cases c with
  | transact t daemon =>
    have hfails : t.Fails w.binders daemon ∧ w.binders.linksOf t.binder ≠ [] := by
      rw [BinderCall.Delivers, Classical.not_imp] at hno
      exact hno
    obtain ⟨hfails, hlinks⟩ := hfails
    obtain ⟨-, -, s, hs, -⟩ := id hfails
    obtain ⟨-, ⟨hnot, -⟩ | ⟨-, hsame⟩⟩ := transact_spec w.binders t daemon
    · exact absurd hfails hnot
    · have hs' : (w.step (.transact t daemon)).binders.services t.binder =
          some { s with alive := false } := by
        show (w.binders.transact t daemon).binders.services t.binder = _
        rw [hsame.services, modify_services_self, hs]
        rfl
      intro hp
      have hdead := hp.live t.binder (by
        rw [linksOf_of_some hs']
        rw [linksOf_of_some hs] at hlinks
        exact hlinks)
      rw [isAlive_of_some hs'] at hdead
      cases hdead
  | _ => exact absurd trivial hno

end Step

theorem LinkWorld.start_inv : LinkWorld.start.Inv := by
  refine ⟨⟨fun h l _ => rfl, fun h l => rfl, fun h hh => absurd rfl hh⟩,
    ⟨Nat.le_refl _, fun h s hs => ?_⟩, fun h s hs => ?_, fun h l hl => ?_, fun r x hx => ?_⟩
  · cases hs
  · cases hs
  · cases hl
  · cases hx

/-! ## Exactly once -/

/-- **Each link is ended once, and each death is told once.** In every
state of a run the links and the callbacks agree exactly where no
transaction fails on a binder that has links. -/
theorem death_protocol_kept (calls : List BinderCall) :
    Machine.Throughout LinkWorld.step LinkWorld.Protocol LinkWorld.start calls ↔
      Machine.Meets LinkWorld.step (fun w c => c.Delivers w) LinkWorld.start calls :=
  Machine.throughout_iff_meets_of_breaks (K := LinkWorld.Inv) (fun _ _ hi hok => hi.step hok)
    (fun _ hi => hi.protocol) (fun _ _ _ hno => LinkWorld.Inv.broken hno) LinkWorld.start_inv

/-- A service of the daemon is looked up and a recipient linked to it;
then the daemon is gone. The binder is dead, and the recipient is not
told. -/
theorem lost_service_not_told :
    ¬∀ calls, Machine.Throughout LinkWorld.step LinkWorld.Protocol LinkWorld.start calls := by
  intro hall
  have hlast := (hall [.serviceLookup [115, 118, 99] true, .deathRecipientNew 0x4000,
    .linkToDeath 0xB1D00001 0xB1D30001 7,
    .transact ⟨0xB1D00001, 1, 0, true, false⟩ none]).last
  have hdied := hlast.died 0xB1D00001 ⟨0xB1D30001, 7, 0x4000, 0⟩
  revert hdied
  decide +kernel

end Android

end Muplar
