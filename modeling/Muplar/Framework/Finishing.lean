import Muplar.Framework.Foreground
/-!
# The framework — an activity that finishes

`finishAndRemoveActivity` asks whether the tab was active where it leaves
the task empty, and does not ask where it leaves activities behind: the
next one is focused, and its task comes to the front although the user is
elsewhere. In every reachable state, whoever is in front, finishing an
activity disturbs nothing else exactly where no activity is left in its
task that could be shown (`focus_kept_iff`).
-/

namespace Muplar

namespace Framework

namespace Backstack

open Machine LinkedMap Recent

variable {n : Prop} {c c' : Backstack} {r s t : ℕ} {tab : JavaString}

/-! ## What finishing may change -/

/-- **Nothing else is disturbed** by an activity of the task that finishes:
neither the active tab nor another record's foreground nor the order of
the other tasks. -/
structure Undisturbed (c c' : Backstack) (t r : ℕ) : Prop where
  activeTab : c'.activeTab = c.activeTab
  foreground : ∀ x, x ≠ r → (c'.records x).foreground = (c.records x).foreground
  order : c'.taskStack.erase t = c.taskStack.erase t

/-- **The record takes over** from one that finishes: it is in the
foreground with its tab, and nobody else has come there. -/
structure TakesOver (c c' : Backstack) (r s : ℕ) : Prop where
  foreground : (c'.records s).foreground = true
  activeTab : c'.activeTab = (c.records s).tab
  alone : ∀ x, x ≠ s → (c'.records x).foreground = true →
    x ≠ r ∧ (c.records x).foreground = true

/-- The top activity of a task without the record. -/
def restOf (c : Backstack) (t r : ℕ) : Option ℕ :=
  ((c.taskRecords t).activityStack.erase r).getLast?

/-- Who comes after the record: the next one of its task, or the top one of
the task that was focused last among the others. -/
def nextOf (c : Backstack) (t r : ℕ) : Option ℕ :=
  (c.restOf t r).or ((c.taskStack.erase t).getLast?.bind c.topOf)

/-- **Finishing the record keeps the focus** where it belongs. -/
structure FocusKept (c : Backstack) (t r : ℕ) : Prop where
  background : (c.taskRecords t).tab ≠ c.activeTab →
    Undisturbed c (c.finishAndRemoveActivity r) t r
  active : (c.taskRecords t).tab = c.activeTab → c.topOf t = some r →
    ∀ s ∈ c.nextOf t r, TakesOver c (c.finishAndRemoveActivity r) r s

/-- **Where it does**: an activity that is left behind in the background
cannot be shown, and one that comes next can. -/
structure Harmless (c : Backstack) (t r : ℕ) : Prop where
  background : (c.taskRecords t).tab ≠ c.activeTab →
    ∀ s ∈ c.restOf t r, (c.records s).activity = false
  active : (c.taskRecords t).tab = c.activeTab → c.topOf t = some r →
    ∀ s ∈ c.nextOf t r, (c.records s).activity = true

/-! ## The two branches -/

/-- The task has lost the record. -/
def without (c : Backstack) (t r : ℕ) : Backstack :=
  ((c.finishRecord r).forgetTokens [r]).removeActivity t r

/-- The tab to go on with is that of the task focused last. -/
theorem Kept.poppedTab (h : Kept n c) (hlast : c.taskStack.getLast? = some t) :
    c.poppedTab = (c.taskRecords t).tab := by
  rw [Backstack.poppedTab, h.activityStack, List.getLast?_map, hlast, Option.map_some,
    Option.getD_some]
  split_ifs
  · rw [previousTab, hlast, Option.some_or]
  · rfl

/-- Moving on to it focuses its top activity. -/
theorem Kept.moveOn (h : Kept n c) (hlast : c.taskStack.getLast? = some t)
    (htop : c.topOf t = some s) :
    { c with activeTab := c.poppedTab }.focusRecord
        ({ c with activeTab := c.poppedTab }.activityForTab c.poppedTab) =
      { c with activeTab := (c.taskRecords t).tab }.focusRecord (some s) := by
  have hfor : { c with activeTab := c.poppedTab }.activityForTab c.poppedTab = some s := by
    rw [(h.activeTab c.poppedTab).activityForTab, h.poppedTab hlast]
    exact (h.topOfTab_self (List.mem_of_getLast? hlast)).trans htop
  rw [hfor, h.poppedTab hlast]

section

variable (h : Kept n c) (ht : t ∈ c.taskStack) (hr : r ∈ (c.taskRecords t).activityStack)
include h ht hr

theorem topOf_without : (c.without t r).topOf t = c.restOf t r := by
  have hstack : (c.taskRecords t).activityStack.erase r =
      (c.taskRecords t).activityStack.filter fun x => x ∉ [r] := by
    rw [(h.unrepeated t ht).erase_eq_filter]
    exact List.filter_congr fun x _ => by by_cases hx : x = r <;> simp [hx]
  rw [topOf, without, (h.takenOff_removed ht hr).stack, TaskRecord.topActivity, restOf, hstack]

/-- An activity is left. -/
theorem finish_of_rest (hs : c.restOf t r = some s) :
    c.finishAndRemoveActivity r = ((c.without t r).putTop t s).focusRecord (some s) := by
  have htop := topOf_without h ht hr
  rw [hs, without] at htop
  rw [finishAndRemoveActivity, h.task t ht r hr]
  dsimp only
  rw [htop]
  rfl

/-- None is left. -/
theorem finish_of_empty (hs : c.restOf t r = none) :
    c.finishAndRemoveActivity r = (c.without t r).leaveTab (some t) (c.taskRecords t).tab := by
  have htop := topOf_without h ht hr
  rw [hs, without] at htop
  rw [finishAndRemoveActivity, h.task t ht r hr]
  dsimp only
  rw [htop, h.tab t ht r hr]
  rfl

omit hr in
theorem mem_of_restOf (hs : c.restOf t r = some s) :
    s ∈ (c.taskRecords t).activityStack ∧ s ≠ r := by
  have hmem := List.mem_of_getLast? hs
  exact ⟨List.mem_of_mem_erase hmem, ((h.unrepeated t ht).mem_erase_iff.mp hmem).1⟩

/-! ### An activity is left -/

/-- It cannot be shown. -/
theorem finish_of_hidden (hs : c.restOf t r = some s) (hact : (c.records s).activity = false) :
    c.finishAndRemoveActivity r = (c.without t r).putTop t s := by
  have ho := h.takenOff_removed ht hr
  have hsr := (mem_of_restOf h ht hs).2
  rw [finish_of_rest h ht hr hs, focusRecord, if_pos]
  show ((c.without t r).records s).activity = false
  rw [without, ho.record s (by simpa using hsr), hact]

/-- It is shown. -/
theorem finish_of_shown (hs : c.restOf t r = some s) (hact : (c.records s).activity = true) :
    (c.finishAndRemoveActivity r).activeTab = (c.taskRecords t).tab ∧
      TakesOver c (c.finishAndRemoveActivity r) r s := by
  have ho := h.takenOff_removed ht hr
  obtain ⟨hmem, hsr⟩ := mem_of_restOf h ht hs
  have hput := ho.kept_putTop h ht ((topOf_without h ht hr).trans hs)
  have hmem' := mem_of_topOf ((topOf_without h ht hr).trans hs)
  have hact' : ((c.without t r).records s).activity = true := by
    rw [without, ho.record s (by simpa using hsr), hact]
  obtain ⟨b, heq, hbs, hb⟩ := hput.focusRecord_eq (ho.taskStack ▸ ht) hmem' hact'
  have htab := ho.taken_tab t
  rw [finish_of_rest h ht hr hs, without, heq]
  refine ⟨htab, hbs, htab.trans (h.tab t ht s hmem).symm, fun x hx hfx => ?_⟩
  have hold : ((c.without t r).records x).foreground = true := hb x hx hfx
  have hxr : x ≠ r := fun he => by
    subst he
    rw [without, ho.foreground x (by simp)] at hold
    cases hold
  rw [without, ho.record x (by simpa using hxr)] at hold
  exact ⟨hxr, hold⟩

/-! ### None is left -/

/-- In the background, that is all. -/
theorem undisturbed_of_empty (hs : c.restOf t r = none)
    (htab : (c.taskRecords t).tab ≠ c.activeTab) :
    Undisturbed c (c.finishAndRemoveActivity r) t r := by
  have ho := h.takenOff_removed ht hr
  have hactive : (c.taskRecords t).tab ≠ (c.without t r).activeTab := by
    rw [without, ho.activeTab]
    exact htab
  rw [finish_of_empty h ht hr hs, leaveTab, if_neg hactive]
  refine ⟨ho.activeTab, fun x hx => ?_, ?_⟩
  · show ((c.without t r).records x).foreground = _
    rw [without, ho.record x (by simpa using hx)]
  · show ((c.without t r).taskStack.erase t).erase t = _
    rw [without, ho.taskStack]
    exact List.erase_of_not_mem fun hmem => (h.nodup.mem_erase_iff.mp hmem).1 rfl

/-- In the foreground, the task focused last among the others takes over,
where it can be shown. -/
theorem takesOver_of_empty (hs : c.restOf t r = none) (htab : (c.taskRecords t).tab = c.activeTab)
    (hnext : c.nextOf t r = some s) :
    TakesOver c (c.finishAndRemoveActivity r) r s ↔ (c.records s).activity = true := by
  have ho := h.takenOff_removed ht hr
  have hempty : ((c.without t r).taskRecords t).activityStack = [] :=
    List.getLast?_eq_none_iff.mp ((topOf_without h ht hr).trans hs)
  rw [nextOf, hs, Option.none_or] at hnext
  obtain ⟨t', hlast, htop⟩ := Option.bind_eq_some_iff.mp hnext
  obtain ⟨hne, hmem⟩ := h.nodup.mem_erase_iff.mp (List.mem_of_getLast? hlast)
  -- the other task is as it was, and the last one there is
  set d := ((c.without t r).dropTask t).dropTab (c.taskRecords t).tab with hd
  have hdstack : d.taskStack = c.taskStack.erase t := by
    show (c.without t r).taskStack.erase t = _
    rw [without, ho.taskStack]
  have hdtask : d.taskRecords t' = c.taskRecords t' := ho.other t' hne
  have hsr : s ≠ r := fun he => by
    subst he
    exact hne (h.owner hmem (mem_of_topOf htop) ht hr)
  have hdrecord : ∀ x, x ≠ r → d.records x = c.records x := fun x hx =>
    ho.record x (by simpa using hx)
  have hdrop : Kept n d := ho.kept_drop h ht hempty
  have hdtopOf : d.topOf t' = some s := (congrArg TaskRecord.topActivity hdtask).trans htop
  have hdmem : t' ∈ d.taskStack := List.mem_of_getLast? (hdstack ▸ hlast)
  have hdtop : s ∈ (d.taskRecords t').activityStack := hdtask ▸ mem_of_topOf htop
  have hfin : c.finishAndRemoveActivity r =
      { d with activeTab := (c.taskRecords t').tab }.focusRecord (some s) := by
    have hactive : (c.taskRecords t).tab = (c.without t r).activeTab := by
      rw [without, ho.activeTab]
      exact htab
    rw [finish_of_empty h ht hr hs, leaveTab, if_pos hactive]
    exact (hdrop.moveOn (hdstack ▸ hlast) hdtopOf).trans (by rw [hdtask])
  rw [hfin]
  by_cases hact : (c.records s).activity = true
  · refine iff_of_true ?_ hact
    obtain ⟨b, heq, hbs, hb⟩ := (hdrop.activeTab (c.taskRecords t').tab).focusRecord_eq
      hdmem hdtop (by rw [hdrecord s hsr]; exact hact)
    rw [heq]
    refine ⟨hbs, ?_, fun x hx hfx => ?_⟩
    · exact (congrArg TaskRecord.tab hdtask).trans (h.tab t' hmem s (mem_of_topOf htop)).symm
    · have hold : (d.records x).foreground = true := hb x hx hfx
      have hxr : x ≠ r := fun he => by
        subst he
        exact Bool.noConfusion (hold.symm.trans (ho.foreground x (by simp)))
      exact ⟨hxr, hdrecord x hxr ▸ hold⟩
  · refine iff_of_false (fun htakes => hact ?_) hact
    have hfront := htakes.foreground
    rw [focusRecord, if_pos] at hfront
    · exact h.foreground s (hdrecord s hsr ▸ hfront)
    · show (d.records s).activity = false
      rw [hdrecord s hsr]
      simpa using hact

/-- **In the background**: nothing else is disturbed exactly where the
activity that is left, if any, cannot be shown. -/
theorem undisturbed_iff (htab : (c.taskRecords t).tab ≠ c.activeTab) :
    Undisturbed c (c.finishAndRemoveActivity r) t r ↔
      ∀ s ∈ c.restOf t r, (c.records s).activity = false := by
  constructor
  · intro hun s hs
    by_contra hact
    have hact : (c.records s).activity = true := by simpa using hact
    exact htab ((finish_of_shown h ht hr hs hact).1.symm.trans hun.activeTab)
  · intro hhidden
    cases hs : c.restOf t r with
    | none => exact undisturbed_of_empty h ht hr hs htab
    | some s =>
      have ho := h.takenOff_removed ht hr
      rw [finish_of_hidden h ht hr hs (hhidden s hs)]
      refine ⟨ho.activeTab, fun x hx => ?_, ?_⟩
      · show ((c.without t r).records x).foreground = _
        rw [without, ho.record x (by simpa using hx)]
      · show (c.without t r).taskStack.erase t = _
        rw [without, ho.taskStack]

/-- **On top of the active task**: who comes next takes over exactly where
it can be shown. -/
theorem takesOver_iff (htab : (c.taskRecords t).tab = c.activeTab) (hnext : c.nextOf t r = some s) :
    TakesOver c (c.finishAndRemoveActivity r) r s ↔ (c.records s).activity = true := by
  cases hs : c.restOf t r with
  | none => exact takesOver_of_empty h ht hr hs htab hnext
  | some s' =>
    have hss : s' = s := by
      rw [nextOf, hs, Option.some_or] at hnext
      exact Option.some.inj hnext
    subst hss
    refine ⟨fun htakes => ?_, fun hact => (finish_of_shown h ht hr hs hact).2⟩
    by_contra hact
    have hact : (c.records s').activity = false := by simpa using hact
    have hfront := htakes.foreground
    rw [finish_of_hidden h ht hr hs hact] at hfront
    have hold : ((c.without t r).records s').foreground = true := hfront
    have hsr := (mem_of_restOf h ht hs).2
    rw [without, (h.takenOff_removed ht hr).record s' (by simpa using hsr)] at hold
    rw [h.foreground s' hold] at hact
    cases hact

theorem Kept.focusKept_iff : FocusKept c t r ↔ Harmless c t r := by
  constructor
  · intro hk
    exact ⟨fun htab => (undisturbed_iff h ht hr htab).mp (hk.background htab),
      fun htab htop s hs => (takesOver_iff h ht hr htab hs).mp (hk.active htab htop s hs)⟩
  · intro hk
    exact ⟨fun htab => (undisturbed_iff h ht hr htab).mpr (hk.background htab),
      fun htab htop s hs => (takesOver_iff h ht hr htab hs).mpr (hk.active htab htop s hs)⟩

end

/-! ## Every reachable state -/

variable {toLowerCase : JavaString → JavaString}

/-- The tables but for the numbers of tasks, in any state that is reached. -/
theorem kept_reached {es : List Event}
    (hd : Meets (Backstack.next toLowerCase) (Distinct toLowerCase) {} es) :
    Kept False (run (Backstack.next toLowerCase) {} es) :=
  (throughout_of_invariant (K := Kept False) (fun _ _ h he => h.next he nofun) kept_initial
    hd).last

/-- **Finishing keeps the focus** exactly where it is harmless, in every
reachable state and for every record of a task. -/
theorem focus_kept_iff (toLowerCase : JavaString → JavaString) (es : List Event)
    (hd : Meets (Backstack.next toLowerCase) (Distinct toLowerCase) {} es)
    (ht : t ∈ (run (Backstack.next toLowerCase) {} es).taskStack)
    (hr : r ∈ ((run (Backstack.next toLowerCase) {} es).taskRecords t).activityStack) :
    FocusKept (run (Backstack.next toLowerCase) {} es) t r ↔
      Harmless (run (Backstack.next toLowerCase) {} es) t r :=
  (kept_reached hd).focusKept_iff ht hr

theorem focus_kept_mailThenBrowser :
    FocusKept (run (Backstack.next asciiLower) {} mailThenBrowser) 0 0 := by
  refine (focus_kept_iff asciiLower mailThenBrowser (by decide +kernel) (by decide +kernel)
    (by decide +kernel)).mpr ⟨fun _ s hs => ?_, fun htab => absurd htab (by decide +kernel)⟩
  have hnone : (run (Backstack.next asciiLower) {} mailThenBrowser).restOf 0 0 = none := by
    decide +kernel
  rw [hnone] at hs
  cases hs

/-- The mail has shown a letter before the browser is launched. -/
def letterThenBrowser : List Event :=
  mailThenBrowser.take 1 ++
    .start none (some (java "mail.apk")) (some (java "mail")) (some (java "mail.Letter"))
      (some ⟨some 3⟩) :: mailThenBrowser.drop 1

/-- **The focus is stolen.** The letter finishes in the background, and the
inbox comes to the front of the browser. -/
theorem focus_stolen : ¬∀ es : List Event,
    Meets (Backstack.next asciiLower) (Distinct asciiLower) {} es →
    ∀ t ∈ (run (Backstack.next asciiLower) {} es).taskStack,
      ∀ r ∈ ((run (Backstack.next asciiLower) {} es).taskRecords t).activityStack,
        FocusKept (run (Backstack.next asciiLower) {} es) t r := by
  intro hall
  have hkept := hall letterThenBrowser (by decide +kernel) 0 (by decide +kernel) 1
    (by decide +kernel)
  have hactive := (hkept.background (by decide +kernel)).activeTab
  revert hactive
  decide +kernel

end Backstack

end Framework

end Muplar
