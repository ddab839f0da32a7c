import Muplar.Framework.Finishing
/-!
# The framework — activities that throw

The methods of an activity are called in the middle of the operations, and
what they throw is caught far outside, so an operation may stop wherever it
calls one. The operations are given here once more as attempts, which say
how far they came.

`finishRecord` marks the record first and then calls its methods. Where
one of these throws, the record stays where it is and is skipped by every
later request: it is a zombie. Where none does, whatever else may throw, a
record that is to finish is gone afterwards (`no_zombies`).
-/

namespace Muplar

namespace Framework

namespace Backstack

open Machine LinkedMap Recent

/-! ## Attempts -/

/-- The methods of an activity that are called. -/
inductive Callback
  | finish
  | onUserLeaveHint
  | onPause
  | onStop
  | onDestroy
  | onRestart
  | onStart
  | onResume
  deriving DecidableEq

/-- Which methods of which records throw. -/
abbrev Throws := ℕ → Callback → Bool

/-- How far an operation came, and whether it threw there. -/
structure Attempt where
  state : Backstack
  threw : Bool := false

/-- Go on where nothing was thrown. -/
def Attempt.andThen (a : Attempt) (f : Backstack → Attempt) : Attempt :=
  if a.threw then a else f a.state

/-- The methods that take a record out of the foreground. -/
def pauses (throws : Throws) (r : ℕ) : Bool :=
  throws r .onUserLeaveHint || throws r .onPause || throws r .onStop

/-- One of the methods that `finishRecord` calls throws. -/
def finishThrows (throws : Throws) (c : Backstack) (r : ℕ) : Bool :=
  throws r .finish ||
    ((c.records r).foreground && (throws r .onPause || throws r .onStop)) || throws r .onDestroy

variable (throws : Throws)

/-- `moveActiveActivityToBackground`. -/
def tryMoveActive (c : Backstack) : Attempt :=
  match c.activeRecord with
  | none => ⟨c, false⟩
  | some r =>
    if (c.records r).activity = false ∨ (c.records r).foreground = false then ⟨c, false⟩
    else if pauses throws r then ⟨c, true⟩
    else ⟨c.background r, false⟩

/-- `focusRecord` as far as the record before. -/
def tryLeavePrevious (c : Backstack) (r : ℕ) : Attempt :=
  match c.activeRecord with
  | none => ⟨c, false⟩
  | some previous => if previous = r then ⟨c, false⟩ else c.tryMoveActive throws

/-- The rest of `focusRecord`. -/
def tryResume (c : Backstack) (r : ℕ) : Attempt :=
  let resumed := { c with activeTab := (c.records r).tab }
  if (c.records r).foreground = true then ⟨resumed, false⟩
  else if throws r .onRestart || throws r .onStart || throws r .onResume then ⟨resumed, true⟩
  else ⟨resumed.setRecord r fun record => { record with foreground := true }, false⟩

/-- `focusRecord`. -/
def tryFocusRecord (c : Backstack) : Option ℕ → Attempt
  | none => ⟨c, false⟩
  | some r =>
    if (c.records r).activity = false then ⟨c, false⟩
    else ((c.pushTaskStack r).tryLeavePrevious throws r).andThen fun c => c.tryResume throws r

/-- `finishRecord`. -/
def tryFinishRecord (c : Backstack) (r : ℕ) : Attempt :=
  if (c.records r).activity = false ∨ (c.records r).finishing = true then ⟨c, false⟩
  else if finishThrows throws c r then
    ⟨c.setRecord r fun record => { record with finishing := true }, true⟩
  else ⟨c.finishRecord r, false⟩

/-- `finishAndRemoveActivity`, where the task has no other activity. -/
def tryLeaveTab (c : Backstack) (task : Option ℕ) (tab : JavaString) : Attempt :=
  let dropped := (match task with
    | some t => c.dropTask t
    | none => c).dropTab tab
  if tab = c.activeTab then
    let moved := { dropped with activeTab := dropped.poppedTab }
    moved.tryFocusRecord throws (moved.activityForTab dropped.poppedTab)
  else ⟨dropped, false⟩

/-- `finishAndRemoveActivity`. -/
def tryFinishAndRemove (c : Backstack) (r : ℕ) : Attempt :=
  (c.tryFinishRecord throws r).andThen fun finished =>
    let finished := finished.forgetTokens [r]
    match (c.records r).task with
    | some t =>
      let removed := finished.removeActivity t r
      match removed.topOf t with
      | some newTop => (removed.putTop t newTop).tryFocusRecord throws (some newTop)
      | none => removed.tryLeaveTab throws (some t) (c.records r).tab
    | none => finished.tryLeaveTab throws none (c.records r).tab

/-- The records are finished one after the other. -/
def tryFinishAll (c : Backstack) : List ℕ → Attempt
  | [] => ⟨c, false⟩
  | r :: rs => (c.tryFinishRecord throws r).andThen fun c => c.tryFinishAll rs

/-- `finishTab` as far as the task. -/
def tryCloseTask (c : Backstack) (task : ℕ) : Attempt :=
  let stack := (c.taskRecords task).activityStack
  (c.tryFinishAll throws stack.reverse).andThen fun finished =>
      let finished := finished.forgetTokens stack
      let emptied := { finished with
        taskRecords := Function.update finished.taskRecords task
          { finished.taskRecords task with activityStack := [] } }
      ⟨(emptied.dropTask task).dropTab (c.taskRecords task).tab, false⟩

/-- `finishTab`. -/
def tryFinishTab (c : Backstack) (tab : JavaString) : Attempt :=
  match c.tasksByTab.lookup tab with
  | some task =>
    (c.tryCloseTask throws task).andThen fun closed =>
      let newActiveTab := closed.previousTab
      let moved :=
        if tab = closed.activeTab then { closed with activeTab := newActiveTab } else closed
      moved.tryFocusRecord throws (moved.activityForTab newActiveTab)
  | none =>
    match c.activityForTab tab with
    | some r => c.tryFinishAndRemove throws r
    | none => ⟨c, false⟩

/-- `startActivityInCurrentTask` as far as the current activity's pause. -/
def tryPauseCurrent (c : Backstack) : Option ℕ → Attempt
  | some r =>
    if (c.records r).foreground = true then
      if pauses throws r then ⟨c, true⟩ else ⟨c.background r, false⟩
    else ⟨c, false⟩
  | none => ⟨c, false⟩

/-- `startActivityInCurrentTask`. -/
def tryStartActivity (toLowerCase : JavaString → JavaString) (c : Backstack)
    (caller : Option ℕ) (apkPath packageName activity : Option JavaString)
    (launched : Option Launched) : Attempt :=
  let current := caller.or c.activeRecord
  (c.tryPauseCurrent throws current).andThen fun paused =>
    match launchActivity toLowerCase (c.startTab current packageName) apkPath packageName activity
      launched with
    | some record => ⟨paused.register record, false⟩
    | none => paused.tryFocusRecord throws current

/-- `focusOrLaunchActivity`. -/
def tryFocusOrLaunch (toLowerCase : JavaString → JavaString) (c : Backstack)
    (next : LaunchFields JavaString) (answers : Answers) : Attempt :=
  match c.focusTarget next with
  | some r => c.tryFocusRecord throws (some r)
  | none =>
    match launchTarget next answers.installed with
    | none => c.tryFocusRecord throws c.activeRecord
    | some f =>
      (c.tryMoveActive throws).andThen fun moved =>
        match launchActivity toLowerCase (some f.tab) (some f.apk) (some f.packageName)
          (some f.activity) answers.launched with
        | some record => ⟨moved.register record, false⟩
        | none => ⟨moved, false⟩

/-- `goToNormalState` and `openAllApps`, which catch what is thrown. -/
def tryGoToState (c : Backstack) (r : ℕ) (reached : Bool) : Backstack :=
  if (c.records r).activity = true ∧ reached = true then
    (c.tryFocusRecord throws (some r)).state
  else c

/-- `performBack`. -/
def tryPerformBack (c : Backstack) (reached : Bool) : Attempt :=
  match c.activeRecord with
  | none => ⟨c, false⟩
  | some r =>
    if (c.records r).activity = false then ⟨c, false⟩
    else if (c.records r).tab = java "launcher" then ⟨c.tryGoToState throws r reached, false⟩
    else if (c.records r).finishing = true then ⟨c, false⟩
    else c.tryFinishAndRemove throws r

/-- What `home` does; while the launcher's state changes, other calls of the
same methods may throw. -/
def tryGoHome (inner : Throws) (c : Backstack) (reached : Bool) : Attempt :=
  match c.activityForTab (java "launcher") with
  | some launcher =>
    (c.tryGoToState inner launcher reached).tryFocusRecord throws (some launcher)
  | none => c.tryMoveActive throws

/-- `toggleAllApps`. -/
def tryAllApps (c : Backstack) (reached : Bool) : Backstack :=
  match (c.activityForTab (java "launcher")).or c.activeRecord with
  | some launcher => c.tryGoToState throws launcher reached
  | none => c

/-- `toggleRecents`. -/
def tryRecents (c : Backstack) : Attempt :=
  match c.taskStack.dropLast.getLast?.bind c.topOf with
  | some top => c.tryFocusRecord throws (some top)
  | none => c.tryFocusRecord throws ((c.tasksByTab.lookup (java "launcher")).bind c.topOf)

/-- `applyActionOnMain`. -/
def tryApplyAction (inner : Throws) (toLowerCase : JavaString → JavaString) (c : Backstack)
    (next : DeviceAction) (answers : Answers) : Attempt :=
  if c.isStale next then ⟨c, false⟩
  else if next.action = java "back" then c.tryPerformBack throws answers.reached
  else if next.action = java "home" then c.tryGoHome throws inner answers.reached
  else if next.action = java "all-apps" ∨ next.action = java "apps" then
    ⟨c.tryAllApps throws answers.reached, false⟩
  else if next.action = java "recents" then c.tryRecents throws
  else if next.action = java "focus-tab" then
    if next.fields.tab = java "launcher" then
      c.tryFocusRecord throws (c.activityForTab (java "launcher"))
    else if isHostTab next.fields.tab then ⟨c, false⟩
    else c.tryFocusOrLaunch throws toLowerCase next.fields answers
  else if next.action = java "close-tab" then
    if isHostTab next.fields.tab then ⟨c, false⟩ else c.tryFinishTab throws next.fields.tab
  else ⟨c, false⟩

/-- `applyInputOnMain` as far as it moves activities. -/
def tryApplyInput (c : Backstack) (tab : JavaString) : Attempt :=
  match c.inputRecord tab with
  | some r =>
    if (c.records r).activity = false ∨ (c.records r).tab = c.activeTab then ⟨c, false⟩
    else c.tryFocusRecord throws (some r)
  | none => ⟨c, false⟩

/-- `finishActivityByToken`. -/
def tryFinishByToken (c : Backstack) (token : Option ℕ) : Attempt :=
  match c.recordForToken token with
  | some r =>
    if (c.records r).finishing = true then ⟨c, false⟩ else c.tryFinishAndRemove throws r
  | none => ⟨c, false⟩

/-- `finishActiveActivity`. -/
def tryFinishActive (c : Backstack) : Attempt :=
  match c.activeRecord with
  | some r => c.tryFinishAndRemove throws r
  | none => ⟨c, false⟩

/-- An event, with what throws while it is served and, while the launcher's
state changes, within. -/
structure Trial where
  event : Event
  throws : Throws := fun _ _ => false
  inner : Throws := fun _ _ => false

/-- How far an event comes. -/
def attempt (toLowerCase : JavaString → JavaString) (c : Backstack) (e : Trial) : Attempt :=
  match e.event with
  | .register tab apk packageName activity value token =>
    ⟨c.register (newRecord toLowerCase tab apk packageName activity value token), false⟩
  | .start caller apkPath packageName activity launched =>
    c.tryStartActivity e.throws toLowerCase caller apkPath packageName activity launched
  | .action next answers => c.tryApplyAction e.throws e.inner toLowerCase next answers
  | .input tab => c.tryApplyInput e.throws tab
  | .finish token => c.tryFinishByToken e.throws token
  | .finishActive => c.tryFinishActive e.throws
  | .focused generation => ⟨{ c with lastFocusGeneration := generation }, false⟩

/-- One event: what is thrown is caught and the state stays. -/
def trial (toLowerCase : JavaString → JavaString) (c : Backstack) (e : Trial) : Backstack :=
  (c.attempt toLowerCase e).state

/-! ## Where nothing throws -/

@[simp] theorem Attempt.andThen_false {c : Backstack} {f : Backstack → Attempt} :
    (⟨c, false⟩ : Attempt).andThen f = f c := rfl

@[simp] theorem Attempt.andThen_true {c : Backstack} {f : Backstack → Attempt} :
    (⟨c, true⟩ : Attempt).andThen f = ⟨c, true⟩ := rfl

section

variable {c : Backstack} {r t : ℕ}

/-- `finishRecord` where the record's methods do not throw. -/
theorem tryFinishRecord_of (throws : Throws)
    (h : (c.records r).activity = true → finishThrows throws c r = false) :
    c.tryFinishRecord throws r = ⟨c.finishRecord r, false⟩ := by
  rw [tryFinishRecord, finishRecord]
  split_ifs with hskip hthrows
  · rfl
  · have hact : (c.records r).activity = true := by
      by_contra hact
      exact hskip (Or.inl (by simpa using hact))
    rw [h hact] at hthrows
    cases hthrows
  · rfl

/-- A record that has an activity still was not finished. -/
theorem records_finishRecord {x : ℕ} (h : ((c.finishRecord x).records r).activity = true) :
    (c.finishRecord x).records r = c.records r := by
  rw [finishRecord_eq] at h ⊢
  by_cases hx : r = x
  · subst hx
    simp only [Function.update_self, finished] at h ⊢
    split_ifs at h ⊢
    rfl
  · exact Function.update_of_ne hx _ _

/-- All the records are finished where their methods do not throw: what one
throws is not changed by the others. -/
theorem tryFinishAll_of (throws : Throws) {rs : List ℕ}
    (h : ∀ r ∈ rs, (c.records r).activity = true → finishThrows throws c r = false) :
    c.tryFinishAll throws rs = ⟨rs.foldl finishRecord c, false⟩ := by
  induction rs generalizing c with
  | nil => rfl
  | cons r rs ih =>
    rw [tryFinishAll, tryFinishRecord_of throws (h r List.mem_cons_self), Attempt.andThen_false,
      List.foldl_cons]
    refine ih fun x hx hact => ?_
    have hsame := records_finishRecord hact
    have hthrows := h x (List.mem_cons_of_mem r hx) (hsame ▸ hact)
    rwa [finishThrows, hsame]

/-- `finishTab` as far as the task, where nothing throws that finishes. -/
theorem tryCloseTask_of (throws : Throws)
    (h : ∀ r ∈ (c.taskRecords t).activityStack, (c.records r).activity = true →
      finishThrows throws c r = false) :
    c.tryCloseTask throws t = ⟨c.closeTask t, false⟩ := by
  rw [tryCloseTask]
  dsimp only
  rw [tryFinishAll_of throws fun r hr => h r (List.mem_reverse.mp hr), Attempt.andThen_false]
  rfl

end

/-! ## What stays in any case -/

section

variable {c c' d : Backstack} {r t : ℕ} {tab : JavaString} {throws : Throws}

/-- Where one attempt is followed by another. -/
theorem Attempt.state_andThen {a : Attempt} {f : Backstack → Attempt} {P : Backstack → Prop}
    (ha : P a.state) (hf : P (f a.state).state) : P (a.andThen f).state := by
  rw [andThen]
  split_ifs
  · exact ha
  · exact hf

theorem tryMoveActive_cases (throws : Throws) (c : Backstack) :
    (c.tryMoveActive throws).state = c ∨
      ∃ r, (c.tryMoveActive throws).state = c.background r := by
  cases h : c.activeRecord with
  | none => exact Or.inl (by simp only [tryMoveActive, h])
  | some r =>
    simp only [tryMoveActive, h]
    split_ifs
    · exact Or.inl rfl
    · exact Or.inl rfl
    · exact Or.inr ⟨r, rfl⟩

theorem tryLeavePrevious_cases (throws : Throws) (c : Backstack) (r : ℕ) :
    (c.tryLeavePrevious throws r).state = c ∨
      ∃ p, (c.tryLeavePrevious throws r).state = c.background p := by
  cases h : c.activeRecord with
  | none => exact Or.inl (by simp only [tryLeavePrevious, h])
  | some p =>
    simp only [tryLeavePrevious, h]
    split_ifs
    · exact Or.inl rfl
    · exact tryMoveActive_cases throws c

theorem tryResume_cases (throws : Throws) (c : Backstack) (r : ℕ) :
    (c.tryResume throws r).state = { c with activeTab := (c.records r).tab } ∨
      (c.tryResume throws r).state = c.resume r := by
  rw [tryResume, resume]
  split_ifs
  · exact Or.inl rfl
  · exact Or.inl rfl
  · exact Or.inr rfl

/-- **An attempt to focus moves tasks only**: who is in which task stays the
same, and the active tab stays or becomes that of a task. -/
structure Moved (n : Prop) (c c' : Backstack) : Prop where
  kept : Kept n c'
  perm : c'.taskStack.Perm c.taskStack
  taskRecords : c'.taskRecords = c.taskRecords
  tasksByTab : c'.tasksByTab = c.tasksByTab
  activeTab : c'.activeTab = c.activeTab ∨ c.topOfTab c'.activeTab ≠ none

namespace Moved

variable {n : Prop}

theorem refl (h : Kept n c) : Moved n c c :=
  ⟨h, List.Perm.refl _, rfl, rfl, Or.inl rfl⟩

variable (hm : Moved n c c')
include hm

theorem topOfTab : c'.topOfTab tab = c.topOfTab tab := by
  rw [Backstack.topOfTab, Backstack.topOfTab, hm.tasksByTab]
  exact Option.bind_congr fun t _ => by rw [topOf, topOf, hm.taskRecords]

theorem has : c'.Has r ↔ c.Has r := by
  rw [Has, Has, hm.taskRecords]
  exact exists_congr fun t => and_congr_left' hm.perm.mem_iff

theorem trans (hm' : Moved n c' d) : Moved n c d where
  kept := hm'.kept
  perm := hm'.perm.trans hm.perm
  taskRecords := hm'.taskRecords.trans hm.taskRecords
  tasksByTab := hm'.tasksByTab.trans hm.tasksByTab
  activeTab := by
    rcases hm'.activeTab with he | hne
    · rw [he]
      exact hm.activeTab
    · exact Or.inr (hm.topOfTab ▸ hne)

end Moved

variable {n : Prop} (h : Kept n c)
include h

theorem Kept.moved_background : Moved n c (c.background r) :=
  ⟨h.background, List.Perm.refl _, rfl, rfl, Or.inl rfl⟩

theorem Kept.moved_pushTaskStack (hr : c.Has r) : Moved n c (c.pushTaskStack r) := by
  refine ⟨h.pushTaskStack hr, ?_, rfl, rfl, Or.inl rfl⟩
  obtain ⟨t, ht, hmem⟩ := hr
  rw [h.pushTaskStack_eq ht hmem]
  exact perm_use ht

/-- A record's tab is that of its task, and has a top activity. -/
theorem Kept.topOfTab_of_has (hr : c.Has r) : c.topOfTab (c.records r).tab ≠ none := by
  obtain ⟨t, ht, hmem⟩ := hr
  rw [h.tab t ht r hmem, h.topOfTab_self ht, topOf, TaskRecord.topActivity]
  exact fun hnone => h.nonempty t ht (List.getLast?_eq_none_iff.mp hnone)

theorem Kept.moved_tryResume (hr : (c.records r).activity = true) :
    Moved n c (c.tryResume throws r).state := by
  have hactive := h.topOfTab_of_has (h.activity r hr)
  rcases tryResume_cases throws c r with he | he
  · rw [he]
    exact ⟨h.activeTab _, List.Perm.refl _, rfl, rfl, Or.inr hactive⟩
  · rw [he]
    refine ⟨h.resume hr, ?_, ?_, ?_, ?_⟩
    all_goals rw [resume_eq]
    · exact List.Perm.refl _
    · rfl
    · rfl
    · exact Or.inr hactive

/-- **An attempt to focus**, whatever throws. -/
theorem Kept.moved_tryFocus (record : Option ℕ) :
    Moved n c (c.tryFocusRecord throws record).state := by
  cases record with
  | none => exact Moved.refl h
  | some r =>
    rw [tryFocusRecord]
    split_ifs with hr
    · exact Moved.refl h
    have hact : (c.records r).activity = true := by simpa using hr
    have hpush := h.moved_pushTaskStack (h.activity r hact)
    rcases tryLeavePrevious_cases throws (c.pushTaskStack r) r with he | ⟨p, he⟩
    · refine Attempt.state_andThen (by rwa [he]) ?_
      rw [he]
      exact hpush.trans (hpush.kept.moved_tryResume hact)
    · have hback := hpush.trans (hpush.kept.moved_background (r := p))
      refine Attempt.state_andThen (by rwa [he]) ?_
      rw [he]
      exact hback.trans (hback.kept.moved_tryResume (background_activity.trans hact))

theorem Kept.moved_tryMoveActive : Moved n c (c.tryMoveActive throws).state := by
  rcases tryMoveActive_cases throws c with he | ⟨r, he⟩
  · rw [he]
    exact Moved.refl h
  · rw [he]
    exact h.moved_background

end

/-! ## Records that are to finish -/

/-- The records that an event is to finish. -/
def targets (c : Backstack) : Event → List ℕ
  | .action next _ =>
    if next.action = java "back" then
      (c.activeRecord.filter fun r =>
        (c.records r).activity && (c.records r).tab ≠ java "launcher").toList
    else if next.action = java "close-tab" ∧ isHostTab next.fields.tab = false then
      match c.tasksByTab.lookup next.fields.tab with
      | some t => (c.taskRecords t).activityStack
      | none => (c.activityForTab next.fields.tab).toList
    else []
  | .finish token => (c.recordForToken token).toList
  | .finishActive => c.activeRecord.toList
  | _ => []

/-- No record that is to finish throws in a method that `finishRecord`
calls. -/
def Sturdy (c : Backstack) (e : Trial) : Prop :=
  ∀ r ∈ c.targets e.event, (c.records r).activity = true → finishThrows e.throws c r = false

instance {c : Backstack} {e : Trial} : Decidable (Sturdy c e) :=
  inferInstanceAs (Decidable (∀ r ∈ c.targets e.event, (c.records r).activity = true →
    finishThrows e.throws c r = false))

/-- **The record is gone**: it is in no task, no tab has it and no token, and
its tab is active only where another activity of it remains. -/
structure Removed (c c' : Backstack) (r : ℕ) : Prop where
  task : ¬c'.Has r
  activities : ∀ tab, c'.activities.lookup tab ≠ some r
  recordsByToken : ∀ k, c'.recordsByToken.lookup k ≠ some r
  activeTab : c'.activeTab = (c.records r).tab → c'.topOfTab c'.activeTab ≠ none

/-- **The event is served**: who is to finish is gone, the record that the
next request finds is on top and is not finishing, and nobody who is
registered is. -/
structure Served (c c' : Backstack) (e : Event) : Prop where
  removed : ∀ r ∈ c.targets e, Removed c c' r
  top : ∀ r ∈ c'.activeRecord, c'.IsTop r
  found : ∀ token, ∀ r ∈ c'.recordForToken token, (c'.records r).finishing = false
  registered : ∀ r, c'.Has r → (c'.records r).finishing = false

/-- **The tables agree, and every task has a tab with a name.** -/
structure Sane (c : Backstack) : Prop extends Kept False c where
  named : ∀ t ∈ c.taskStack, (c.taskRecords t).tab ≠ []

section

variable {c c' d : Backstack} {r t : ℕ} {tab : JavaString} {throws : Throws}

theorem Kept.sane (h : Kept False c') (hs : Sane c) (hsub : ∀ t ∈ c'.taskStack,
    t ∈ c.taskStack ∧ (c'.taskRecords t).tab = (c.taskRecords t).tab) : Sane c' :=
  { h with named := fun t ht => (hsub t ht).2 ▸ hs.named t (hsub t ht).1 }

theorem Moved.sane (hm : Moved False c c') (hs : Sane c) : Sane c' :=
  hm.kept.sane hs fun _ ht => ⟨hm.perm.mem_iff.mp ht, by rw [hm.taskRecords]⟩

/-- What is said of a record that has left its task lasts while tasks move. -/
theorem Moved.removed (hm : Moved False d c') (hnot : ¬d.Has r)
    (htab : d.activeTab = (c.records r).tab → d.topOfTab d.activeTab ≠ none) : Removed c c' r where
  task := fun hr => hnot (hm.has.mp hr)
  activities := fun tab hr => by
    rw [hm.kept.activities] at hr
    exact hnot (hm.has.mp (hm.kept.isTop_of_topOfTab hr).has)
  recordsByToken := fun k hr => hnot (hm.has.mp ((hm.kept.recordsByToken k r).mp hr).1)
  activeTab := fun he => by
    rw [hm.topOfTab]
    rcases hm.activeTab with hsame | hne
    · rw [hsame] at he ⊢
      exact htab he
    · exact hne

section

variable {n : Prop} (h : Kept n c)
include h

/-- Where no task is left, there is no tab to go on with. -/
theorem Kept.launcherTab_of_nil (hnil : c.taskStack = []) : c.launcherTab = [] := by
  rw [launcherTab, if_neg]
  intro hmem
  obtain ⟨x, hx⟩ := Option.isSome_iff_exists.mp (AList.lookup_isSome.mpr hmem)
  rw [h.activities] at hx
  obtain ⟨t, ht, -⟩ := h.isTop_of_topOfTab hx
  rw [hnil] at ht
  cases ht

theorem Kept.previousTab_cases :
    c.previousTab = [] ∨ c.topOfTab c.previousTab ≠ none := by
  rw [previousTab]
  cases hlast : c.taskStack.getLast? with
  | none =>
    have hnil := List.getLast?_eq_none_iff.mp hlast
    have htab : c.tasksByTab.lookup (java "launcher") = none := by
      by_contra hsome
      obtain ⟨t, ht⟩ := Option.ne_none_iff_exists'.mp hsome
      have hmem := (h.lookup_tab.mp ht).1
      rw [hnil] at hmem
      cases hmem
    rw [htab]
    exact Or.inl (h.launcherTab_of_nil hnil)
  | some t =>
    have ht := List.mem_of_getLast? hlast
    refine Or.inr ?_
    show c.topOfTab (c.taskRecords t).tab ≠ none
    rw [h.topOfTab_self ht, topOf, TaskRecord.topActivity]
    exact fun hnone => h.nonempty t ht (List.getLast?_eq_none_iff.mp hnone)

theorem Kept.poppedTab_cases : c.poppedTab = [] ∨ c.topOfTab c.poppedTab ≠ none := by
  cases hlast : c.taskStack.getLast? with
  | none =>
    have hnil := List.getLast?_eq_none_iff.mp hlast
    have hpop : c.poppedTab = c.previousTab := by
      rw [Backstack.poppedTab, h.activityStack, hnil, List.map_nil, List.getLast?_nil,
        Option.getD_none, h.launcherTab_of_nil hnil, if_pos rfl]
    rw [hpop]
    exact h.previousTab_cases
  | some t =>
    have ht := List.mem_of_getLast? hlast
    rw [h.poppedTab hlast, h.topOfTab_self ht, topOf, TaskRecord.topActivity]
    exact Or.inr fun hnone => h.nonempty t ht (List.getLast?_eq_none_iff.mp hnone)

end

/-- The state is sane, and the records that were to finish are gone. -/
structure Gone (c c' : Backstack) (rs : List ℕ) : Prop where
  sane : Sane c'
  removed : ∀ r ∈ rs, Removed c c' r

/-- Where nobody was to finish, a state that is sane will do. -/
theorem Sane.gone (hs : Sane c') : Gone c c' [] :=
  ⟨hs, nofun⟩

/-- Either branch. -/
theorem Gone.ite {p : Prop} [Decidable p] {a a' : Attempt} {rs : List ℕ}
    (h : p → Gone c a.state rs) (h' : ¬p → Gone c a'.state rs) :
    Gone c (if p then a else a').state rs := by
  by_cases hp : p
  · rw [if_pos hp]
    exact h hp
  · rw [if_neg hp]
    exact h' hp

section

variable (h : Sane c)
include h

/-- **A record is finished and removed** where its methods do not throw,
whatever throws in the next one. -/
theorem Sane.tryFinishAndRemove (hr : c.Has r)
    (hno : (c.records r).activity = true → finishThrows throws c r = false) :
    Gone c (c.tryFinishAndRemove throws r).state [r] := by
  obtain ⟨t, ht, hmem⟩ := hr
  have ho := h.takenOff_removed ht hmem
  have hnot : ¬(((c.finishRecord r).forgetTokens [r]).removeActivity t r).Has r := fun hhas =>
    ((ho.has_taken h.toTables ht).mp hhas).2 List.mem_cons_self
  have hgone : ∀ d d', Moved False d d' → Sane d → ¬d.Has r →
      (d.activeTab = (c.records r).tab → d.topOfTab d.activeTab ≠ none) → Gone c d' [r] :=
    fun d d' hm hs hn htab =>
      ⟨hm.sane hs, fun x hx => List.mem_singleton.mp hx ▸ hm.removed hn htab⟩
  rw [Backstack.tryFinishAndRemove, tryFinishRecord_of throws hno, Attempt.andThen_false,
    h.task t ht r hmem]
  dsimp only
  split
  case h_1 newTop htop =>
    -- another activity of the task remains
    have hput := ho.kept_putTop h.toKept ht htop
    refine hgone _ _ (hput.moved_tryFocus _)
      (hput.sane h fun t' ht' => ⟨ho.taskStack ▸ ht', ho.taken_tab t'⟩) hnot fun he => ?_
    rw [he, h.tab t ht r hmem, ← ho.taken_tab t]
    have hsome := (hput.topOfTab_self (ho.taskStack ▸ ht)).trans htop
    exact fun hnone => absurd (hsome.symm.trans hnone) nofun
  case h_2 htop =>
    have hempty := List.getLast?_eq_none_iff.mp htop
    have hdrop := ho.kept_drop h.toKept ht hempty
    have hsane := hdrop.sane h fun t' ht' =>
      ⟨ho.taskStack ▸ List.mem_of_mem_erase ht', ho.taken_tab t'⟩
    have hnot' : ¬((((c.finishRecord r).forgetTokens [r]).removeActivity t r).dropTask t |>.dropTab
        (c.taskRecords t).tab).Has r := fun ⟨t', ht', hr'⟩ =>
      hnot ⟨t', List.mem_of_mem_erase ht', hr'⟩
    rw [tryLeaveTab, h.tab t ht r hmem]
    dsimp only
    split_ifs with hactive
    · refine hgone _ _ ((hdrop.activeTab _).moved_tryFocus _)
        ((hdrop.activeTab _).sane hsane fun _ ht' => ⟨ht', rfl⟩) hnot' fun he => ?_
      -- the tab to go on with has a name, so it is a task's
      refine hdrop.poppedTab_cases.resolve_left fun hnil => ?_
      exact h.named t ht (((h.tab t ht r hmem).symm.trans he.symm).trans hnil)
    · refine hgone _ _ (Moved.refl hdrop) hsane hnot' fun he => ?_
      exact absurd (he.trans (h.tab t ht r hmem)).symm hactive

/-- **A tab is closed** where nobody who finishes throws. -/
theorem Sane.tryFinishTab
    (hno : ∀ t ∈ c.tasksByTab.lookup tab, ∀ r ∈ (c.taskRecords t).activityStack,
      (c.records r).activity = true → finishThrows throws c r = false) :
    Gone c (c.tryFinishTab throws tab).state
      (match c.tasksByTab.lookup tab with
        | some t => (c.taskRecords t).activityStack
        | none => (c.activityForTab tab).toList) := by
  rw [Backstack.tryFinishTab]
  cases htask : c.tasksByTab.lookup tab with
  | some t =>
    obtain ⟨ht, htab⟩ := h.lookup_tab.mp htask
    have ho := h.takenOff_emptied ht
    have hclosed := h.closeTask ht
    have hsane : Sane (c.closeTask t) := hclosed.sane h fun t' ht' =>
      ⟨ho.taskStack ▸ List.mem_of_mem_erase ht', ho.taken_tab t'⟩
    have hnot : ∀ r ∈ (c.taskRecords t).activityStack, ¬(c.closeTask t).Has r :=
      fun r hr ⟨t', ht', hr'⟩ =>
        ((ho.has_taken h.toTables ht).mp ⟨t', List.mem_of_mem_erase ht', hr'⟩).2 hr
    dsimp only
    rw [tryCloseTask_of throws (hno t htask), Attempt.andThen_false]
    split_ifs with hactive
    · have hmoved := @Kept.moved_tryFocus _ throws _
        (hclosed.activeTab (c.closeTask t).previousTab) ({ c.closeTask t with
          activeTab := (c.closeTask t).previousTab }.activityForTab (c.closeTask t).previousTab)
      refine ⟨hmoved.sane ((hclosed.activeTab _).sane hsane fun _ ht' => ⟨ht', rfl⟩),
        fun r hr => hmoved.removed (hnot r hr) fun he => ?_⟩
      refine hclosed.previousTab_cases.resolve_left fun hnil => ?_
      exact h.named t ht (((h.tab t ht r hr).symm.trans he.symm).trans hnil)
    · have hmoved := @Kept.moved_tryFocus _ throws _ hclosed
        ((c.closeTask t).activityForTab (c.closeTask t).previousTab)
      refine ⟨hmoved.sane hsane, fun r hr => hmoved.removed (hnot r hr) fun he => ?_⟩
      exact absurd ((he.trans (h.tab t ht r hr)).trans htab).symm hactive
  | none =>
    rw [h.activityForTab_of_none htask]
    exact h.gone

end

/-! ### The other operations -/

theorem named_newRecord {toLowerCase : JavaString → JavaString}
    {tab apk packageName activity : Option JavaString} {value : Bool} {token : Option ℕ} :
    (newRecord toLowerCase tab apk packageName activity value token).tab ≠ [] := by
  have hlauncher : java "launcher" ≠ [] := by decide
  have hslash : java "/" ≠ [] := by decide
  rw [newRecord]
  dsimp only
  split_ifs with htab
  · rw [defaultTabFor]
    split_ifs
    · exact hlauncher
    · simp [hslash]
  · exact htab

theorem named_launched {toLowerCase : JavaString → JavaString}
    {tab apkPath packageName activity : Option JavaString} {launched : Option Launched}
    {record : ActivityRecord}
    (hr : launchActivity toLowerCase tab apkPath packageName activity launched = some record) :
    record.tab ≠ [] := by
  rw [launchActivity] at hr
  split_ifs at hr
  obtain ⟨l, -, rfl⟩ := Option.map_eq_some_iff.mp hr
  exact named_newRecord

section

variable (h : Sane c)
include h

theorem Sane.register {record : ActivityRecord} (hk : Kept False (c.register record))
    (htab : record.tab ≠ []) : Sane (c.register record) where
  toKept := hk
  named := by
    rw [Backstack.register]
    split
    case h_1 t ht =>
      intro t' ht'
      rw [pushed_tab]
      exact h.named t' ((mem_pushed (h.lookup_tab.mp ht).1 t').mp ht')
    case h_2 =>
      intro t' ht'
      rw [pushed_tab]
      by_cases he : t' = c.nextTask
      · subst he
        show (Function.update c.taskRecords c.nextTask _ c.nextTask).tab ≠ []
        rw [Function.update_self]
        exact htab
      · have hold : t' ∈ c.taskStack := (mem_use h.nodup).mp ht' |>.resolve_right he
        show (Function.update c.taskRecords c.nextTask _ t').tab ≠ []
        rw [Function.update_of_ne he]
        exact h.named t' hold

/-- A registration behind a pause. -/
theorem Sane.register_paused {record : ActivityRecord} (hc : c' = c ∨ ∃ r, c' = c.background r)
    (hf : Fresh c record) (htab : record.tab ≠ []) : Sane (c'.register record) := by
  have hk := h.toKept.register_paused hc hf nofun
  rcases hc with rfl | ⟨r, rfl⟩
  · exact h.register hk htab
  · exact (h.moved_background.sane h).register hk htab

theorem Sane.tryFocus (record : Option ℕ) : Sane (c.tryFocusRecord throws record).state :=
  (h.moved_tryFocus record).sane h

theorem Sane.tryGoToState {reached : Bool} : Sane (c.tryGoToState throws r reached) := by
  rw [Backstack.tryGoToState]
  split_ifs
  · exact h.tryFocus _
  · exact h

theorem Sane.tryGoHome {inner : Throws} {reached : Bool} :
    Sane (c.tryGoHome throws inner reached).state := by
  rw [Backstack.tryGoHome]
  split
  · exact h.tryGoToState.tryFocus _
  · exact h.moved_tryMoveActive.sane h

theorem Sane.tryAllApps {reached : Bool} : Sane (c.tryAllApps throws reached) := by
  rw [Backstack.tryAllApps]
  split
  · exact h.tryGoToState
  · exact h

theorem Sane.tryRecents : Sane (c.tryRecents throws).state := by
  rw [Backstack.tryRecents]
  split
  · exact h.tryFocus _
  · exact h.tryFocus _

theorem Sane.tryApplyInput : Sane (c.tryApplyInput throws tab).state := by
  rw [Backstack.tryApplyInput]
  split
  · split_ifs
    · exact h
    · exact h.tryFocus _
  · exact h

omit h in
theorem tryPauseCurrent_cases (throws : Throws) (c : Backstack) (current : Option ℕ) :
    (c.tryPauseCurrent throws current).state = c ∨
      ∃ r, (c.tryPauseCurrent throws current).state = c.background r := by
  cases current with
  | none => exact Or.inl rfl
  | some r =>
    rw [tryPauseCurrent]
    split_ifs
    · exact Or.inl rfl
    · exact Or.inr ⟨r, rfl⟩
    · exact Or.inl rfl

theorem Sane.of_paused (hc : c' = c ∨ ∃ r, c' = c.background r) : Sane c' := by
  rcases hc with rfl | ⟨r, rfl⟩
  · exact h
  · exact h.moved_background.sane h

theorem Sane.tryStart {toLowerCase : JavaString → JavaString} {caller : Option ℕ}
    {apkPath packageName activity : Option JavaString} {launched : Option Launched}
    (hd : Distinct toLowerCase c (.start caller apkPath packageName activity launched)) :
    Sane (c.tryStartActivity throws toLowerCase caller apkPath packageName activity
      launched).state := by
  have hpause := tryPauseCurrent_cases throws c (caller.or c.activeRecord)
  refine Attempt.state_andThen (h.of_paused hpause) ?_
  split
  case h_1 record hr =>
    exact h.register_paused hpause (fresh_launched hr (hd record hr)) (named_launched hr)
  case h_2 => exact (h.of_paused hpause).tryFocus _

theorem Sane.tryFocusOrLaunch {toLowerCase : JavaString → JavaString}
    {next : LaunchFields JavaString} {answers : Answers}
    (hd : ∀ record ∈ c.launchRecord toLowerCase next answers, ∀ k, record.token = some k →
      c.recordsByToken.lookup k = none) :
    Sane (c.tryFocusOrLaunch throws toLowerCase next answers).state := by
  rw [Backstack.tryFocusOrLaunch]
  split
  case h_1 => exact h.tryFocus _
  case h_2 hnone =>
    rw [launchRecord, hnone] at hd
    split
    case h_1 => exact h.tryFocus _
    case h_2 f hf =>
      rw [hf] at hd
      have hmove := tryMoveActive_cases throws c
      refine Attempt.state_andThen (h.of_paused hmove) ?_
      split
      case h_1 record hr =>
        exact h.register_paused hmove (fresh_launched hr (hd record hr)) (named_launched hr)
      case h_2 => exact h.of_paused hmove

theorem Sane.tryFinishByToken {token : Option ℕ}
    (hno : ∀ r ∈ c.recordForToken token, (c.records r).activity = true →
      finishThrows throws c r = false) :
    Gone c (c.tryFinishByToken throws token).state (c.recordForToken token).toList := by
  rw [Backstack.tryFinishByToken]
  cases hr : c.recordForToken token with
  | none => exact h.gone
  | some r =>
    have hhas := h.has_of_recordForToken hr
    dsimp only
    rw [if_neg (by simp [h.finishing r hhas])]
    exact h.tryFinishAndRemove hhas (hno r hr)

theorem Sane.tryFinishActive
    (hno : ∀ r ∈ c.activeRecord, (c.records r).activity = true → finishThrows throws c r = false) :
    Gone c (c.tryFinishActive throws).state c.activeRecord.toList := by
  rw [Backstack.tryFinishActive]
  cases hr : c.activeRecord with
  | none => exact h.gone
  | some r => exact h.tryFinishAndRemove (h.isTop_of_activeRecord hr).has (hno r hr)

theorem Sane.tryPerformBack {reached : Bool}
    (hno : ∀ r ∈ c.activeRecord, (c.records r).activity = true →
      (c.records r).tab ≠ java "launcher" → finishThrows throws c r = false) :
    Gone c (c.tryPerformBack throws reached).state (c.activeRecord.filter fun r =>
      (c.records r).activity && (c.records r).tab ≠ java "launcher").toList := by
  rw [Backstack.tryPerformBack]
  cases hr : c.activeRecord with
  | none => exact h.gone
  | some r =>
    have hhas := (h.isTop_of_activeRecord hr).has
    dsimp only
    split_ifs with hact htab hfin
    · simpa [Option.filter, hact] using h.gone
    · simpa [Option.filter, htab] using h.tryGoToState.gone
    · rw [h.finishing r hhas] at hfin
      cases hfin
    · have hact : (c.records r).activity = true := by simpa using hact
      simpa [Option.filter, hact, htab] using
        h.tryFinishAndRemove hhas fun _ => hno r hr hact htab

omit h in
/-- Other actions finish nobody. -/
theorem targets_of_ne {next : DeviceAction} {answers : Answers} {action : JavaString}
    (he : next.action = action) (hback : action ≠ java "back")
    (hclose : action ≠ java "close-tab") : c.targets (.action next answers) = [] := by
  rw [targets, if_neg (he ▸ hback), if_neg fun hboth => hclose (he ▸ hboth.1)]

/-- **An action**, where nobody who finishes throws. -/
theorem Sane.tryApplyAction {toLowerCase : JavaString → JavaString} {inner : Throws}
    {next : DeviceAction} {answers : Answers}
    (hd : Distinct toLowerCase c (.action next answers))
    (hno : ∀ r ∈ c.targets (.action next answers), (c.records r).activity = true →
      finishThrows throws c r = false) :
    Gone c (c.tryApplyAction throws inner toLowerCase next answers).state
      (c.targets (.action next answers)) := by
  have hothers : ∀ {d action}, next.action = action → action ≠ java "back" →
      action ≠ java "close-tab" → Sane d → Gone c d (c.targets (.action next answers)) :=
    fun he hback hclose hs => by
      rw [targets_of_ne he hback hclose]
      exact hs.gone
  rw [Backstack.tryApplyAction]
  refine Gone.ite (fun hstale => ?_) fun hstale => Gone.ite (fun hback => ?_) fun hback =>
    Gone.ite (fun hhome => ?_) fun _ => Gone.ite (fun happs => ?_) fun _ =>
    Gone.ite (fun hrecents => ?_) fun _ => Gone.ite (fun hfocus => ?_) fun _ =>
    Gone.ite (fun hclose => ?_) fun hclose => ?_
  · have hfocus : next.action = java "focus-tab" := by
      rw [isStale, Bool.and_eq_true] at hstale
      exact of_decide_eq_true hstale.1
    exact hothers hfocus (by decide) (by decide) h
  · rw [targets, if_pos hback] at hno ⊢
    refine h.tryPerformBack fun r hr hact htab => hno r ?_ hact
    exact Option.mem_toList.mpr (Option.mem_filter_iff.mpr ⟨hr, by simp [hact, htab]⟩)
  · exact hothers hhome (by decide) (by decide) h.tryGoHome
  · rcases happs with he | he
    · exact hothers he (by decide) (by decide) h.tryAllApps
    · exact hothers he (by decide) (by decide) h.tryAllApps
  · exact hothers hrecents (by decide) (by decide) h.tryRecents
  · refine Gone.ite (fun _ => ?_) fun _ => Gone.ite (fun _ => ?_) fun hhost => ?_
    · exact hothers hfocus (by decide) (by decide) (h.tryFocus _)
    · exact hothers hfocus (by decide) (by decide) h
    · have hcond : c.isStale next = false ∧ next.action = java "focus-tab" ∧
          isHostTab next.fields.tab = false :=
        ⟨by simpa using hstale, hfocus, by simpa using hhost⟩
      rw [Distinct, registered, if_pos hcond] at hd
      exact hothers hfocus (by decide) (by decide) (h.tryFocusOrLaunch hd)
  · refine Gone.ite (fun hhost => ?_) fun hhost => ?_
    · have hnone : c.targets (.action next answers) = [] := by
        rw [targets, if_neg hback, if_neg (by simp [hhost])]
      rw [hnone]
      exact h.gone
    · have hboth : next.action = java "close-tab" ∧ isHostTab next.fields.tab = false :=
        ⟨hclose, by simpa using hhost⟩
      rw [targets, if_neg hback, if_pos hboth] at hno ⊢
      refine h.tryFinishTab fun t ht => ?_
      rw [Option.mem_def.mp ht] at hno
      exact hno
  · have hnone : c.targets (.action next answers) = [] := by
      rw [targets, if_neg hback, if_neg fun hboth => hclose hboth.1]
    rw [hnone]
    exact h.gone

/-- **One event**, where nobody who finishes throws. -/
theorem Sane.trial {toLowerCase : JavaString → JavaString} {e : Trial}
    (hd : Distinct toLowerCase c e.event) (hs : Sturdy c e) :
    Gone c (c.trial toLowerCase e) (c.targets e.event) := by
  obtain ⟨event, throws, inner⟩ := e
  cases event with
  | register tab apk packageName activity value token =>
    exact (h.register_paused (Or.inl rfl) (fresh_newRecord (hd _ rfl)) named_newRecord).gone
  | start => exact (h.tryStart hd).gone
  | action => exact h.tryApplyAction hd hs
  | input => exact h.tryApplyInput.gone
  | finish => exact h.tryFinishByToken fun r hr => hs r (by simpa [targets] using hr)
  | finishActive => exact h.tryFinishActive fun r hr => hs r (by simpa [targets] using hr)
  | focused generation =>
    have hk : Kept False (c.next toLowerCase (.focused generation)) :=
      { h.toKept with nonempty := h.nonempty, activities := h.activities }
    exact (hk.sane h fun _ ht => ⟨ht, rfl⟩).gone

omit h in
/-- What a state that is sane promises for the next request. -/
theorem Gone.served {e : Event} (hg : Gone c c' (c.targets e)) : Served c c' e where
  removed := hg.removed
  top := fun _ hr => hg.sane.isTop_of_activeRecord hr
  found := fun _ r hr => hg.sane.finishing r (hg.sane.has_of_recordForToken hr)
  registered := hg.sane.finishing

end

/-! ### Where one throws -/

/-- **A zombie**: a record that is in a task and finishing. -/
def Zombie (c : Backstack) : Prop :=
  ∃ r, c.Has r ∧ (c.records r).finishing = true

section

variable (h : Sane c)
include h

/-- A record that throws while it finishes stays where it is. -/
theorem Sane.zombie_of_throws (hr : c.Has r) (hact : (c.records r).activity = true)
    (hthrows : finishThrows throws c r = true) :
    Zombie (c.tryFinishAndRemove throws r).state := by
  rw [Backstack.tryFinishAndRemove, tryFinishRecord,
    if_neg (by simp [hact, h.finishing r hr]), if_pos hthrows, Attempt.andThen_true]
  exact ⟨r, hr, by rw [setRecord_self]⟩

end

/-- Of several records, the first one that throws stays. -/
theorem tryFinishAll_throws {rs : List ℕ} (hnodup : rs.Nodup)
    (hfin : ∀ x ∈ rs, (c.records x).finishing = false) (hr : r ∈ rs)
    (hact : (c.records r).activity = true) (hthrows : finishThrows throws c r = true) :
    ∃ x ∈ rs, ∃ d, c.tryFinishAll throws rs = ⟨d, true⟩ ∧ (d.records x).finishing = true ∧
      d.taskStack = c.taskStack ∧ d.taskRecords = c.taskRecords := by
  induction rs generalizing c with
  | nil => cases hr
  | cons y rs ih =>
    obtain ⟨hy, hnodup⟩ := List.nodup_cons.mp hnodup
    by_cases hno : (c.records y).activity = true → finishThrows throws c y = false
    · -- this one finishes, so it is a later one that throws
      have hry : r ≠ y := fun he => by
        rw [he] at hact hthrows
        rw [hno hact] at hthrows
        cases hthrows
      have hsame : ∀ x, x ≠ y → (c.finishRecord y).records x = c.records x := fun x hx => by
        rw [finishRecord_eq]
        exact Function.update_of_ne hx _ _
      obtain ⟨x, hx, d, heq, hzombie, hstack, htasks⟩ := ih (c := c.finishRecord y) hnodup
        (fun x hx => by
          rw [hsame x (ne_of_mem_of_not_mem hx hy)]
          exact hfin x (List.mem_cons_of_mem y hx))
        ((List.mem_cons.mp hr).resolve_left hry) (by rwa [hsame r hry])
        (by rwa [finishThrows, hsame r hry])
      refine ⟨x, List.mem_cons_of_mem y hx, d, ?_, hzombie, hstack.trans ?_, htasks.trans ?_⟩
      · rw [tryFinishAll, tryFinishRecord_of throws hno, Attempt.andThen_false, heq]
      · rw [finishRecord_eq]
      · rw [finishRecord_eq]
    · simp only [Classical.not_imp, Bool.not_eq_false] at hno
      refine ⟨y, List.mem_cons_self, c.setRecord y fun record => { record with finishing := true },
        ?_, ?_, rfl, rfl⟩
      · rw [tryFinishAll, tryFinishRecord,
          if_neg (by simp [hno.1, hfin y List.mem_cons_self]), if_pos hno.2, Attempt.andThen_true]
      · rw [setRecord_self]

/-- **Where a record that is to finish throws**, there is a zombie. -/
theorem Sane.zombie {toLowerCase : JavaString → JavaString} {e : Trial} (h : Sane c)
    (hs : ¬Sturdy c e) : Zombie (c.trial toLowerCase e) := by
  simp only [Sturdy, not_forall, Bool.not_eq_false] at hs
  obtain ⟨r, hr, hact, hthrows⟩ := hs
  obtain ⟨event, throws, inner⟩ := e
  cases event with
  | register => cases hr
  | start => cases hr
  | input => cases hr
  | focused => cases hr
  | finish token =>
    have hr : c.recordForToken token = some r := by simpa [targets] using hr
    have hhas := h.has_of_recordForToken hr
    show Zombie (c.tryFinishByToken throws token).state
    rw [Backstack.tryFinishByToken, hr]
    dsimp only
    rw [if_neg (by simp [h.finishing r hhas])]
    exact h.zombie_of_throws hhas hact hthrows
  | finishActive =>
    have hr : c.activeRecord = some r := by simpa [targets] using hr
    show Zombie (c.tryFinishActive throws).state
    rw [Backstack.tryFinishActive, hr]
    exact h.zombie_of_throws (h.isTop_of_activeRecord hr).has hact hthrows
  | action next answers =>
    show Zombie (c.tryApplyAction throws inner toLowerCase next answers).state
    have hfresh : ∀ {action}, next.action = action → action ≠ java "focus-tab" →
        ¬c.isStale next = true := fun he hne => by simp [isStale, he, hne]
    rw [Backstack.tryApplyAction]
    rw [targets] at hr
    split_ifs at hr with hback hclose
    · rw [if_neg (hfresh hback (by decide)), if_pos hback]
      have hr := Option.mem_filter_iff.mp (Option.mem_toList.mp hr)
      have htab : (c.records r).tab ≠ java "launcher" := by simpa [hact] using hr.2
      have hhas := (h.isTop_of_activeRecord hr.1).has
      rw [Backstack.tryPerformBack, Option.mem_def.mp hr.1]
      dsimp only
      rw [if_neg (by simp [hact]), if_neg htab, if_neg (by simp [h.finishing r hhas])]
      exact h.zombie_of_throws hhas hact hthrows
    · obtain ⟨hclose, hhost⟩ := hclose
      rw [if_neg (hfresh hclose (by decide)), if_neg hback,
        if_neg (by rw [hclose]; decide), if_neg (by rw [hclose]; decide),
        if_neg (by rw [hclose]; decide), if_neg (by rw [hclose]; decide), if_pos hclose,
        if_neg (by simp [hhost])]
      cases htask : c.tasksByTab.lookup next.fields.tab with
      | none =>
        rw [htask, h.activityForTab_of_none htask] at hr
        cases hr
      | some t =>
        rw [htask] at hr
        have ht := (h.lookup_tab.mp htask).1
        obtain ⟨x, hx, d, heq, hzombie, hstack, htasks⟩ := tryFinishAll_throws
          (List.nodup_reverse.mpr (h.unrepeated t ht))
          (fun x hx => h.finishing x ⟨t, ht, List.mem_reverse.mp hx⟩) (List.mem_reverse.mpr hr)
          hact hthrows
        rw [Backstack.tryFinishTab, htask]
        dsimp only
        rw [tryCloseTask]
        dsimp only
        rw [heq, Attempt.andThen_true, Attempt.andThen_true]
        refine ⟨x, ⟨t, hstack ▸ ht, ?_⟩, hzombie⟩
        rw [htasks]
        exact List.mem_reverse.mp hx
    · cases hr

end

/-! ## Every run -/

/-- Tokens are told apart, whatever throws. -/
def Distinguished (toLowerCase : JavaString → JavaString) (c : Backstack) (e : Trial) : Prop :=
  Distinct toLowerCase c e.event

instance {toLowerCase : JavaString → JavaString} {c : Backstack} {e : Trial} :
    Decidable (Distinguished toLowerCase c e) :=
  inferInstanceAs (Decidable (Distinct toLowerCase c e.event))

/-- What the event promises. -/
def Promised (toLowerCase : JavaString → JavaString) (c : Backstack) (e : Trial) : Prop :=
  Served c (c.trial toLowerCase e) e.event

theorem sane_initial : Sane {} :=
  { kept_initial with named := nofun }

/-- **No zombies.** In every run, whatever else throws, each event is served
exactly where no record that is to finish throws in a method that
`finishRecord` calls. -/
theorem no_zombies (toLowerCase : JavaString → JavaString) (es : List Trial)
    (hd : Meets (trial toLowerCase) (Distinguished toLowerCase) {} es) :
    Meets (trial toLowerCase) (Promised toLowerCase) {} es ↔
      Meets (trial toLowerCase) Sturdy {} es := by
  refine meets_iff_meets (K := Sane) (fun c e h he hs => (h.trial he hs).sane)
    (fun c e h he => ⟨fun hserved => ?_, fun hs => (h.trial he hs).served⟩) sane_initial hd
  by_contra hs
  obtain ⟨r, hr, hfin⟩ : Zombie (c.trial toLowerCase e) := h.zombie hs
  rw [hserved.registered r hr] at hfin
  cases hfin

/-- The mail and the browser, and the user goes back from the browser while
one method of one record throws. -/
def backWhile (r : ℕ) (method : Callback) : List Trial :=
  mailThenBrowser.map (fun e => { event := e }) ++
    [{ event := .action { generation := 2, action := java "back" } {}
       throws := fun x m => x = r && m = method }]

/-- The mail is resumed and throws, and still it can be finished. -/
theorem no_zombies_backWhile :
    Meets (trial asciiLower) (Promised asciiLower) {}
      (backWhile 0 .onResume ++ [{ event := .finish (some 1) }]) :=
  (no_zombies asciiLower _ (by decide +kernel)).mpr (by decide +kernel)

/-- **A zombie.** The browser throws when it is paused to finish. -/
theorem zombie_left : ¬∀ es : List Trial,
    Meets (trial asciiLower) (Distinguished asciiLower) {} es →
      Meets (trial asciiLower) (Promised asciiLower) {} es := by
  intro hall
  obtain ⟨-, -, hserved, -⟩ := hall (backWhile 1 .onPause) (by decide +kernel)
  have hgone := hserved.removed 1 (by decide +kernel)
  exact hgone.task ⟨1, by decide +kernel, by decide +kernel⟩

end Backstack

end Framework

end Muplar
