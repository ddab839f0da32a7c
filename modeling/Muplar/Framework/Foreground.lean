import Muplar.Framework.Backstack
/-!
# The framework — who is in the foreground

The tables of tasks agree after any sequence of operations
(`tables_agree`). That one record at most is in the foreground, and on top
of the active tab, is not kept by all of them: `registerActivityForTab`
and `startActivityInCurrentTask` put a record in front without asking who
is there, and the latter brings its caller back to the front where it has
been covered. Where neither happens, it holds in every state of a run
(`backstack_sound`).
-/

namespace Muplar

namespace Framework

namespace Backstack

open Machine LinkedMap Recent

variable {n : Prop} {c : Backstack} {r t : ℕ} {tab : JavaString}
variable (toLowerCase : JavaString → JavaString)

/-! ## Runs -/

/-- The record that `focusOrLaunchActivity` registers. -/
def launchRecord (c : Backstack) (next : LaunchFields JavaString) (answers : Answers) :
    Option ActivityRecord :=
  match c.focusTarget next with
  | some _ => none
  | none => (launchTarget next answers.installed).bind fun f =>
      launchActivity toLowerCase (some f.tab) (some f.apk) (some f.packageName) (some f.activity)
        answers.launched

/-- The record that an event registers. -/
def registered (c : Backstack) : Event → Option ActivityRecord
  | .register tab apk packageName activity value token =>
    some (newRecord toLowerCase tab apk packageName activity value token)
  | .start caller apkPath packageName activity launched =>
    launchActivity toLowerCase (c.startTab (caller.or c.activeRecord) packageName) apkPath
      packageName activity launched
  | .action next answers =>
    if c.isStale next = false ∧ next.action = java "focus-tab" ∧
        isHostTab next.fields.tab = false then
      c.launchRecord toLowerCase next.fields answers
    else none
  | _ => none

/-- Tokens are told apart: a record is given none that a record in a task
has. -/
def Distinct (c : Backstack) (e : Event) : Prop :=
  ∀ record ∈ c.registered toLowerCase e, ∀ k ∈ record.token, c.recordsByToken.lookup k = none

instance {e : Event} : Decidable (Distinct toLowerCase c e) :=
  inferInstanceAs (Decidable (∀ record ∈ c.registered toLowerCase e, ∀ k ∈ record.token,
    c.recordsByToken.lookup k = none))

/-- A task that is made is given a number no task has. -/
def Numbered (c : Backstack) (e : Event) : Prop :=
  ∀ record ∈ c.registered toLowerCase e, c.tasksByTab.lookup record.tab = none →
    c.tasks.lookup c.nextTaskId = none

instance {e : Event} : Decidable (Numbered toLowerCase c e) :=
  inferInstanceAs (Decidable (∀ record ∈ c.registered toLowerCase e,
    c.tasksByTab.lookup record.tab = none → c.tasks.lookup c.nextTaskId = none))

/-- **Nobody is left in front**: a record is registered where none is in the
foreground, an activity is started from the one that is, and a caller
whose start has failed has not been covered. -/
def Clear (c : Backstack) : Event → Prop
  | .register .. => ∀ r, (c.records r).foreground = false
  | .start caller apkPath packageName activity launched =>
    if (c.registered toLowerCase (.start caller apkPath packageName activity launched)).isSome then
      ∀ r, (c.records r).foreground = true → caller.or c.activeRecord = some r
    else
      ∀ r ∈ caller.or c.activeRecord, (c.records r).activity = true → c.IsTop r
  | _ => True

/-- **What is promised**: the tables agree, and one record at most is in the
foreground, the top one of the active tab. -/
structure Sound (c : Backstack) : Prop where
  agree : Agree c
  one : ∀ r s, (c.records r).foreground = true → (c.records s).foreground = true → r = s
  top : InFront c

/-! ## The tables -/

variable {toLowerCase}

theorem fresh_newRecord {tab apk packageName activity : Option JavaString} {value : Bool}
    {token : Option ℕ} (h : ∀ k, token = some k → c.recordsByToken.lookup k = none) :
    Fresh c (newRecord toLowerCase tab apk packageName activity value token) :=
  ⟨id, rfl, h⟩

theorem fresh_launched {tab apkPath packageName activity : Option JavaString}
    {launched : Option Launched} {record : ActivityRecord}
    (hr : launchActivity toLowerCase tab apkPath packageName activity launched = some record)
    (h : ∀ k, record.token = some k → c.recordsByToken.lookup k = none) : Fresh c record := by
  rw [launchActivity] at hr
  split_ifs at hr
  obtain ⟨l, -, rfl⟩ := Option.map_eq_some_iff.mp hr
  exact fresh_newRecord h

theorem pauseCurrent_cases (c : Backstack) (current : Option ℕ) :
    c.pauseCurrent current = c ∨
      ∃ r, current = some r ∧ (c.records r).foreground = true ∧
        c.pauseCurrent current = c.background r := by
  cases current with
  | none => exact Or.inl rfl
  | some r =>
    rw [pauseCurrent]
    split_ifs with hr
    · exact Or.inr ⟨r, rfl, hr, rfl⟩
    · exact Or.inl rfl

/-- A pause changes nothing a registration depends on. -/
theorem Kept.register_paused (h : Kept n c) {c' : Backstack} {record : ActivityRecord}
    (hc : c' = c ∨ ∃ r, c' = c.background r) (hf : Fresh c record)
    (hid : n → c.tasksByTab.lookup record.tab = none → c.tasks.lookup c.nextTaskId = none) :
    Kept n (c'.register record) := by
  rcases hc with rfl | ⟨r, rfl⟩
  · exact h.register hf hid
  · exact h.background.register ⟨hf.foreground, hf.finishing, hf.token⟩ hid

theorem Kept.pauseCurrent (h : Kept n c) {current : Option ℕ} :
    Kept n (c.pauseCurrent current) := by
  rcases pauseCurrent_cases c current with he | ⟨r, -, -, he⟩
  · rwa [he]
  · rw [he]
    exact h.background

theorem Kept.startActivity (h : Kept n c) {caller : Option ℕ}
    {apkPath packageName activity : Option JavaString} {launched : Option Launched}
    (hd : Distinct toLowerCase c (.start caller apkPath packageName activity launched))
    (hn : n → Numbered toLowerCase c (.start caller apkPath packageName activity launched)) :
    Kept n (c.startActivityInCurrentTask toLowerCase caller apkPath packageName activity
      launched) := by
  rw [startActivityInCurrentTask]
  split
  case h_1 record hr =>
    refine h.register_paused ?_ (fresh_launched hr (hd record hr)) (fun hn' => hn hn' record hr)
    exact (pauseCurrent_cases c _).imp_right fun ⟨r, _, _, he⟩ => ⟨r, he⟩
  case h_2 => exact h.pauseCurrent.focusRecord _

theorem Kept.focusOrLaunch (h : Kept n c) {next : LaunchFields JavaString} {answers : Answers}
    (hd : ∀ record ∈ c.launchRecord toLowerCase next answers, ∀ k, record.token = some k →
      c.recordsByToken.lookup k = none)
    (hn : n → ∀ record ∈ c.launchRecord toLowerCase next answers,
      c.tasksByTab.lookup record.tab = none → c.tasks.lookup c.nextTaskId = none) :
    Kept n (c.focusOrLaunchActivity toLowerCase next answers) := by
  rw [focusOrLaunchActivity]
  split
  case h_1 => exact h.focusRecord _
  case h_2 hnone =>
    rw [launchRecord, hnone] at hd hn
    split
    case h_1 => exact h.focusRecord _
    case h_2 f hf =>
      rw [hf] at hd hn
      split
      case h_1 record hr =>
        refine h.register_paused ?_ (fresh_launched hr (hd record hr)) (fun hn' => hn hn' record hr)
        exact (moveActive_cases c).imp_right fun ⟨r, _, he⟩ => ⟨r, he⟩
      case h_2 => exact h.moveActive

theorem Kept.applyAction (h : Kept n c) {next : DeviceAction} {answers : Answers}
    (hd : Distinct toLowerCase c (.action next answers))
    (hn : n → Numbered toLowerCase c (.action next answers)) :
    Kept n (c.applyActionOnMain toLowerCase next answers) := by
  rw [applyActionOnMain]
  split_ifs with hstale _ _ _ _ hfocus _ hhost
  · exact h
  · exact h.performBack
  · exact h.goHome
  · exact h.toggleAllApps
  · exact h.toggleRecents
  · exact h.focusRecord _
  · exact h
  · have hcond : c.isStale next = false ∧ next.action = java "focus-tab" ∧
        isHostTab next.fields.tab = false := ⟨by simpa using hstale, hfocus, by simpa using hhost⟩
    rw [Distinct, registered, if_pos hcond] at hd
    rw [Numbered, registered, if_pos hcond] at hn
    exact h.focusOrLaunch hd hn
  · exact h
  · exact h.finishTab _
  · exact h

/-- **One event keeps the tables**, where tokens and numbers are told
apart. -/
theorem Kept.next (h : Kept n c) {e : Event} (hd : Distinct toLowerCase c e)
    (hn : n → Numbered toLowerCase c e) : Kept n (c.next toLowerCase e) := by
  cases e with
  | register tab apk packageName activity value token =>
    exact h.register (fresh_newRecord (hd _ rfl)) (fun hn' => hn hn' _ rfl)
  | start => exact h.startActivity hd hn
  | action => exact h.applyAction hd hn
  | input => exact h.applyInputOnMain
  | finish => exact h.finishActivityByToken
  | finishActive => exact h.finishActiveActivity
  | focused => exact { h with nonempty := h.nonempty, activities := h.activities }

theorem kept_initial : Kept n {} where
  nodup := List.nodup_nil
  tasks := fun _ _ => by simp
  tasksByTab := fun _ _ => by simp
  activityStack := rfl
  once := List.nodup_nil
  recordsByToken := fun _ _ => by simp [Has]
  unrepeated := nofun
  task := nofun
  tab := nofun
  finishing := fun _ _ => rfl
  activity := nofun
  foreground := nofun
  record_lt := fun _ ⟨_, ht, _⟩ => nomatch ht
  task_lt := nofun
  nonempty := nofun
  activities := fun _ => rfl

/-! ## Who is in front -/

namespace InFront

variable (hf : InFront c)
include hf

theorem one {s : ℕ} (hr : (c.records r).foreground = true) (hs : (c.records s).foreground = true) :
    r = s :=
  Option.some.inj ((hf r hr).symm.trans (hf s hs))

/-- Who is in the foreground is the active record. -/
theorem activeRecord (h : Kept n c) (hr : (c.records r).foreground = true) :
    c.activeRecord = some r := by
  rw [Backstack.activeRecord, h.activityForTab, hf r hr, Option.some_or]

/-- **Nobody is in front** once the active record is in the background. -/
theorem moveActive_none (h : Kept n c) (x : ℕ) :
    ((c.moveActiveActivityToBackground).records x).foreground = false := by
  by_contra hx
  rw [Bool.not_eq_false] at hx
  rw [moveActiveActivityToBackground] at hx
  split at hx
  case h_1 hnone => simp [hf.activeRecord h hx] at hnone
  case h_2 r hr =>
    split_ifs at hx with hcond
    · have hxr : x = r := Option.some.inj ((hf.activeRecord h hx).symm.trans hr)
      subst hxr
      simp [h.foreground x hx, hx] at hcond
    · by_cases hxr : x = r
      · subst hxr
        simp [background, setRecord] at hx
      · have hold : (c.records x).foreground = true := by
          simpa [background, setRecord, hxr] using hx
        exact hxr (Option.some.inj ((hf.activeRecord h hold).symm.trans hr))

/-- And nobody but the one that comes, once the record before has left. -/
theorem leavePrevious_others (h : Kept n c) {x : ℕ}
    (hx : ((c.leavePrevious r).records x).foreground = true) : x = r := by
  rw [leavePrevious] at hx
  split at hx
  case h_1 hnone => simp [hf.activeRecord h hx] at hnone
  case h_2 p hp =>
    split_ifs at hx with hpr
    · rw [← hpr]
      exact Option.some.inj ((hf.activeRecord h hx).symm.trans hp)
    · rw [hf.moveActive_none h x] at hx
      cases hx

end InFront

theorem topOfTab_leavePrevious : (c.leavePrevious r).topOfTab tab = c.topOfTab tab := by
  rcases leavePrevious_cases c r with he | ⟨p, -, -, he⟩
  · rw [he]
  · rw [he]
    rfl

theorem leavePrevious_tab : ((c.leavePrevious r).records r).tab = (c.records r).tab := by
  rcases leavePrevious_cases c r with he | ⟨p, hne, -, he⟩
  · rw [he]
  · rw [he, background, setRecord_of_ne hne.symm]

theorem inFront_resume (hothers : ∀ x, (c.records x).foreground = true → x = r)
    (htop : c.topOfTab (c.records r).tab = some r) : InFront (c.resume r) := by
  intro x hx
  rw [resume] at hx ⊢
  split_ifs at hx ⊢
  · rw [hothers x hx]
    exact htop
  · by_cases hxr : x = r
    · rw [hxr]
      exact htop
    · rw [setRecord_of_ne hxr] at hx
      exact absurd (hothers x hx) hxr

theorem inFront_of_none (h : ∀ x, (c.records x).foreground = false) : InFront c := fun x hx => by
  rw [h x] at hx
  cases hx

/-- **Who is focused is in front**, where it is on top of its task. -/
theorem InFront.focusRecord (hf : InFront c) (h : Kept n c) {record : Option ℕ}
    (hr : ∀ r ∈ record, (c.records r).activity = true → c.IsTop r) :
    InFront (c.focusRecord record) := by
  cases record with
  | none => exact hf
  | some r =>
    rw [Backstack.focusRecord]
    split_ifs with hact
    · exact hf
    have hact : (c.records r).activity = true := by simpa using hact
    obtain ⟨t, ht, htop⟩ := hr r rfl hact
    have hpush := h.pushTaskStack (h.activity r hact)
    have hpushf : InFront (c.pushTaskStack r) := hf
    refine inFront_resume (fun x hx => hpushf.leavePrevious_others hpush hx) ?_
    rw [topOfTab_leavePrevious, leavePrevious_tab]
    show c.topOfTab (c.records r).tab = some r
    rw [h.tab t ht r (mem_of_topOf htop), h.topOfTab_self ht, htop]

/-- A pause keeps who is in front. -/
theorem InFront.background (hf : InFront c) : InFront (c.background r) := by
  intro x hx
  by_cases hxr : x = r
  · subst hxr
    simp [Backstack.background, setRecord] at hx
  · rw [Backstack.background, setRecord_of_ne hxr] at hx
    exact hf x hx

/-- **A record that is registered is in front**, where nobody was. -/
theorem Kept.inFront_register (h : Kept n c) {record : ActivityRecord}
    (hid : n → c.tasksByTab.lookup record.tab = none → c.tasks.lookup c.nextTaskId = none)
    (hnone : ∀ x, (c.records x).foreground = false) : InFront (c.register record) := by
  obtain ⟨c', t, hready, heq⟩ := h.register_eq hid
  rw [heq]
  intro x hx
  by_cases hxn : x = c'.nextRecord
  · show (c'.pushRecord t record).topOfTab record.tab = some x
    rw [hready.tables.topOfTab_pushed hready.mem hready.tab, if_pos rfl, hxn]
  · rw [pushed_of_ne hxn, hready.records, hnone x] at hx
    cases hx

/-! ### Finishing -/

theorem getLast?_filter {α : Type*} {p : α → Bool} {l : List α} {a : α}
    (h : l.getLast? = some a) (ha : p a = true) : (l.filter p).getLast? = some a := by
  obtain ⟨l', rfl⟩ := List.getLast?_eq_some_iff.mp h
  rw [List.filter_append, List.filter_cons_of_pos ha, List.filter_nil, List.getLast?_concat]

/-- Records that finish leave the others as they were. -/
theorem InFront.takenOff {c' : Backstack} {rs : List ℕ} (hf : InFront c)
    (ho : TakenOff c c' t rs) : InFront c' := by
  intro x hx
  have hxrs : x ∉ rs := fun hxrs => by
    rw [ho.foreground x hxrs] at hx
    cases hx
  rw [ho.record x hxrs] at hx
  obtain ⟨t', ht', htop⟩ := Option.bind_eq_some_iff.mp (hf x hx)
  rw [topOfTab, ho.tasksByTab, ho.activeTab, ht', Option.bind_some]
  by_cases he : t' = t
  · subst he
    rw [topOf, ho.stack]
    exact getLast?_filter htop (by simpa using hxrs)
  · rw [topOf, ho.other t' he]
    exact htop

/-- So does an empty task that is dropped. -/
theorem InFront.drop (hf : InFront c) (h : Tables n c) (ht : t ∈ c.taskStack)
    (hempty : (c.taskRecords t).activityStack = []) :
    InFront ((c.dropTask t).dropTab (c.taskRecords t).tab) := by
  intro x hx
  have htop := hf x hx
  rw [Tables.topOfTab_dropped]
  have hne : c.activeTab ≠ (c.taskRecords t).tab := fun he => by
    rw [he, h.topOfTab_self ht, topOf, TaskRecord.topActivity, hempty] at htop
    cases htop
  exact (if_neg hne).trans htop

/-- Nobody is in front where the active tab has no task. -/
theorem InFront.none_of_topOfTab (hf : InFront c) (h : c.topOfTab c.activeTab = none) (x : ℕ) :
    (c.records x).foreground = false := by
  by_contra hx
  rw [hf x (by simpa using hx)] at h
  cases h

theorem topOfTab_dropped_self : ((c.dropTask t).dropTab (c.taskRecords t).tab).topOfTab
    (c.taskRecords t).tab = none := by
  rw [Tables.topOfTab_dropped, if_pos rfl]

/-- Where nobody is in front, another tab may become active. -/
theorem Kept.inFront_moveTo (h : Kept n c) (hnone : ∀ x, (c.records x).foreground = false)
    (newTab tab : JavaString) : InFront ({ c with activeTab := newTab }.focusRecord
      ({ c with activeTab := newTab }.activityForTab tab)) :=
  have hmoved : InFront { c with activeTab := newTab } := inFront_of_none hnone
  hmoved.focusRecord (h.activeTab newTab) fun _ hx _ =>
    (h.activeTab newTab).isTop_of_activityForTab hx

/-- **Finishing an activity** leaves the front to who was there, or to who
comes after it. -/
theorem Kept.inFront_finishAndRemove (h : Kept n c) (hf : InFront c) (hr : c.Has r) :
    InFront (c.finishAndRemoveActivity r) := by
  obtain ⟨t, ht, hmem⟩ := hr
  have ho := h.takenOff_removed ht hmem
  have hfo := hf.takenOff ho
  rw [Backstack.finishAndRemoveActivity, h.task t ht r hmem]
  dsimp only
  split
  case h_1 newTop htop =>
    have hfput : InFront ((((c.finishRecord r).forgetTokens [r]).removeActivity t r).putTop t
        newTop) := hfo
    refine hfput.focusRecord (ho.kept_putTop h ht htop) fun x hx _ => ?_
    obtain rfl := Option.some.inj hx
    exact ⟨t, ho.taskStack ▸ ht, htop⟩
  case h_2 htop =>
    have hempty := List.getLast?_eq_none_iff.mp htop
    have hdrop := ho.kept_drop h ht hempty
    have hfdrop := hfo.drop (ho.tables h.toTables ht) (ho.taskStack ▸ ht) hempty
    rw [leaveTab, h.tab t ht r hmem]
    rw [ho.taken_tab t] at hfdrop
    dsimp only
    split_ifs with hactive
    · -- the active tab has no task any more
      refine hdrop.inFront_moveTo (hfdrop.none_of_topOfTab ?_) _ _
      show Backstack.topOfTab _ (((c.finishRecord r).forgetTokens [r]).removeActivity t r).activeTab
        = none
      rw [← hactive, ← ho.taken_tab t, topOfTab_dropped_self]
    · exact hfdrop

theorem Kept.inFront_closeTask (h : Kept n c) (hf : InFront c) (ht : t ∈ c.taskStack) :
    InFront (c.closeTask t) := by
  have ho := h.takenOff_emptied ht
  have hdrop := (hf.takenOff ho).drop (ho.tables h.toTables ht) (ho.taskStack ▸ ht)
    (by rw [ho.stack]; simp)
  rwa [ho.taken_tab t] at hdrop

theorem Kept.inFront_finishTab (h : Kept n c) (hf : InFront c) : InFront (c.finishTab tab) := by
  rw [Backstack.finishTab]
  split
  case h_1 t ht =>
    obtain ⟨hmem, htab⟩ := h.lookup_tab.mp ht
    have hclosed := h.closeTask hmem
    have hfclosed := h.inFront_closeTask hf hmem
    dsimp only
    split_ifs with hactive
    · refine hclosed.inFront_moveTo (hfclosed.none_of_topOfTab ?_) _ _
      have hself := topOfTab_dropped_self (c := c.emptied t) (t := t)
      rw [(h.takenOff_emptied hmem).taken_tab t] at hself
      rw [← hactive, ← htab]
      exact hself
    · exact hfclosed.focusRecord hclosed fun x hx _ => hclosed.isTop_of_activityForTab hx
  case h_2 hnone =>
    rw [h.activityForTab_of_none hnone]
    exact hf

/-! ### The operations -/

theorem InFront.focusTop (hf : InFront c) (h : Kept n c) {record : Option ℕ}
    (hr : ∀ r ∈ record, c.IsTop r) : InFront (c.focusRecord record) :=
  hf.focusRecord h fun r hmem _ => hr r hmem

theorem InFront.goToState (hf : InFront c) (h : Kept n c) (hr : c.IsTop r) {reached : Bool} :
    InFront (c.goToState r reached) := by
  rw [Backstack.goToState]
  split_ifs
  · exact hf.focusTop h fun x hx => Option.some.inj hx ▸ hr
  · exact hf

theorem InFront.performBack (hf : InFront c) (h : Kept n c) {reached : Bool} :
    InFront (c.performBack reached) := by
  rw [Backstack.performBack]
  split
  case h_1 => exact hf
  case h_2 r hr =>
    have htop := h.isTop_of_activeRecord hr
    split_ifs
    · exact hf
    · exact hf.goToState h htop
    · exact hf
    · exact h.inFront_finishAndRemove hf htop.has

/-- A record that was on top stays there while others are focused. -/
theorem IsTop.focusRecord (hr : c.IsTop r) (h : Kept n c) {record : Option ℕ} :
    (c.focusRecord record).IsTop r := by
  cases record with
  | none => exact hr
  | some x =>
    by_cases hact : (c.records x).activity = false
    · rwa [Backstack.focusRecord, if_pos hact]
    obtain ⟨t, ht, hx⟩ := h.activity x (by simpa using hact)
    obtain ⟨t', ht', htop⟩ := hr
    obtain ⟨b, heq, -⟩ := h.focusRecord_eq ht hx (by simpa using hact)
    rw [heq]
    exact ⟨t', (perm_use ht).mem_iff.mpr ht', htop⟩

theorem InFront.goHome (hf : InFront c) (h : Kept n c) {reached : Bool} :
    InFront (c.goHome reached) := by
  rw [Backstack.goHome]
  split
  case h_1 launcher hl =>
    have htop := h.isTop_of_activityForTab hl
    refine (hf.goToState h htop).focusTop h.goToState fun x hx => ?_
    obtain rfl := Option.some.inj hx
    rw [Backstack.goToState]
    split_ifs
    · exact htop.focusRecord h
    · exact htop
  case h_2 => exact inFront_of_none (hf.moveActive_none h)

theorem InFront.toggleAllApps (hf : InFront c) (h : Kept n c) {reached : Bool} :
    InFront (c.toggleAllApps reached) := by
  rw [Backstack.toggleAllApps]
  split
  case h_1 launcher hl =>
    refine hf.goToState h ?_
    rcases Option.or_eq_some_iff.mp hl with hl | ⟨-, hl⟩
    · exact h.isTop_of_activityForTab hl
    · exact h.isTop_of_activeRecord hl
  case h_2 => exact hf

theorem InFront.toggleRecents (hf : InFront c) (h : Kept n c) : InFront c.toggleRecents := by
  rw [Backstack.toggleRecents]
  split
  case h_1 top htop =>
    obtain ⟨t, ht, htop⟩ := Option.bind_eq_some_iff.mp htop
    refine hf.focusTop h fun x hx => Option.some.inj hx ▸ ⟨t, ?_, htop⟩
    exact List.dropLast_subset _ (List.mem_of_getLast? ht)
  case h_2 => exact hf.focusTop h fun x hx => h.isTop_of_topOfTab hx

theorem InFront.applyInputOnMain (hf : InFront c) (h : Kept n c) :
    InFront (c.applyInputOnMain tab) := by
  rw [Backstack.applyInputOnMain]
  split
  case h_1 r hr =>
    split_ifs
    · exact hf
    · exact hf.focusTop h fun x hx => Option.some.inj hx ▸ h.isTop_of_inputRecord hr
  case h_2 => exact hf

theorem InFront.finishActivityByToken (hf : InFront c) (h : Kept n c) {token : Option ℕ} :
    InFront (c.finishActivityByToken token) := by
  rw [Backstack.finishActivityByToken]
  split
  case h_1 r hr =>
    split_ifs
    · exact hf
    · exact h.inFront_finishAndRemove hf (h.has_of_recordForToken hr)
  case h_2 => exact hf

theorem InFront.finishActiveActivity (hf : InFront c) (h : Kept n c) :
    InFront c.finishActiveActivity := by
  rw [Backstack.finishActiveActivity]
  split
  case h_1 r hr => exact h.inFront_finishAndRemove hf (h.isTop_of_activeRecord hr).has
  case h_2 => exact hf

/-- A registration behind a pause that leaves nobody in front. -/
theorem Kept.inFront_register_paused (h : Kept n c) {c' : Backstack} {record : ActivityRecord}
    (hc : c' = c ∨ ∃ r, c' = c.background r)
    (hid : n → c.tasksByTab.lookup record.tab = none → c.tasks.lookup c.nextTaskId = none)
    (hnone : ∀ x, (c'.records x).foreground = false) : InFront (c'.register record) := by
  rcases hc with rfl | ⟨r, rfl⟩
  · exact h.inFront_register hid hnone
  · exact h.background.inFront_register hid hnone

/-- Nobody is in front after the pause, where it was the current activity. -/
theorem pauseCurrent_none {current : Option ℕ}
    (hc : ∀ x, (c.records x).foreground = true → current = some x) (x : ℕ) :
    ((c.pauseCurrent current).records x).foreground = false := by
  by_contra hx
  rw [Bool.not_eq_false] at hx
  have hold : (c.records x).foreground = true := by
    rcases pauseCurrent_cases c current with he | ⟨r, -, -, he⟩
    · rwa [he] at hx
    · rw [he] at hx
      by_cases hxr : x = r
      · subst hxr
        simp [background] at hx
      · rwa [background, setRecord_of_ne hxr] at hx
  rw [hc x hold, pauseCurrent, if_pos hold, background, setRecord_self] at hx
  cases hx

theorem InFront.startActivity (hf : InFront c) (h : Kept n c) {caller : Option ℕ}
    {apkPath packageName activity : Option JavaString} {launched : Option Launched}
    (hn : n → Numbered toLowerCase c (.start caller apkPath packageName activity launched))
    (hclear : Clear toLowerCase c (.start caller apkPath packageName activity launched)) :
    InFront (c.startActivityInCurrentTask toLowerCase caller apkPath packageName activity
      launched) := by
  rw [startActivityInCurrentTask]
  split
  case h_1 record hr =>
    refine h.inFront_register_paused ?_ (fun hn' => hn hn' record hr) fun x => ?_
    · exact (pauseCurrent_cases c _).imp_right fun ⟨r, _, _, he⟩ => ⟨r, he⟩
    -- whoever is in front is the activity that starts the new one
    rw [Clear, registered, hr] at hclear
    exact pauseCurrent_none ((if_pos (rfl : (some record).isSome = true)).mp hclear) x
  case h_2 hr =>
    rw [Clear, registered, hr] at hclear
    have hclear := (if_neg nofun).mp hclear
    rcases pauseCurrent_cases c (caller.or c.activeRecord) with he | ⟨r, -, -, he⟩
    · rw [he]
      exact hf.focusRecord h hclear
    · rw [he]
      refine hf.background.focusRecord h.background fun x hx hact => ?_
      exact hclear x hx (background_activity.symm.trans hact)

theorem InFront.focusOrLaunch (hf : InFront c) (h : Kept n c) {next : LaunchFields JavaString}
    {answers : Answers} (hn : n → ∀ record ∈ c.launchRecord toLowerCase next answers,
      c.tasksByTab.lookup record.tab = none → c.tasks.lookup c.nextTaskId = none) :
    InFront (c.focusOrLaunchActivity toLowerCase next answers) := by
  rw [focusOrLaunchActivity]
  split
  case h_1 r hr =>
    have hr := (Option.filter_eq_some_iff.mp hr).1
    exact hf.focusTop h fun x hx => Option.some.inj hx ▸ h.isTop_of_activityForTab hr
  case h_2 hnone =>
    rw [launchRecord, hnone] at hn
    split
    case h_1 => exact hf.focusTop h fun x hx => h.isTop_of_activeRecord hx
    case h_2 f hfields =>
      rw [hfields] at hn
      split
      case h_1 record hr =>
        refine h.inFront_register_paused ?_ (fun hn' => hn hn' record hr) (hf.moveActive_none h)
        exact (moveActive_cases c).imp_right fun ⟨r, _, he⟩ => ⟨r, he⟩
      case h_2 => exact inFront_of_none (hf.moveActive_none h)

theorem InFront.applyAction (hf : InFront c) (h : Kept n c) {next : DeviceAction}
    {answers : Answers} (hn : n → Numbered toLowerCase c (.action next answers)) :
    InFront (c.applyActionOnMain toLowerCase next answers) := by
  rw [applyActionOnMain]
  split_ifs with hstale _ _ _ _ hfocus _ hhost
  · exact hf
  · exact hf.performBack h
  · exact hf.goHome h
  · exact hf.toggleAllApps h
  · exact hf.toggleRecents h
  · exact hf.focusTop h fun x hx => h.isTop_of_activityForTab hx
  · exact hf
  · have hcond : c.isStale next = false ∧ next.action = java "focus-tab" ∧
        isHostTab next.fields.tab = false := ⟨by simpa using hstale, hfocus, by simpa using hhost⟩
    rw [Numbered, registered, if_pos hcond] at hn
    exact hf.focusOrLaunch h hn
  · exact hf
  · exact h.inFront_finishTab hf
  · exact hf

/-- **One event keeps the front**, where it leaves nobody there. -/
theorem InFront.next (hf : InFront c) (h : Kept n c) {e : Event}
    (hn : n → Numbered toLowerCase c e) (hclear : Clear toLowerCase c e) :
    InFront (c.next toLowerCase e) := by
  cases e with
  | register => exact h.inFront_register (fun hn' => hn hn' _ rfl) hclear
  | start => exact hf.startActivity h hn hclear
  | action => exact hf.applyAction h hn
  | input => exact hf.applyInputOnMain h
  | finish => exact hf.finishActivityByToken h
  | finishActive => exact hf.finishActiveActivity h
  | focused => exact hf

/-! ## Every state of a run -/

/-- **The tables agree** in every state of a run, whatever the operations
and whoever is in front. -/
theorem tables_agree {es : List Event}
    (hd : Meets (Backstack.next toLowerCase) (Distinct toLowerCase) {} es)
    (hn : Meets (Backstack.next toLowerCase) (Numbered toLowerCase) {} es) :
    Throughout (Backstack.next toLowerCase) Agree {} es :=
  (throughout_of_invariant (K := Kept True) (fun _ _ h he => h.next he.1 fun _ => he.2) kept_initial
    (hd.and hn)).mono fun _ h => h.agree

/-- What an event may do that keeps the promise. -/
structure Orderly (toLowerCase : JavaString → JavaString) (c : Backstack) (e : Event) : Prop where
  numbered : Numbered toLowerCase c e
  clear : Clear toLowerCase c e

/-- **Tasks and the back stack.** Where tokens are told apart, the tables
agree in every state of a run and one record at most is in the foreground,
the top one of the active tab — as long as a registration and a start find
nobody in front but the activity that starts, a caller is not brought back
from under another activity, and the numbers of tasks have not come
round. -/
theorem backstack_sound (toLowerCase : JavaString → JavaString) {es : List Event}
    (hd : Meets (Backstack.next toLowerCase) (Distinct toLowerCase) {} es)
    (ho : Meets (Backstack.next toLowerCase) (Orderly toLowerCase) {} es) :
    Throughout (Backstack.next toLowerCase) Sound {} es := by
  refine (throughout_of_invariant (K := fun c => Kept True c ∧ InFront c) (fun c e h he => ?_)
    ⟨kept_initial, inFront_of_none fun _ => rfl⟩ (hd.and ho)).mono fun c h => ?_
  · exact ⟨h.1.next he.1 fun _ => he.2.numbered,
      h.2.next h.1 (fun _ => he.2.numbered) he.2.clear⟩
  · exact ⟨h.1.agree, fun _ _ hr hs => h.2.one hr hs, h.2⟩

/-- A `toLowerCase` that knows the letters of ASCII only. -/
def asciiLower (s : JavaString) : JavaString :=
  s.map fun u => if 65 ≤ u ∧ u ≤ 90 then u + 32 else u

/-- The mail is launched from the start of the process, then the browser
from the host. -/
def mailThenBrowser : List Event :=
  [.register (some (java "mail")) none (some (java "mail")) (some (java "mail.Inbox")) true
      (some 1),
    .action
      { generation := 1, action := java "focus-tab"
        fields := ⟨java "web", java "web.apk", java "web", java "web.Page", []⟩ }
      { launched := some ⟨some 2⟩ }]

theorem backstack_sound_mailThenBrowser :
    Throughout (next asciiLower) Sound {}
      (mailThenBrowser ++
        [.action { generation := 2, action := java "back" } {}, .finish (some 1)]) := by
  refine backstack_sound asciiLower (by decide +kernel) ?_
  refine ⟨⟨by decide +kernel, fun _ => rfl⟩, ⟨by decide +kernel, trivial⟩,
    ⟨by decide +kernel, trivial⟩, ⟨by decide +kernel, trivial⟩, trivial⟩

/-- The tables agree where two records are in front: the mail starts an
activity while the browser is active. -/
theorem tables_agree_two :
    Throughout (next asciiLower) Agree {}
      (mailThenBrowser ++
        [.start (some 0) (some (java "mail.apk")) (some (java "mail")) (some (java "mail.Letter"))
          (some ⟨some 3⟩)]) :=
  tables_agree (by decide +kernel) (by decide +kernel)

/-- **Two records are in front.** The mail starts an activity while the
browser is active. -/
theorem two_in_front : ¬∀ es : List Event,
    Meets (next asciiLower) (Distinct asciiLower) {} es →
      Throughout (next asciiLower) Sound {} es := by
  intro hall
  have hlast := (hall (mailThenBrowser ++
    [.start (some 0) (some (java "mail.apk")) (some (java "mail")) (some (java "mail.Letter"))
      (some ⟨some 3⟩)]) (by decide +kernel)).last
  exact absurd (hlast.one 1 2 (by decide +kernel) (by decide +kernel)) (by decide)

end Backstack

end Framework

end Muplar
