import Muplar.Framework.Tasks
/-!
# The framework — the tables agree

Every operation on activities moves several tables at once. What they do
comes down to a few changes: a task is opened for a tab, a record is
pushed on it, records are taken off it, a task without records is dropped,
a task comes last on the stacks, and a record enters or leaves the
foreground. Each of these keeps the tables of tasks in agreement, and with
every task that is left without a record dropped, `Kept` is an invariant
of all operations.
-/

namespace Muplar

namespace Framework

namespace Backstack

open LinkedMap Recent

variable {n : Prop} {c c' : Backstack} {r t : ℕ} {tab : JavaString}

/-- The record is in a task. -/
def Has (c : Backstack) (r : ℕ) : Prop :=
  ∃ t ∈ c.taskStack, r ∈ (c.taskRecords t).activityStack

/-- The record is the top activity of a task. -/
def IsTop (c : Backstack) (r : ℕ) : Prop :=
  ∃ t ∈ c.taskStack, c.topOf t = some r

/-- The top activity of a tab's task. -/
def topOfTab (c : Backstack) (tab : JavaString) : Option ℕ :=
  (c.tasksByTab.lookup tab).bind c.topOf

/-- **The tables agree**: the tasks are the same everywhere and none is
empty, the tabs are theirs in the same order, every tab has the top
activity of its task, and the tokens are those of the records in tasks. -/
structure Agree (c : Backstack) : Prop where
  nodup : c.taskStack.Nodup
  nonempty : ∀ t ∈ c.taskStack, (c.taskRecords t).activityStack ≠ []
  tasks : Indexes c.tasks (fun t => some (c.taskRecords t).taskId) (· ∈ c.taskStack)
  tasksByTab : Indexes c.tasksByTab (fun t => some (c.taskRecords t).tab) (· ∈ c.taskStack)
  activityStack : c.activityStack = c.taskStack.map fun t => (c.taskRecords t).tab
  once : c.activityStack.Nodup
  activities : ∀ tab, c.activities.lookup tab = c.topOfTab tab
  recordsByToken : Indexes c.recordsByToken (fun r => (c.records r).token) c.Has

/-- **One record at most is in the foreground**, the top activity of the
active tab. -/
def InFront (c : Backstack) : Prop :=
  ∀ r, (c.records r).foreground = true → c.topOfTab c.activeTab = some r

/-- **The tables of tasks**, where a task may be empty still: besides what
is the same everywhere, no task has a record twice, a record knows its
task, and only a record in a task has an activity. The numbers of tasks,
which no operation looks at, are left out where they may come round. -/
structure Tables (n : Prop) (c : Backstack) : Prop where
  nodup : c.taskStack.Nodup
  tasks : n → Indexes c.tasks (fun t => some (c.taskRecords t).taskId) (· ∈ c.taskStack)
  tasksByTab : Indexes c.tasksByTab (fun t => some (c.taskRecords t).tab) (· ∈ c.taskStack)
  activityStack : c.activityStack = c.taskStack.map fun t => (c.taskRecords t).tab
  once : c.activityStack.Nodup
  recordsByToken : Indexes c.recordsByToken (fun r => (c.records r).token) c.Has
  unrepeated : ∀ t ∈ c.taskStack, (c.taskRecords t).activityStack.Nodup
  task : ∀ t ∈ c.taskStack, ∀ r ∈ (c.taskRecords t).activityStack, (c.records r).task = some t
  tab : ∀ t ∈ c.taskStack, ∀ r ∈ (c.taskRecords t).activityStack,
    (c.records r).tab = (c.taskRecords t).tab
  finishing : ∀ r, c.Has r → (c.records r).finishing = false
  activity : ∀ r, (c.records r).activity = true → c.Has r
  foreground : ∀ r, (c.records r).foreground = true → (c.records r).activity = true
  record_lt : ∀ r, c.Has r → r < c.nextRecord
  task_lt : ∀ t ∈ c.taskStack, t < c.nextTask

/-- **What every operation keeps.** -/
structure Kept (n : Prop) (c : Backstack) : Prop extends Tables n c where
  nonempty : ∀ t ∈ c.taskStack, (c.taskRecords t).activityStack ≠ []
  activities : ∀ tab, c.activities.lookup tab = c.topOfTab tab

theorem Kept.agree (h : Kept True c) : Agree c :=
  ⟨h.nodup, h.nonempty, h.tasks trivial, h.tasksByTab, h.activityStack, h.once, h.activities,
    h.recordsByToken⟩

namespace Tables

variable (h : Tables n c)
include h

theorem tab_inj {t t' : ℕ} (ht : t ∈ c.taskStack) (ht' : t' ∈ c.taskStack)
    (he : (c.taskRecords t).tab = (c.taskRecords t').tab) : t = t' :=
  h.tasksByTab.inj ht ht' rfl (congrArg some he.symm)

/-- The tables without the numbers of tasks. -/
theorem unnumbered : Tables False c :=
  { h with tasks := nofun }

theorem lookup_tab : c.tasksByTab.lookup tab = some t ↔
    t ∈ c.taskStack ∧ (c.taskRecords t).tab = tab := by
  rw [h.tasksByTab tab t, Option.some_inj]

/-- A record is in one task. -/
theorem owner {t t' : ℕ} (ht : t ∈ c.taskStack) (hr : r ∈ (c.taskRecords t).activityStack)
    (ht' : t' ∈ c.taskStack) (hr' : r ∈ (c.taskRecords t').activityStack) : t = t' := by
  have he := (h.task t ht r hr).symm.trans (h.task t' ht' r hr')
  exact Option.some.inj he

theorem topOfTab_eq_some : c.topOfTab tab = some r ↔
    ∃ t ∈ c.taskStack, (c.taskRecords t).tab = tab ∧ c.topOf t = some r := by
  rw [topOfTab, Option.bind_eq_some_iff]
  constructor
  · rintro ⟨t, ht, hr⟩
    exact ⟨t, (h.lookup_tab.mp ht).1, (h.lookup_tab.mp ht).2, hr⟩
  · rintro ⟨t, ht, htab, hr⟩
    exact ⟨t, h.lookup_tab.mpr ⟨ht, htab⟩, hr⟩

theorem topOfTab_self (ht : t ∈ c.taskStack) : c.topOfTab (c.taskRecords t).tab = c.topOf t := by
  rw [topOfTab, h.lookup_tab.mpr ⟨ht, rfl⟩, Option.bind_some]

end Tables

theorem mem_of_topOf (ht : c.topOf t = some r) : r ∈ (c.taskRecords t).activityStack :=
  List.mem_of_getLast? ht

theorem IsTop.has (h : c.IsTop r) : c.Has r := by
  obtain ⟨t, ht, hr⟩ := h
  exact ⟨t, ht, mem_of_topOf hr⟩

/-! ## In and out of the foreground -/

/-- The same with other records in the foreground. -/
def showing (c : Backstack) (b : ℕ → Bool) : Backstack :=
  { c with records := fun r => { c.records r with foreground := b r } }

theorem setForeground_eq_showing {v : Bool} :
    (c.setRecord r fun record => { record with foreground := v }) =
      c.showing (Function.update (fun x => (c.records x).foreground) r v) := by
  simp only [setRecord, showing, Backstack.mk.injEq, and_true]
  funext x
  by_cases hx : x = r
  · subst hx; simp
  · simp [hx]

theorem Tables.showing (h : Tables n c) {b : ℕ → Bool}
    (hb : ∀ r, b r = true → (c.records r).activity = true) : Tables n (c.showing b) :=
  { h with foreground := hb }

theorem Kept.showing (h : Kept n c) {b : ℕ → Bool}
    (hb : ∀ r, b r = true → (c.records r).activity = true) : Kept n (c.showing b) :=
  { h.toTables.showing hb with nonempty := h.nonempty, activities := h.activities }

theorem Kept.setForeground (h : Kept n c) {v : Bool}
    (hv : v = true → (c.records r).activity = true) :
    Kept n (c.setRecord r fun record => { record with foreground := v }) := by
  rw [setForeground_eq_showing]
  refine h.showing fun x hx => ?_
  by_cases hxr : x = r
  · subst hxr
    exact hv (by simpa using hx)
  · exact h.foreground x (by simpa [hxr] using hx)

/-! ## A task comes last -/

/-- The tables do not depend on the order of use. -/
theorem Tables.perm (h : Tables n c) {l : List ℕ} (hl : l.Perm c.taskStack) :
    Tables n { c with taskStack := l, activityStack := l.map fun t => (c.taskRecords t).tab } := by
  have hmem : ∀ t, t ∈ l ↔ t ∈ c.taskStack := fun t => hl.mem_iff
  have hhas : ∀ r, (∃ t ∈ l, r ∈ (c.taskRecords t).activityStack) ↔ c.Has r := fun r =>
    exists_congr fun t => and_congr_left' (hmem t)
  exact {
    nodup := hl.nodup_iff.mpr h.nodup
    tasks := fun hn => (h.tasks hn).congr hmem fun _ _ => rfl
    tasksByTab := h.tasksByTab.congr hmem fun _ _ => rfl
    activityStack := rfl
    once := (hl.map _).nodup_iff.mpr (h.activityStack ▸ h.once)
    recordsByToken := h.recordsByToken.congr hhas fun _ _ => rfl
    unrepeated := fun t ht => h.unrepeated t ((hmem t).mp ht)
    task := fun t ht => h.task t ((hmem t).mp ht)
    tab := fun t ht => h.tab t ((hmem t).mp ht)
    finishing := fun r hr => h.finishing r ((hhas r).mp hr)
    activity := fun r hr => (hhas r).mpr (h.activity r hr)
    foreground := h.foreground
    record_lt := fun r hr => h.record_lt r ((hhas r).mp hr)
    task_lt := fun t ht => h.task_lt t ((hmem t).mp ht) }

theorem Kept.perm (h : Kept n c) {l : List ℕ} (hl : l.Perm c.taskStack) :
    Kept n { c with taskStack := l, activityStack := l.map fun t => (c.taskRecords t).tab } :=
  { h.toTables.perm hl with
    nonempty := fun t ht => h.nonempty t (hl.mem_iff.mp ht)
    activities := h.activities }

/-- A use of the tabs is a use of the tasks. -/
theorem Tables.use_tab (h : Tables n c) (ht : t ∈ c.taskStack) :
    use (c.taskRecords t).tab c.activityStack =
      (use t c.taskStack).map fun t => (c.taskRecords t).tab := by
  rw [h.activityStack]
  exact map_use (fun t' ht' he => h.tab_inj ht' ht he) (h.activityStack ▸ h.once)

theorem Tables.pushTaskStack_eq (h : Tables n c) (ht : t ∈ c.taskStack)
    (hr : r ∈ (c.taskRecords t).activityStack) :
    c.pushTaskStack r =
      { c with taskStack := use t c.taskStack
               activityStack := (use t c.taskStack).map fun t => (c.taskRecords t).tab } := by
  rw [pushTaskStack, h.task t ht r hr, h.tab t ht r hr, h.use_tab ht]

theorem Kept.pushTaskStack (h : Kept n c) (hr : c.Has r) : Kept n (c.pushTaskStack r) := by
  obtain ⟨t, ht, hmem⟩ := hr
  rw [h.pushTaskStack_eq ht hmem]
  exact h.perm (perm_use ht)

/-! ## Focus -/

/-- The tab's activity is the top one of its task. -/
theorem Kept.activityForTab (h : Kept n c) : c.activityForTab tab = c.topOfTab tab := by
  rw [Backstack.activityForTab, h.activities, ← topOfTab, Option.or_self]

theorem Kept.isTop_of_topOfTab (h : Kept n c) (hr : c.topOfTab tab = some r) : c.IsTop r := by
  obtain ⟨t, ht, -, htop⟩ := h.topOfTab_eq_some.mp hr
  exact ⟨t, ht, htop⟩

theorem Kept.isTop_of_activityForTab (h : Kept n c) (hr : c.activityForTab tab = some r) :
    c.IsTop r :=
  h.isTop_of_topOfTab (h.activityForTab ▸ hr)

/-- **The active record is the top one of its task.** -/
theorem Kept.isTop_of_activeRecord (h : Kept n c) (hr : c.activeRecord = some r) : c.IsTop r := by
  rw [activeRecord] at hr
  rcases Option.or_eq_some_iff.mp hr with hr | ⟨-, hr⟩
  · exact h.isTop_of_activityForTab hr
  rcases Option.or_eq_some_iff.mp hr with hr | ⟨-, hr⟩
  · obtain ⟨t, ht, htop⟩ := Option.bind_eq_some_iff.mp hr
    exact ⟨t, List.mem_of_getLast? ht, htop⟩
  rcases Option.or_eq_some_iff.mp hr with hr | ⟨-, hr⟩
  · exact h.isTop_of_topOfTab (h.activities _ ▸ hr)
  · -- the first value of the map is the activity of its key
    obtain ⟨e, he, rfl⟩ := List.mem_map.mp (List.mem_of_head? hr)
    have hlook : c.activities.lookup e.1 = some e.2 := AList.mem_lookup_iff.mpr he
    exact h.isTop_of_topOfTab (h.activities _ ▸ hlook)

/-- What `moveActiveActivityToBackground` does. -/
theorem moveActive_cases (c : Backstack) :
    c.moveActiveActivityToBackground = c ∨
      ∃ r, c.activeRecord = some r ∧ c.moveActiveActivityToBackground = c.background r := by
  rw [moveActiveActivityToBackground]
  split
  case h_1 => exact Or.inl rfl
  case h_2 r hr =>
    split_ifs
    · exact Or.inl rfl
    · exact Or.inr ⟨r, hr, rfl⟩

theorem Kept.background (h : Kept n c) : Kept n (c.background r) :=
  h.setForeground nofun

theorem Kept.moveActive (h : Kept n c) : Kept n c.moveActiveActivityToBackground := by
  rcases moveActive_cases c with he | ⟨r, -, he⟩
  · rwa [he]
  · rw [he]
    exact h.background

/-- What `focusRecord` does to the record before. -/
theorem leavePrevious_cases (c : Backstack) (r : ℕ) :
    c.leavePrevious r = c ∨
      ∃ p, p ≠ r ∧ c.activeRecord = some p ∧ c.leavePrevious r = c.background p := by
  rw [leavePrevious]
  split
  case h_1 => exact Or.inl rfl
  case h_2 p hp =>
    split_ifs with hpr
    · exact Or.inl rfl
    · rcases moveActive_cases c with he | ⟨p', hp', he⟩
      · exact Or.inl he
      · exact Or.inr ⟨p', by rwa [Option.some.inj (hp'.symm.trans hp)], hp', he⟩

@[simp] theorem background_activity {p x : ℕ} :
    ((c.background p).records x).activity = (c.records x).activity := by
  by_cases hx : x = p
  · subst hx; simp [background, setRecord]
  · simp [background, setRecord, hx]

theorem Kept.activeTab (h : Kept n c) (tab : JavaString) : Kept n { c with activeTab := tab } :=
  { h with nonempty := h.nonempty, activities := h.activities }

theorem Kept.resume (h : Kept n c) (hr : (c.records r).activity = true) : Kept n (c.resume r) := by
  rw [Backstack.resume]
  split_ifs
  · exact h.activeTab _
  · exact (h.activeTab _).setForeground fun _ => hr

theorem resume_eq : c.resume r =
    { c.showing (Function.update (fun x => (c.records x).foreground) r true) with
      activeTab := (c.records r).tab } := by
  rw [Backstack.resume]
  dsimp only
  split_ifs with hr
  · have hb : Function.update (fun x => (c.records x).foreground) r true =
        fun x => (c.records x).foreground := by
      rw [Function.update_eq_iff]
      exact ⟨hr.symm, fun _ _ => rfl⟩
    rw [hb]
    rfl
  · rw [setForeground_eq_showing]
    rfl

/-- **What a focus does**: the task comes last and its tab is active, the
record is in the foreground, and nobody else comes there. -/
theorem Tables.focusRecord_eq (h : Tables n c) (ht : t ∈ c.taskStack)
    (hr : r ∈ (c.taskRecords t).activityStack) (hact : (c.records r).activity = true) :
    ∃ b : ℕ → Bool, c.focusRecord (some r) =
      { c.showing b with
        taskStack := use t c.taskStack
        activityStack := (use t c.taskStack).map fun t => (c.taskRecords t).tab
        activeTab := (c.taskRecords t).tab } ∧
      b r = true ∧ ∀ x, x ≠ r → b x = true → (c.records x).foreground = true := by
  rw [Backstack.focusRecord, if_neg (by simp [hact]), resume_eq]
  rcases leavePrevious_cases (c.pushTaskStack r) r with he | ⟨p, hne, -, he⟩
  · rw [he, h.pushTaskStack_eq ht hr]
    refine ⟨Function.update (fun x => (c.records x).foreground) r true, ?_, by simp,
      fun x hx hb => by simpa [hx] using hb⟩
    simp only [h.tab t ht r hr, Backstack.showing]
  · rw [he, background, setForeground_eq_showing, h.pushTaskStack_eq ht hr]
    refine ⟨Function.update (Function.update (fun x => (c.records x).foreground) p false) r true,
      ?_, by simp, fun x hx hb => ?_⟩
    · simp only [h.tab t ht r hr, Backstack.showing]
    · by_cases hxp : x = p
      · simp [hxp, hne] at hb
      · simpa [hx, hxp] using hb

theorem Kept.focusRecord (h : Kept n c) (record : Option ℕ) : Kept n (c.focusRecord record) := by
  cases record with
  | none => exact h
  | some r =>
    rw [Backstack.focusRecord]
    split_ifs with hr
    · exact h
    have hact : (c.records r).activity = true := by simpa using hr
    have hpush := h.pushTaskStack (h.activity r hact)
    rcases leavePrevious_cases (c.pushTaskStack r) r with he | ⟨p, -, -, he⟩
    · rw [he]
      exact hpush.resume hact
    · rw [he]
      exact hpush.background.resume (background_activity.trans hact)

/-! ## A record is pushed -/

/-- A task that is made, on the stacks already. -/
def opened (c : Backstack) (affinity tab : JavaString) : Backstack :=
  { c.createTask affinity tab with
    taskStack := c.taskStack ++ [c.nextTask]
    activityStack := c.activityStack ++ [tab] }

theorem opened_self {affinity : JavaString} : (c.opened affinity tab).taskRecords c.nextTask =
    { taskId := c.nextTaskId, affinity, tab } :=
  Function.update_self _ _ _

theorem mem_opened {affinity : JavaString} :
    t ∈ (c.opened affinity tab).taskStack ↔ t ∈ c.taskStack ∨ t = c.nextTask := by
  rw [opened, List.mem_append, List.mem_singleton]

namespace Tables

variable (h : Tables n c) {affinity : JavaString}
include h

theorem opened_of_mem (ht : t ∈ c.taskStack) :
    (c.opened affinity tab).taskRecords t = c.taskRecords t :=
  Function.update_of_ne (Nat.ne_of_lt (h.task_lt t ht)) _ _

/-- The new task has no records, so a record is in an old one. -/
theorem mem_opened_stack (ht : t ∈ (c.opened affinity tab).taskStack)
    (hr : r ∈ ((c.opened affinity tab).taskRecords t).activityStack) :
    t ∈ c.taskStack ∧ r ∈ (c.taskRecords t).activityStack := by
  rcases mem_opened.mp ht with ht | rfl
  · have hold : (c.opened affinity tab).taskRecords t = c.taskRecords t := h.opened_of_mem ht
    exact ⟨ht, hold ▸ hr⟩
  · rw [opened_self] at hr
    simp at hr

theorem has_opened : (c.opened affinity tab).Has r ↔ c.Has r := by
  constructor
  · rintro ⟨t, ht, hr⟩
    exact ⟨t, h.mem_opened_stack ht hr⟩
  · rintro ⟨t, ht, hr⟩
    exact ⟨t, mem_opened.mpr (Or.inl ht), (h.opened_of_mem ht).symm ▸ hr⟩

theorem notMem_activityStack (htab : c.tasksByTab.lookup tab = none) : tab ∉ c.activityStack := by
  rw [h.activityStack]
  intro hmap
  obtain ⟨t, ht, rfl⟩ := List.mem_map.mp hmap
  rw [h.lookup_tab.mpr ⟨ht, rfl⟩] at htab
  cases htab

/-- **An empty task is opened** for a tab that has none, where its number
is free. -/
theorem opened (htab : c.tasksByTab.lookup tab = none)
    (hid : n → c.tasks.lookup c.nextTaskId = none) : Tables n (c.opened affinity tab) where
  nodup := by
    have hfresh : c.nextTask ∉ c.taskStack := fun ht => absurd (h.task_lt _ ht) (lt_irrefl _)
    show (c.taskStack ++ [c.nextTask]).Nodup
    rw [← use_of_notMem hfresh]
    exact nodup_use h.nodup _
  tasks hn := (h.tasks hn).put (hid hn) (fun _ => mem_opened)
    (fun t ht => by rw [h.opened_of_mem ht]) (by rw [opened_self])
  tasksByTab := h.tasksByTab.put htab (fun _ => mem_opened)
    (fun t ht => by rw [h.opened_of_mem ht]) (by rw [opened_self])
  activityStack := by
    have hold : c.taskStack.map (fun t => ((c.opened affinity tab).taskRecords t).tab) =
        c.taskStack.map fun t => (c.taskRecords t).tab :=
      List.map_congr_left fun t ht => by rw [h.opened_of_mem ht]
    show c.activityStack ++ [tab] = (c.taskStack ++ [c.nextTask]).map
      fun t => ((c.opened affinity tab).taskRecords t).tab
    rw [List.map_append, hold, List.map_singleton, opened_self, h.activityStack]
  once := by
    show (c.activityStack ++ [tab]).Nodup
    rw [← use_of_notMem (h.notMem_activityStack htab)]
    exact nodup_use h.once _
  recordsByToken := h.recordsByToken.congr (fun _ => h.has_opened) fun _ _ => rfl
  unrepeated t ht := by
    rcases mem_opened.mp ht with ht | rfl
    · rw [h.opened_of_mem ht]
      exact h.unrepeated t ht
    · rw [opened_self]
      exact List.nodup_nil
  task t ht r hr := h.task t (h.mem_opened_stack ht hr).1 r (h.mem_opened_stack ht hr).2
  tab t ht r hr := by
    have hold := h.mem_opened_stack ht hr
    rw [h.opened_of_mem hold.1]
    exact h.tab t hold.1 r hold.2
  finishing r hr := h.finishing r (h.has_opened.mp hr)
  activity r hr := h.has_opened.mpr (h.activity r hr)
  foreground := h.foreground
  record_lt r hr := h.record_lt r (h.has_opened.mp hr)
  task_lt t ht := by
    rcases mem_opened.mp ht with ht | rfl
    · exact Nat.lt_succ_of_lt (h.task_lt t ht)
    · exact Nat.lt_succ_self _

theorem topOfTab_opened {x : JavaString} (htab : c.tasksByTab.lookup tab = none) :
    (c.opened affinity tab).topOfTab x = c.topOfTab x := by
  have ho : Tables False (c.opened affinity tab) := h.unnumbered.opened htab nofun
  refine Option.ext fun r => ?_
  rw [h.topOfTab_eq_some, ho.topOfTab_eq_some]
  constructor
  · rintro ⟨t, ht, hx, hr⟩
    have hold := (h.mem_opened_stack ht (mem_of_topOf hr)).1
    rw [h.opened_of_mem hold] at hx
    rw [topOf, h.opened_of_mem hold] at hr
    exact ⟨t, hold, hx, hr⟩
  · rintro ⟨t, ht, hx, hr⟩
    refine ⟨t, mem_opened.mpr (Or.inl ht), ?_, ?_⟩
    · rw [h.opened_of_mem ht]
      exact hx
    · rw [topOf, h.opened_of_mem ht]
      exact hr

end Tables

section

variable {record : ActivityRecord}

/-- The record is new: it has a task's tab, is not finishing, and its token
is no other record's. -/
structure Fresh (c : Backstack) (record : ActivityRecord) : Prop where
  foreground : record.foreground = true → record.activity = true
  finishing : record.finishing = false
  token : ∀ k, record.token = some k → c.recordsByToken.lookup k = none

theorem pushed_self :
    (c.pushRecord t record).records c.nextRecord = { record with task := some t } :=
  Function.update_self _ _ _

theorem pushed_of_ne (hr : r ≠ c.nextRecord) : (c.pushRecord t record).records r = c.records r :=
  Function.update_of_ne hr _ _

theorem pushed_task : (c.pushRecord t record).taskRecords t =
    (c.taskRecords t).pushActivity c.nextRecord :=
  Function.update_self _ _ _

theorem pushed_task_of_ne {t' : ℕ} (ht : t' ≠ t) :
    (c.pushRecord t record).taskRecords t' = c.taskRecords t' :=
  Function.update_of_ne ht _ _

theorem pushed_tab (t' : ℕ) :
    ((c.pushRecord t record).taskRecords t').tab = (c.taskRecords t').tab := by
  by_cases he : t' = t
  · rw [he, pushed_task, TaskRecord.pushActivity]
  · rw [pushed_task_of_ne he]

theorem pushed_taskId (t' : ℕ) :
    ((c.pushRecord t record).taskRecords t').taskId = (c.taskRecords t').taskId := by
  by_cases he : t' = t
  · rw [he, pushed_task, TaskRecord.pushActivity]
  · rw [pushed_task_of_ne he]

theorem mem_pushed (ht : t ∈ c.taskStack) (t' : ℕ) :
    t' ∈ (c.pushRecord t record).taskStack ↔ t' ∈ c.taskStack :=
  (perm_use ht).mem_iff

namespace Tables

variable (h : Tables n c) (ht : t ∈ c.taskStack)
include h ht

theorem mem_pushed_stack {t' : ℕ} :
    r ∈ ((c.pushRecord t record).taskRecords t').activityStack ↔
      r ∈ (c.taskRecords t').activityStack ∨ (t' = t ∧ r = c.nextRecord) := by
  by_cases he : t' = t
  · subst he
    rw [pushed_task, TaskRecord.pushActivity, mem_use (h.unrepeated t' ht)]
    simp
  · rw [pushed_task_of_ne he]
    simp [he]

theorem has_pushed : (c.pushRecord t record).Has r ↔ c.Has r ∨ r = c.nextRecord := by
  constructor
  · rintro ⟨t', ht', hr⟩
    rcases (h.mem_pushed_stack ht).mp hr with hr | ⟨-, hr⟩
    · exact Or.inl ⟨t', (mem_pushed ht t').mp ht', hr⟩
    · exact Or.inr hr
  · rintro (⟨t', ht', hr⟩ | rfl)
    · exact ⟨t', (mem_pushed ht t').mpr ht', (h.mem_pushed_stack ht).mpr (Or.inl hr)⟩
    · exact ⟨t, (mem_pushed ht t).mpr ht, (h.mem_pushed_stack ht).mpr (Or.inr ⟨rfl, rfl⟩)⟩

omit ht in
theorem pushed_of_has (hr : c.Has r) : (c.pushRecord t record).records r = c.records r :=
  pushed_of_ne (Nat.ne_of_lt (h.record_lt r hr))

/-- **A record is pushed** on a task of its tab. -/
theorem pushRecord (htab : (c.taskRecords t).tab = record.tab) (hf : Fresh c record) :
    Tables n (c.pushRecord t record) where
  nodup := (perm_use ht).nodup_iff.mpr h.nodup
  tasks hn := (h.tasks hn).congr (mem_pushed ht) fun t' _ => congrArg some (pushed_taskId t')
  tasksByTab := h.tasksByTab.congr (mem_pushed ht) fun t' _ => congrArg some (pushed_tab t')
  activityStack := by
    show use record.tab c.activityStack = _
    rw [← htab, h.use_tab ht]
    exact List.map_congr_left fun t' _ => (pushed_tab t').symm
  once := nodup_use h.once _
  recordsByToken := by
    have hkey : ∀ r, c.Has r → ((c.pushRecord t record).records r).token = (c.records r).token :=
      fun r hr => by rw [h.pushed_of_has hr]
    have hself : ((c.pushRecord t record).records c.nextRecord).token = record.token := by
      rw [pushed_self]
    cases htoken : record.token with
    | none =>
      have hmap : (c.pushRecord t record).recordsByToken = c.recordsByToken := by
        simp only [Backstack.pushRecord, htoken]
      rw [hmap]
      exact h.recordsByToken.keyless (fun _ => h.has_pushed ht) hkey (hself.trans htoken)
    | some k =>
      have hmap : (c.pushRecord t record).recordsByToken =
          put k c.nextRecord c.recordsByToken := by
        simp only [Backstack.pushRecord, htoken]
      rw [hmap]
      exact h.recordsByToken.put (hf.token k htoken) (fun _ => h.has_pushed ht) hkey
        (hself.trans htoken)
  unrepeated t' ht' := by
    by_cases he : t' = t
    · subst he
      rw [pushed_task]
      exact nodup_use (h.unrepeated t' ht) _
    · rw [pushed_task_of_ne he]
      exact h.unrepeated t' ((mem_pushed ht t').mp ht')
  task t' ht' r hr := by
    have ht' := (mem_pushed ht t').mp ht'
    rcases (h.mem_pushed_stack ht).mp hr with hr | ⟨rfl, rfl⟩
    · rw [h.pushed_of_has ⟨t', ht', hr⟩]
      exact h.task t' ht' r hr
    · rw [pushed_self]
  tab t' ht' r hr := by
    have ht' := (mem_pushed ht t').mp ht'
    rw [pushed_tab]
    rcases (h.mem_pushed_stack ht).mp hr with hr | ⟨rfl, rfl⟩
    · rw [h.pushed_of_has ⟨t', ht', hr⟩]
      exact h.tab t' ht' r hr
    · rw [pushed_self]
      exact htab.symm
  finishing r hr := by
    rcases (h.has_pushed ht).mp hr with hr | rfl
    · rw [h.pushed_of_has hr]
      exact h.finishing r hr
    · rw [pushed_self]
      exact hf.finishing
  activity r hr := by
    by_cases he : r = c.nextRecord
    · exact (h.has_pushed ht).mpr (Or.inr he)
    · rw [pushed_of_ne he] at hr
      exact (h.has_pushed ht).mpr (Or.inl (h.activity r hr))
  foreground r hr := by
    by_cases he : r = c.nextRecord
    · subst he
      rw [pushed_self] at hr ⊢
      exact hf.foreground hr
    · rw [pushed_of_ne he] at hr ⊢
      exact h.foreground r hr
  record_lt r hr := by
    rcases (h.has_pushed ht).mp hr with hr | rfl
    · exact Nat.lt_succ_of_lt (h.record_lt r hr)
    · exact Nat.lt_succ_self _
  task_lt t' ht' := h.task_lt t' ((mem_pushed ht t').mp ht')

theorem topOfTab_pushed (htab : (c.taskRecords t).tab = record.tab) (x : JavaString) :
    (c.pushRecord t record).topOfTab x =
      if x = record.tab then some c.nextRecord else c.topOfTab x := by
  have htop : (c.pushRecord t record).topOf t = some c.nextRecord := by
    rw [topOf, pushed_task, TaskRecord.topActivity, TaskRecord.pushActivity, use,
      List.getLast?_concat]
  split_ifs with hx
  · rw [topOfTab, hx]
    show (c.tasksByTab.lookup record.tab).bind _ = _
    rw [h.lookup_tab.mpr ⟨ht, htab⟩, Option.bind_some, htop]
  · rw [topOfTab, topOfTab]
    show (c.tasksByTab.lookup x).bind _ = _
    refine Option.bind_congr fun t' ht' => ?_
    have hne : t' ≠ t := fun he => hx (by rw [← (h.lookup_tab.mp ht').2, he, htab])
    rw [topOf, topOf, pushed_task_of_ne hne]

theorem kept_pushRecord (htab : (c.taskRecords t).tab = record.tab) (hf : Fresh c record)
    (hne : ∀ t' ∈ c.taskStack, t' ≠ t → (c.taskRecords t').activityStack ≠ [])
    (hact : ∀ x, c.activities.lookup x = c.topOfTab x) : Kept n (c.pushRecord t record) :=
  { h.pushRecord ht htab hf with
    nonempty := fun t' ht' => by
      by_cases he : t' = t
      · rw [he, pushed_task]
        exact List.concat_ne_nil _ _
      · rw [pushed_task_of_ne he]
        exact hne t' ((mem_pushed ht t').mp ht') he
    activities := fun x => by
      rw [h.topOfTab_pushed ht htab]
      show (put record.tab c.nextRecord c.activities).lookup x = _
      rw [lookup_put, hact] }

end Tables

/-- A task of the tab is there, with records or new, and those of other tabs
are as before. -/
structure Ready (n : Prop) (c c' : Backstack) (t : ℕ) (tab : JavaString) : Prop where
  tables : Tables n c'
  mem : t ∈ c'.taskStack
  tab : (c'.taskRecords t).tab = tab
  records : c'.records = c.records
  nextRecord : c'.nextRecord = c.nextRecord
  recordsByToken : c'.recordsByToken = c.recordsByToken
  nonempty : ∀ t' ∈ c'.taskStack, t' ≠ t → (c'.taskRecords t').activityStack ≠ []
  activities : ∀ x, c'.activities.lookup x = c'.topOfTab x

/-- **A registration is a push** on a task that is ready, where the number of
a new one is free. -/
theorem Kept.register_eq (h : Kept n c)
    (hid : n → c.tasksByTab.lookup record.tab = none → c.tasks.lookup c.nextTaskId = none) :
    ∃ c' t, Ready n c c' t record.tab ∧ c.register record = c'.pushRecord t record := by
  rw [register]
  split
  case h_1 t ht =>
    obtain ⟨hmem, htab⟩ := h.lookup_tab.mp ht
    exact ⟨c, t, ⟨h.toTables, hmem, htab, rfl, rfl, rfl, fun t' ht' _ => h.nonempty t' ht',
      h.activities⟩, rfl⟩
  case h_2 hnone =>
    have hfresh : c.nextTask ∉ c.taskStack := fun ht => absurd (h.task_lt _ ht) (lt_irrefl _)
    have ho : Tables n (c.opened record.packageName record.tab) :=
      h.opened hnone fun hn => hid hn hnone
    refine ⟨c.opened record.packageName record.tab, c.nextTask,
      ⟨ho, mem_opened.mpr (Or.inr rfl), by rw [opened_self], rfl, rfl, rfl, fun t' ht' hne => ?_,
        fun x => ?_⟩, ?_⟩
    · have hold := (mem_opened.mp ht').resolve_right hne
      rw [h.opened_of_mem hold]
      exact h.nonempty t' hold
    · exact (h.activities x).trans (h.topOfTab_opened hnone).symm
    · -- the task that is pushed on comes last on the stacks anyway
      have hstack : use c.nextTask (c.taskStack ++ [c.nextTask]) = use c.nextTask c.taskStack := by
        rw [use_append hfresh, use_of_notMem hfresh]
      have htabs : use record.tab (c.activityStack ++ [record.tab]) =
          use record.tab c.activityStack := by
        rw [use_append (h.notMem_activityStack hnone),
          use_of_notMem (h.notMem_activityStack hnone)]
      simp only [Backstack.pushRecord, Backstack.opened, createTask, hstack, htabs]

/-- **A record is registered**, where the number of a new task is free. -/
theorem Kept.register (h : Kept n c) (hf : Fresh c record)
    (hid : n → c.tasksByTab.lookup record.tab = none → c.tasks.lookup c.nextTaskId = none) :
    Kept n (c.register record) := by
  obtain ⟨c', t, hready, heq⟩ := h.register_eq hid
  rw [heq]
  have hf' : Fresh c' record := ⟨hf.foreground, hf.finishing, by
    rw [hready.recordsByToken]
    exact hf.token⟩
  exact hready.tables.kept_pushRecord hready.mem hready.tab hf' hready.nonempty hready.activities

end

/-! ## Records are taken off a task -/

/-- **Records are taken off the task**: what is left is the same as before,
and who is taken off has no activity any more. -/
structure TakenOff (c c' : Backstack) (t : ℕ) (rs : List ℕ) : Prop where
  taskStack : c'.taskStack = c.taskStack
  tasks : c'.tasks = c.tasks
  tasksByTab : c'.tasksByTab = c.tasksByTab
  activityStack : c'.activityStack = c.activityStack
  nextRecord : c'.nextRecord = c.nextRecord
  nextTask : c'.nextTask = c.nextTask
  activeTab : c'.activeTab = c.activeTab
  activities : c'.activities = c.activities
  mem : ∀ r ∈ rs, r ∈ (c.taskRecords t).activityStack
  stack : c'.taskRecords t =
    { c.taskRecords t with
      activityStack := (c.taskRecords t).activityStack.filter fun r => r ∉ rs }
  other : ∀ t', t' ≠ t → c'.taskRecords t' = c.taskRecords t'
  record : ∀ r, r ∉ rs → c'.records r = c.records r
  activity : ∀ r ∈ rs, (c'.records r).activity = false
  foreground : ∀ r ∈ rs, (c'.records r).foreground = false
  recordsByToken : ∀ k, c'.recordsByToken.lookup k =
    if k ∈ rs.filterMap (fun r => (c.records r).token) then none else c.recordsByToken.lookup k

namespace TakenOff

variable {rs : List ℕ} (ho : TakenOff c c' t rs)
include ho

theorem taken_tab (t' : ℕ) : (c'.taskRecords t').tab = (c.taskRecords t').tab := by
  by_cases he : t' = t
  · rw [he, ho.stack]
  · rw [ho.other t' he]

theorem taken_taskId (t' : ℕ) : (c'.taskRecords t').taskId = (c.taskRecords t').taskId := by
  by_cases he : t' = t
  · rw [he, ho.stack]
  · rw [ho.other t' he]

variable (h : Tables n c) (ht : t ∈ c.taskStack)
include h ht

theorem mem_taken {t' : ℕ} (ht' : t' ∈ c.taskStack) :
    r ∈ (c'.taskRecords t').activityStack ↔
      r ∈ (c.taskRecords t').activityStack ∧ r ∉ rs := by
  by_cases he : t' = t
  · subst he
    rw [ho.stack]
    simp
  · rw [ho.other t' he]
    refine ⟨fun hr => ⟨hr, fun hrs => ?_⟩, And.left⟩
    exact he (h.owner ht' hr ht (ho.mem r hrs))

theorem has_taken : c'.Has r ↔ c.Has r ∧ r ∉ rs := by
  constructor
  · rintro ⟨t', ht', hr⟩
    rw [ho.taskStack] at ht'
    have hr := (ho.mem_taken h ht ht').mp hr
    exact ⟨⟨t', ht', hr.1⟩, hr.2⟩
  · rintro ⟨⟨t', ht', hr⟩, hrs⟩
    exact ⟨t', ho.taskStack ▸ ht', (ho.mem_taken h ht ht').mpr ⟨hr, hrs⟩⟩

theorem tables : Tables n c' where
  nodup := ho.taskStack ▸ h.nodup
  tasks hn := by
    rw [ho.tasks]
    exact (h.tasks hn).congr (fun t' => by rw [ho.taskStack]) fun t' _ => by rw [ho.taken_taskId]
  tasksByTab := by
    rw [ho.tasksByTab]
    exact h.tasksByTab.congr (fun t' => by rw [ho.taskStack]) fun t' _ => by rw [ho.taken_tab]
  activityStack := by
    rw [ho.activityStack, ho.taskStack, h.activityStack]
    exact List.map_congr_left fun t' _ => (ho.taken_tab t').symm
  once := ho.activityStack ▸ h.once
  recordsByToken := h.recordsByToken.erase rs (fun r hr => ⟨t, ht, ho.mem r hr⟩) ho.recordsByToken
    (fun r => ho.has_taken h ht) fun r hr => by rw [ho.record r ((ho.has_taken h ht).mp hr).2]
  unrepeated t' ht' := by
    rw [ho.taskStack] at ht'
    by_cases he : t' = t
    · subst he
      rw [ho.stack]
      exact (h.unrepeated t' ht').filter _
    · rw [ho.other t' he]
      exact h.unrepeated t' ht'
  task t' ht' r hr := by
    rw [ho.taskStack] at ht'
    have hr := (ho.mem_taken h ht ht').mp hr
    rw [ho.record r hr.2]
    exact h.task t' ht' r hr.1
  tab t' ht' r hr := by
    rw [ho.taskStack] at ht'
    have hr := (ho.mem_taken h ht ht').mp hr
    rw [ho.record r hr.2, ho.taken_tab]
    exact h.tab t' ht' r hr.1
  finishing r hr := by
    have hr := (ho.has_taken h ht).mp hr
    rw [ho.record r hr.2]
    exact h.finishing r hr.1
  activity r hr := by
    have hrs : r ∉ rs := fun hrs => by simp [ho.activity r hrs] at hr
    rw [ho.record r hrs] at hr
    exact (ho.has_taken h ht).mpr ⟨h.activity r hr, hrs⟩
  foreground r hr := by
    have hrs : r ∉ rs := fun hrs => by simp [ho.foreground r hrs] at hr
    rw [ho.record r hrs] at hr ⊢
    exact h.foreground r hr
  record_lt r hr := by
    rw [ho.nextRecord]
    exact h.record_lt r ((ho.has_taken h ht).mp hr).1
  task_lt t' ht' := by
    rw [ho.taskStack] at ht'
    rw [ho.nextTask]
    exact h.task_lt t' ht'

omit ht in
/-- The other tabs have the activities they had. -/
theorem topOfTab_of_ne {x : JavaString} (hx : x ≠ (c.taskRecords t).tab) :
    c'.topOfTab x = c.topOfTab x := by
  rw [topOfTab, topOfTab, ho.tasksByTab]
  refine Option.bind_congr fun t' ht' => ?_
  have hne : t' ≠ t := fun he => hx (by rw [← (h.lookup_tab.mp ht').2, he])
  rw [topOf, topOf, ho.other t' hne]

end TakenOff

/-! ### A task goes -/

namespace Tables

variable (h : Tables n c)

theorem topOfTab_dropped (x : JavaString) :
    ((c.dropTask t).dropTab (c.taskRecords t).tab).topOfTab x =
      if x = (c.taskRecords t).tab then none else c.topOfTab x := by
  rw [topOfTab]
  show ((c.tasksByTab.erase (c.taskRecords t).tab).lookup x).bind c.topOf = _
  rw [lookup_erase]
  split_ifs
  · rfl
  · rfl

include h

theorem mem_dropped (t' : ℕ) : t' ∈ c.taskStack.erase t ↔ t' ∈ c.taskStack ∧ t' ∉ [t] := by
  rw [h.nodup.mem_erase_iff, List.mem_singleton, and_comm]

variable (ht : t ∈ c.taskStack) (hempty : (c.taskRecords t).activityStack = [])
include ht hempty

/-- **An empty task is dropped**, with its tab. -/
theorem drop : Tables n ((c.dropTask t).dropTab (c.taskRecords t).tab) := by
  have hmem : ∀ t', t' ∈ c.taskStack.erase t → t' ∈ c.taskStack := fun t' =>
    List.mem_of_mem_erase
  have hhas : ∀ r, ((c.dropTask t).dropTab (c.taskRecords t).tab).Has r ↔ c.Has r := fun r => by
    constructor
    · rintro ⟨t', ht', hr⟩
      exact ⟨t', hmem t' ht', hr⟩
    · rintro ⟨t', ht', hr⟩
      have hne : t' ∉ [t] := fun he => by
        rw [List.mem_singleton.mp he, hempty] at hr
        simp at hr
      exact ⟨t', (h.mem_dropped t').mpr ⟨ht', hne⟩, hr⟩
  exact {
    nodup := h.nodup.erase t
    tasks := fun hn => (h.tasks hn).erase [t] (by simpa using ht)
      (fun k => by simp only [dropTask, dropTab, lookup_erase]; simp) (h.mem_dropped)
      fun _ _ => rfl
    tasksByTab := h.tasksByTab.erase [t] (by simpa using ht)
      (fun k => by simp only [dropTask, dropTab, lookup_erase]; simp) (h.mem_dropped)
      fun _ _ => rfl
    activityStack := by
      show c.activityStack.erase _ = _
      rw [h.activityStack]
      exact map_erase (fun t' ht' he => h.tab_inj ht' ht he) (h.activityStack ▸ h.once)
    once := h.once.erase _
    recordsByToken := h.recordsByToken.congr hhas fun _ _ => rfl
    unrepeated := fun t' ht' => h.unrepeated t' (hmem t' ht')
    task := fun t' ht' => h.task t' (hmem t' ht')
    tab := fun t' ht' => h.tab t' (hmem t' ht')
    finishing := fun r hr => h.finishing r ((hhas r).mp hr)
    activity := fun r hr => (hhas r).mpr (h.activity r hr)
    foreground := h.foreground
    record_lt := fun r hr => h.record_lt r ((hhas r).mp hr)
    task_lt := fun t' ht' => h.task_lt t' (hmem t' ht') }

theorem kept_drop (hne : ∀ t' ∈ c.taskStack, t' ≠ t → (c.taskRecords t').activityStack ≠ [])
    (hact : ∀ x, x ≠ (c.taskRecords t).tab → c.activities.lookup x = c.topOfTab x) :
    Kept n ((c.dropTask t).dropTab (c.taskRecords t).tab) :=
  { h.drop ht hempty with
    nonempty := fun t' ht' => by
      have hmem := (h.mem_dropped t').mp ht'
      exact hne t' hmem.1 fun he => hmem.2 (List.mem_singleton.mpr he)
    activities := fun x => by
      rw [topOfTab_dropped]
      show (c.activities.erase (c.taskRecords t).tab).lookup x = _
      rw [lookup_erase]
      split_ifs with hx
      · rfl
      · exact hact x hx }

end Tables

/-! ### Records that finish -/

/-- What `finishRecord` makes of a record. -/
def finished (record : ActivityRecord) : ActivityRecord :=
  if record.activity = false ∨ record.finishing = true then record
  else { record with finishing := true, foreground := false, activity := false }

theorem finished_finished (record : ActivityRecord) :
    finished (finished record) = finished record := by
  by_cases h : record.activity = false ∨ record.finishing = true
  · simp [finished, h]
  · simp [finished, h]

theorem finished_token (record : ActivityRecord) : (finished record).token = record.token := by
  rw [finished]
  split_ifs <;> rfl

theorem finished_activity {record : ActivityRecord} (h : record.finishing = false) :
    (finished record).activity = false := by
  by_cases ha : record.activity = false
  · simp [finished, ha]
  · simp [finished, ha, h]

theorem finished_foreground {record : ActivityRecord} (h : record.finishing = false)
    (hf : record.foreground = true → record.activity = true) :
    (finished record).foreground = false := by
  by_cases ha : record.activity = false
  · have hno : record.foreground = false := by
      by_contra hyes
      rw [hf (by simpa using hyes)] at ha
      cases ha
    simp [finished, ha, hno]
  · simp [finished, ha, h]

theorem finishRecord_eq : c.finishRecord r =
    { c with records := Function.update c.records r (finished (c.records r)) } := by
  rw [finishRecord, finished]
  split_ifs
  · rw [Function.update_eq_self]
  · rfl

/-- **What finishing several records does**, in any order. -/
theorem foldl_finishRecord (rs : List ℕ) : rs.foldl finishRecord c =
    { c with records := fun x => if x ∈ rs then finished (c.records x) else c.records x } := by
  induction rs generalizing c with
  | nil => rfl
  | cons r rs ih =>
    rw [List.foldl_cons, ih, finishRecord_eq]
    simp only [Backstack.mk.injEq, and_true]
    funext x
    by_cases hx : x = r
    · subst hx
      simp [finished_finished]
    · simp [hx]

/-- What is left of `finishAndRemoveActivity` once the task is known. -/
theorem Tables.takenOff_removed (h : Tables n c) (ht : t ∈ c.taskStack)
    (hr : r ∈ (c.taskRecords t).activityStack) :
    TakenOff c (((c.finishRecord r).forgetTokens [r]).removeActivity t r) t [r] := by
  have hfin := h.finishing r ⟨t, ht, hr⟩
  have heq : ((c.finishRecord r).forgetTokens [r]).removeActivity t r =
      { c with
        records := Function.update c.records r { finished (c.records r) with task := none }
        taskRecords := Function.update c.taskRecords t
          { c.taskRecords t with activityStack := (c.taskRecords t).activityStack.erase r }
        recordsByToken := ([r].filterMap fun r => (c.records r).token).foldl
          (fun m k => m.erase k) c.recordsByToken } := by
    rw [finishRecord_eq]
    simp [forgetTokens, removeActivity, setRecord, hr, List.filterMap_cons, finished_token]
  rw [heq]
  exact {
    taskStack := rfl
    tasks := rfl
    tasksByTab := rfl
    activityStack := rfl
    nextRecord := rfl
    nextTask := rfl
    activeTab := rfl
    activities := rfl
    mem := by simpa using hr
    stack := by
      have hstack : (c.taskRecords t).activityStack.erase r =
          (c.taskRecords t).activityStack.filter fun x => x ∉ [r] := by
        rw [(h.unrepeated t ht).erase_eq_filter]
        exact List.filter_congr fun x _ => by by_cases hx : x = r <;> simp [hx]
      exact (Function.update_self _ _ _).trans (by rw [hstack])
    other := fun t' ht' => Function.update_of_ne ht' _ _
    record := fun x hx => Function.update_of_ne (by simpa using hx) _ _
    activity := by simp [finished_activity hfin]
    foreground := by simp [finished_foreground hfin (h.foreground r)]
    recordsByToken := fun k => lookup_foldl_erase }

/-- `closeTask` as far as the task is there. -/
def emptied (c : Backstack) (task : ℕ) : Backstack :=
  let stack := (c.taskRecords task).activityStack
  let finished := (stack.reverse.foldl finishRecord c).forgetTokens stack
  { finished with
    taskRecords := Function.update finished.taskRecords task
      { finished.taskRecords task with activityStack := [] } }

theorem Tables.takenOff_emptied (h : Tables n c) (ht : t ∈ c.taskStack) :
    TakenOff c (c.emptied t) t (c.taskRecords t).activityStack := by
  have heq : c.emptied t =
      { c with
        records := fun x => if x ∈ (c.taskRecords t).activityStack then finished (c.records x)
          else c.records x
        taskRecords := Function.update c.taskRecords t
          { c.taskRecords t with activityStack := [] }
        recordsByToken := ((c.taskRecords t).activityStack.filterMap fun r =>
          (c.records r).token).foldl (fun m k => m.erase k) c.recordsByToken } := by
    have htokens : ∀ x, ((if x ∈ (c.taskRecords t).activityStack then finished (c.records x)
        else c.records x) : ActivityRecord).token = (c.records x).token := fun x => by
      split_ifs
      · exact finished_token _
      · rfl
    rw [emptied, foldl_finishRecord]
    simp only [forgetTokens, List.mem_reverse, htokens]
  have hfin : ∀ x ∈ (c.taskRecords t).activityStack, (c.records x).finishing = false :=
    fun x hx => h.finishing x ⟨t, ht, hx⟩
  rw [heq]
  exact {
    taskStack := rfl
    tasks := rfl
    tasksByTab := rfl
    activityStack := rfl
    nextRecord := rfl
    nextTask := rfl
    activeTab := rfl
    activities := rfl
    mem := fun _ hx => hx
    stack := (Function.update_self _ _ _).trans (by simp)
    other := fun t' ht' => Function.update_of_ne ht' _ _
    record := fun x hx => if_neg hx
    activity := fun x hx => (congrArg ActivityRecord.activity (if_pos hx)).trans
      (finished_activity (hfin x hx))
    foreground := fun x hx => (congrArg ActivityRecord.foreground (if_pos hx)).trans
      (finished_foreground (hfin x hx) (h.foreground x))
    recordsByToken := fun k => lookup_foldl_erase }

/-! ## The operations -/

theorem TakenOff.kept_drop {rs : List ℕ} (ho : TakenOff c c' t rs) (h : Kept n c)
    (ht : t ∈ c.taskStack) (hempty : (c'.taskRecords t).activityStack = []) :
    Kept n ((c'.dropTask t).dropTab (c.taskRecords t).tab) := by
  rw [← ho.taken_tab t]
  refine (ho.tables h.toTables ht).kept_drop (ho.taskStack ▸ ht) hempty ?_ ?_
  · intro t' ht' hne
    rw [ho.other t' hne]
    exact h.nonempty t' (ho.taskStack ▸ ht')
  · intro x hx
    rw [ho.taken_tab t] at hx
    rw [ho.activities, h.activities, ho.topOfTab_of_ne h.toTables hx]

theorem TakenOff.kept_putTop {rs : List ℕ} {newTop : ℕ} (ho : TakenOff c c' t rs) (h : Kept n c)
    (ht : t ∈ c.taskStack) (htop : c'.topOf t = some newTop) : Kept n (c'.putTop t newTop) := by
  have htab := ho.tables h.toTables ht
  refine { htab with nonempty := fun t' ht' => ?_, activities := fun x => ?_ }
  · by_cases he : t' = t
    · subst he
      exact List.ne_nil_of_mem (mem_of_topOf htop)
    · have hne := h.nonempty t' (ho.taskStack ▸ ht')
      rw [← ho.other t' he] at hne
      exact hne
  · show (put (c'.taskRecords t).tab newTop c'.activities).lookup x = c'.topOfTab x
    rw [lookup_put]
    split_ifs with hx
    · rw [hx, htab.topOfTab_self (ho.taskStack ▸ ht), htop]
    · rw [ho.taken_tab t] at hx
      rw [ho.activities, h.activities, ho.topOfTab_of_ne h.toTables hx]

theorem Kept.closeTask (h : Kept n c) (ht : t ∈ c.taskStack) : Kept n (c.closeTask t) := by
  have ho := h.takenOff_emptied ht
  refine ho.kept_drop h ht ?_
  rw [ho.stack]
  simp

/-- **An activity is finished and removed.** -/
theorem Kept.finishAndRemoveActivity (h : Kept n c) (hr : c.Has r) :
    Kept n (c.finishAndRemoveActivity r) := by
  obtain ⟨t, ht, hmem⟩ := hr
  have ho := h.takenOff_removed ht hmem
  rw [Backstack.finishAndRemoveActivity, h.task t ht r hmem]
  dsimp only
  split
  case h_1 newTop htop => exact (ho.kept_putTop h ht htop).focusRecord _
  case h_2 htop =>
    have hdrop := ho.kept_drop h ht (List.getLast?_eq_none_iff.mp htop)
    rw [leaveTab, h.tab t ht r hmem]
    dsimp only
    split_ifs
    · exact (hdrop.activeTab _).focusRecord _
    · exact hdrop

theorem Kept.activityForTab_of_none (h : Kept n c) (htab : c.tasksByTab.lookup tab = none) :
    c.activityForTab tab = none := by
  rw [h.activityForTab, topOfTab, htab, Option.bind_none]

theorem Kept.finishTab (h : Kept n c) (tab : JavaString) : Kept n (c.finishTab tab) := by
  rw [Backstack.finishTab]
  split
  case h_1 t ht =>
    have hclosed := h.closeTask (h.lookup_tab.mp ht).1
    dsimp only
    split_ifs
    · exact (hclosed.activeTab _).focusRecord _
    · exact hclosed.focusRecord _
  case h_2 hnone =>
    rw [h.activityForTab_of_none hnone]
    exact h

theorem Kept.goToState (h : Kept n c) {reached : Bool} : Kept n (c.goToState r reached) := by
  rw [Backstack.goToState]
  split_ifs
  · exact h.focusRecord _
  · exact h

theorem Kept.performBack (h : Kept n c) {reached : Bool} : Kept n (c.performBack reached) := by
  rw [Backstack.performBack]
  split
  case h_1 => exact h
  case h_2 r hr =>
    split_ifs
    · exact h
    · exact h.goToState
    · exact h
    · exact h.finishAndRemoveActivity (h.isTop_of_activeRecord hr).has

theorem Kept.goHome (h : Kept n c) {reached : Bool} : Kept n (c.goHome reached) := by
  rw [Backstack.goHome]
  split
  · exact h.goToState.focusRecord _
  · exact h.moveActive

theorem Kept.toggleAllApps (h : Kept n c) {reached : Bool} : Kept n (c.toggleAllApps reached) := by
  rw [Backstack.toggleAllApps]
  split
  · exact h.goToState
  · exact h

theorem Kept.toggleRecents (h : Kept n c) : Kept n c.toggleRecents := by
  rw [Backstack.toggleRecents]
  split
  · exact h.focusRecord _
  · exact h.focusRecord _

theorem Kept.isTop_of_inputRecord (h : Kept n c) (hr : c.inputRecord tab = some r) : c.IsTop r := by
  rw [inputRecord] at hr
  split at hr
  case h_1 r' hr' =>
    split_ifs at hr
    · exact h.isTop_of_activeRecord hr
    · exact h.isTop_of_activityForTab (hr'.trans hr)
  case h_2 => exact h.isTop_of_activeRecord hr

theorem Kept.applyInputOnMain (h : Kept n c) : Kept n (c.applyInputOnMain tab) := by
  rw [Backstack.applyInputOnMain]
  split
  · split_ifs
    · exact h
    · exact h.focusRecord _
  · exact h

theorem Kept.has_of_recordForToken (h : Kept n c) {token : Option ℕ}
    (hr : c.recordForToken token = some r) : c.Has r := by
  cases token with
  | none => exact (h.isTop_of_activeRecord hr).has
  | some k => exact ((h.recordsByToken k r).mp hr).1

theorem Kept.finishActivityByToken (h : Kept n c) {token : Option ℕ} :
    Kept n (c.finishActivityByToken token) := by
  rw [Backstack.finishActivityByToken]
  split
  case h_1 r hr =>
    split_ifs
    · exact h
    · exact h.finishAndRemoveActivity (h.has_of_recordForToken hr)
  case h_2 => exact h

theorem Kept.finishActiveActivity (h : Kept n c) : Kept n c.finishActiveActivity := by
  rw [Backstack.finishActiveActivity]
  split
  case h_1 r hr => exact h.finishAndRemoveActivity (h.isTop_of_activeRecord hr).has
  case h_2 => exact h

end Backstack

end Framework

end Muplar
