import Muplar.Common.LinkedMap
import Muplar.Framework.Stream
/-!
# The framework — tasks and activities

`FrameworkDeviceController` keeps the activities of a process in tasks,
one task a tab. Which tasks there are is written down four times over, by
number, by tab and in the order of use, as tasks and as tabs; besides there
are the activity of every tab and that of every token, the tab that is
active, and in every record whether it is in the foreground.

The operations that move activities are modelled here on all of these at
once. What they keep is the subject of `Backstack`.
-/

namespace Muplar

namespace Framework

open LinkedMap Recent

/-! ## Names -/

/-- `normalizeActivityName`, of a package and an activity that are not
`null`. -/
def normalizeActivityName (packageName activityName : JavaString) : JavaString :=
  if (java ".").isPrefixOf activityName then packageName ++ activityName
  else if packageName ≠ [] ∧ (46 : UInt16) ∉ activityName then
    packageName ++ java "." ++ activityName
  else activityName

/-- `ArtApkMain.normalizeActivityClassName`, which is the same. -/
def normalizeActivityClassName (packageName activityName : JavaString) : JavaString :=
  normalizeActivityName packageName activityName

/-- `sameActivity`. -/
def sameActivity (packageName activityName nextPackage nextActivity : JavaString) : Bool :=
  packageName ≠ [] && packageName = nextPackage &&
    normalizeActivityName packageName activityName =
      normalizeActivityName nextPackage nextActivity

/-- `defaultTabFor`, over the `toLowerCase` of the Java library. -/
def defaultTabFor (toLowerCase : JavaString → JavaString)
    (packageName activityName : JavaString) : JavaString :=
  if java "launcher" <:+: toLowerCase packageName then java "launcher"
  else packageName ++ java "/" ++ normalizeActivityName packageName activityName

/-! ## Records -/

/-- `ActivityRecord`. Objects are told apart by number: `task` and `token`
refer to one, and of `activity` it matters only whether there is one. -/
structure ActivityRecord where
  task : Option ℕ := none
  token : Option ℕ := none
  tab : JavaString := []
  apkPath : JavaString := []
  packageName : JavaString := []
  activityName : JavaString := []
  activity : Bool := false
  foreground : Bool := false
  finishing : Bool := false

/-- `TaskRecord`. -/
structure TaskRecord where
  taskId : Int32 := 0
  affinity : JavaString := []
  tab : JavaString := []
  activityStack : List ℕ := []

/-- `topActivity`. -/
def TaskRecord.topActivity (task : TaskRecord) : Option ℕ :=
  task.activityStack.getLast?

/-- The task's part of `pushActivity`. -/
def TaskRecord.pushActivity (task : TaskRecord) (record : ℕ) : TaskRecord :=
  { task with activityStack := use record task.activityStack }

/-- The record `registerActivityForTab` makes. -/
def newRecord (toLowerCase : JavaString → JavaString)
    (tab apk packageName activity : Option JavaString) (value : Bool) (token : Option ℕ) :
    ActivityRecord :=
  let normalizedPackage := clean packageName
  let normalizedActivity := normalizeActivityName normalizedPackage (clean activity)
  { token
    tab := if clean tab = [] then
        defaultTabFor toLowerCase normalizedPackage normalizedActivity
      else clean tab
    apkPath := clean apk
    packageName := normalizedPackage
    activityName := normalizedActivity
    activity := value
    foreground := value }

/-- An activity that was launched: the token it was given, if it was given
one. -/
structure Launched where
  token : Option ℕ

/-- What `ArtApkMain.launchActivity` registers; `none` where it returns
`false`. -/
def launchActivity (toLowerCase : JavaString → JavaString)
    (tab apkPath packageName activity : Option JavaString) (launched : Option Launched) :
    Option ActivityRecord :=
  if clean apkPath = [] ∨ clean packageName = [] ∨ clean activity = [] then none
  else launched.map fun l =>
    newRecord toLowerCase tab apkPath packageName
      (some (normalizeActivityClassName (clean packageName) (clean activity))) true l.token

/-! ## The tables -/

/-- The tables of `FrameworkDeviceController`, and the objects they refer
to. -/
structure Backstack where
  records : ℕ → ActivityRecord := fun _ => {}
  nextRecord : ℕ := 0
  taskRecords : ℕ → TaskRecord := fun _ => {}
  nextTask : ℕ := 0
  nextTaskId : Int32 := 1
  tasks : AList fun _ : Int32 => ℕ := ∅
  tasksByTab : AList fun _ : JavaString => ℕ := ∅
  taskStack : List ℕ := []
  recordsByToken : AList fun _ : ℕ => ℕ := ∅
  activities : AList fun _ : JavaString => ℕ := ∅
  activityStack : List JavaString := []
  activeTab : JavaString := java "launcher"
  lastFocusGeneration : Int64 := 0

namespace Backstack

/-- Change a record. -/
def setRecord (c : Backstack) (r : ℕ) (f : ActivityRecord → ActivityRecord) : Backstack :=
  { c with records := Function.update c.records r (f (c.records r)) }

@[simp] theorem setRecord_self {c : Backstack} {r : ℕ} {f : ActivityRecord → ActivityRecord} :
    (c.setRecord r f).records r = f (c.records r) :=
  Function.update_self _ _ _

theorem setRecord_of_ne {c : Backstack} {r x : ℕ} {f : ActivityRecord → ActivityRecord}
    (h : x ≠ r) : (c.setRecord r f).records x = c.records x :=
  Function.update_of_ne h _ _

/-- The top activity of a task. -/
def topOf (c : Backstack) (task : ℕ) : Option ℕ :=
  (c.taskRecords task).topActivity

/-- `activityForTab`. -/
def activityForTab (c : Backstack) (tab : JavaString) : Option ℕ :=
  ((c.tasksByTab.lookup tab).bind c.topOf).or (c.activities.lookup tab)

/-- `activeRecord`. -/
def activeRecord (c : Backstack) : Option ℕ :=
  (c.activityForTab c.activeTab).or <|
    (c.taskStack.getLast?.bind c.topOf).or <|
      (c.activities.lookup (java "launcher")).or (values c.activities).head?

/-! ## Focus -/

/-- The record leaves the foreground. -/
def background (c : Backstack) (r : ℕ) : Backstack :=
  c.setRecord r fun record => { record with foreground := false }

/-- `moveActiveActivityToBackground`. -/
def moveActiveActivityToBackground (c : Backstack) : Backstack :=
  match c.activeRecord with
  | none => c
  | some r =>
    if (c.records r).activity = false ∨ (c.records r).foreground = false then c
    else c.background r

/-- `focusRecord` as far as the stacks: the task and its tab come last. -/
def pushTaskStack (c : Backstack) (r : ℕ) : Backstack :=
  { c with
    taskStack := match (c.records r).task with
      | some t => use t c.taskStack
      | none => c.taskStack
    activityStack := use (c.records r).tab c.activityStack }

/-- `focusRecord` as far as the record before. -/
def leavePrevious (c : Backstack) (r : ℕ) : Backstack :=
  match c.activeRecord with
  | none => c
  | some previous => if previous = r then c else c.moveActiveActivityToBackground

/-- The rest of `focusRecord`. -/
def resume (c : Backstack) (r : ℕ) : Backstack :=
  let resumed := { c with activeTab := (c.records r).tab }
  if (c.records r).foreground = true then resumed
  else resumed.setRecord r fun record => { record with foreground := true }

/-- `focusRecord`. -/
def focusRecord (c : Backstack) : Option ℕ → Backstack
  | none => c
  | some r =>
    if (c.records r).activity = false then c
    else ((c.pushTaskStack r).leavePrevious r).resume r

/-! ## Activities that come -/

/-- A task is made for the tab. -/
def createTask (c : Backstack) (affinity tab : JavaString) : Backstack :=
  { c with
    taskRecords := Function.update c.taskRecords c.nextTask
      { taskId := c.nextTaskId, affinity, tab }
    nextTask := c.nextTask + 1
    nextTaskId := c.nextTaskId + 1
    tasks := put c.nextTaskId c.nextTask c.tasks
    tasksByTab := put tab c.nextTask c.tasksByTab }

/-- The record becomes the top activity of the task. -/
def pushRecord (c : Backstack) (task : ℕ) (record : ActivityRecord) : Backstack :=
  { c with
    records := Function.update c.records c.nextRecord { record with task := some task }
    nextRecord := c.nextRecord + 1
    taskRecords := Function.update c.taskRecords task
      ((c.taskRecords task).pushActivity c.nextRecord)
    recordsByToken := match record.token with
      | some token => put token c.nextRecord c.recordsByToken
      | none => c.recordsByToken
    activities := put record.tab c.nextRecord c.activities
    activeTab := record.tab
    taskStack := use task c.taskStack
    activityStack := use record.tab c.activityStack }

/-- `registerActivityForTab`, with the record it has made. -/
def register (c : Backstack) (record : ActivityRecord) : Backstack :=
  match c.tasksByTab.lookup record.tab with
  | some task => c.pushRecord task record
  | none => (c.createTask record.packageName record.tab).pushRecord c.nextTask record

/-! ## Activities that go -/

/-- `finishRecord`. -/
def finishRecord (c : Backstack) (r : ℕ) : Backstack :=
  if (c.records r).activity = false ∨ (c.records r).finishing = true then c
  else c.setRecord r fun record =>
    { record with finishing := true, foreground := false, activity := false }

/-- `removeActivity`. -/
def removeActivity (c : Backstack) (task r : ℕ) : Backstack :=
  if r ∈ (c.taskRecords task).activityStack then
    { c.setRecord r fun record => { record with task := none } with
      taskRecords := Function.update c.taskRecords task
        { c.taskRecords task with
          activityStack := (c.taskRecords task).activityStack.erase r } }
  else c

/-- The task's tab has another activity. -/
def putTop (c : Backstack) (task newTop : ℕ) : Backstack :=
  { c with activities := put (c.taskRecords task).tab newTop c.activities }

/-- `recordsByToken` without the records' tokens. -/
def forgetTokens (c : Backstack) (rs : List ℕ) : Backstack :=
  { c with recordsByToken :=
      (rs.filterMap fun r => (c.records r).token).foldl (fun m k => m.erase k) c.recordsByToken }

/-- The task leaves `tasks`, `tasksByTab` and `taskStack`. -/
def dropTask (c : Backstack) (task : ℕ) : Backstack :=
  { c with
    tasks := c.tasks.erase (c.taskRecords task).taskId
    tasksByTab := c.tasksByTab.erase (c.taskRecords task).tab
    taskStack := c.taskStack.erase task }

/-- The tab leaves `activities` and `activityStack`. -/
def dropTab (c : Backstack) (tab : JavaString) : Backstack :=
  { c with
    activities := c.activities.erase tab
    activityStack := c.activityStack.erase tab }

/-- `"launcher"` where it has an activity. -/
def launcherTab (c : Backstack) : JavaString :=
  if java "launcher" ∈ c.activities then java "launcher" else []

/-- The tab of the last task of `taskStack`, or the launcher's. -/
def previousTab (c : Backstack) : JavaString :=
  match c.taskStack.getLast?.or (c.tasksByTab.lookup (java "launcher")) with
  | some task => (c.taskRecords task).tab
  | none => c.launcherTab

/-- The tab that `finishAndRemoveActivity` goes on with: what `popTaskStack`
returns, or the previous one. -/
def poppedTab (c : Backstack) : JavaString :=
  let newActiveTab := c.activityStack.getLast?.getD c.launcherTab
  if newActiveTab = [] then c.previousTab else newActiveTab

/-- `finishAndRemoveActivity`, where the task has no other activity. -/
def leaveTab (c : Backstack) (task : Option ℕ) (tab : JavaString) : Backstack :=
  let dropped := (match task with
    | some t => c.dropTask t
    | none => c).dropTab tab
  if tab = c.activeTab then
    let moved := { dropped with activeTab := dropped.poppedTab }
    moved.focusRecord (moved.activityForTab dropped.poppedTab)
  else dropped

/-- `finishAndRemoveActivity`. -/
def finishAndRemoveActivity (c : Backstack) (r : ℕ) : Backstack :=
  let finished := (c.finishRecord r).forgetTokens [r]
  match (c.records r).task with
  | some t =>
    let removed := finished.removeActivity t r
    match removed.topOf t with
    | some newTop => (removed.putTop t newTop).focusRecord (some newTop)
    | none => removed.leaveTab (some t) (c.records r).tab
  | none => finished.leaveTab none (c.records r).tab

/-- The task's activities are finished, the top one first, and it goes. -/
def closeTask (c : Backstack) (task : ℕ) : Backstack :=
  let stack := (c.taskRecords task).activityStack
  let finished := (stack.reverse.foldl finishRecord c).forgetTokens stack
  let emptied := { finished with
    taskRecords := Function.update finished.taskRecords task
      { finished.taskRecords task with activityStack := [] } }
  (emptied.dropTask task).dropTab (c.taskRecords task).tab

/-- `finishTab`. -/
def finishTab (c : Backstack) (tab : JavaString) : Backstack :=
  match c.tasksByTab.lookup tab with
  | some task =>
    let closed := c.closeTask task
    let newActiveTab := closed.previousTab
    let moved :=
      if tab = closed.activeTab then { closed with activeTab := newActiveTab } else closed
    moved.focusRecord (moved.activityForTab newActiveTab)
  | none =>
    match c.activityForTab tab with
    | some r => c.finishAndRemoveActivity r
    | none => c

/-! ## The operations -/

/-- The tab in which `startActivityInCurrentTask` launches. -/
def startTab (c : Backstack) (current : Option ℕ) (packageName : Option JavaString) :
    Option JavaString :=
  match current with
  | some r => some (c.records r).tab
  | none => packageName

/-- `startActivityInCurrentTask` as far as the current activity's pause. -/
def pauseCurrent (c : Backstack) : Option ℕ → Backstack
  | some r => if (c.records r).foreground = true then c.background r else c
  | none => c

/-- `startActivityInCurrentTask`, once its runnable runs. -/
def startActivityInCurrentTask (toLowerCase : JavaString → JavaString) (c : Backstack)
    (caller : Option ℕ) (apkPath packageName activity : Option JavaString)
    (launched : Option Launched) : Backstack :=
  let current := caller.or c.activeRecord
  match launchActivity toLowerCase (c.startTab current packageName) apkPath packageName activity
    launched with
  | some record => (c.pauseCurrent current).register record
  | none => (c.pauseCurrent current).focusRecord current

/-- What the framework is told while it handles an action: the package
`findInstalledPackage` returns (the archive and the activity), how a launch
ends, and whether a change of the launcher's state gets as far as
`focusRecord`. -/
structure Answers where
  installed : Option (JavaString × JavaString) := none
  launched : Option Launched := none
  reached : Bool := false

/-- The package, archive and activity that `focusOrLaunchActivity` launches;
`none` where one is missing. -/
def launchTarget (next : LaunchFields JavaString) (installed : Option (JavaString × JavaString)) :
    Option (LaunchFields JavaString) :=
  let packageName :=
    if next.packageName = [] ∧ next.tab ≠ [] ∧ next.tab ≠ java "launcher" then next.tab
    else next.packageName
  let apk := if next.apk = [] then (installed.map Prod.fst).getD [] else next.apk
  let activity := if next.activity = [] then (installed.map Prod.snd).getD [] else next.activity
  if apk = [] ∨ packageName = [] ∨ activity = [] then none
  else some { next with
    tab := if (47 : UInt16) ∈ next.tab ∨ (58 : UInt16) ∈ next.tab then packageName else next.tab
    apk, packageName, activity }

/-- The record that `focusOrLaunchActivity` brings to the front. -/
def focusTarget (c : Backstack) (next : LaunchFields JavaString) : Option ℕ :=
  (c.activityForTab next.tab).filter fun r =>
    next.activity = [] ||
      sameActivity (c.records r).packageName (c.records r).activityName next.packageName
        next.activity

/-- `focusOrLaunchActivity`. -/
def focusOrLaunchActivity (toLowerCase : JavaString → JavaString) (c : Backstack)
    (next : LaunchFields JavaString) (answers : Answers) : Backstack :=
  match c.focusTarget next with
  | some r => c.focusRecord (some r)
  | none =>
    match launchTarget next answers.installed with
    | none => c.focusRecord c.activeRecord
    | some f =>
      match launchActivity toLowerCase (some f.tab) (some f.apk) (some f.packageName)
        (some f.activity) answers.launched with
      | some record => c.moveActiveActivityToBackground.register record
      | none => c.moveActiveActivityToBackground

/-- `goToNormalState` and `openAllApps`. -/
def goToState (c : Backstack) (r : ℕ) (reached : Bool) : Backstack :=
  if (c.records r).activity = true ∧ reached = true then c.focusRecord (some r) else c

/-- `performBack`. -/
def performBack (c : Backstack) (reached : Bool) : Backstack :=
  match c.activeRecord with
  | none => c
  | some r =>
    if (c.records r).activity = false then c
    else if (c.records r).tab = java "launcher" then c.goToState r reached
    else if (c.records r).finishing = true then c
    else c.finishAndRemoveActivity r

/-- What `home` does. -/
def goHome (c : Backstack) (reached : Bool) : Backstack :=
  match c.activityForTab (java "launcher") with
  | some launcher => (c.goToState launcher reached).focusRecord (some launcher)
  | none => c.moveActiveActivityToBackground

/-- `toggleAllApps`. -/
def toggleAllApps (c : Backstack) (reached : Bool) : Backstack :=
  match (c.activityForTab (java "launcher")).or c.activeRecord with
  | some launcher => c.goToState launcher reached
  | none => c

/-- `toggleRecents`: the task below the last one, or the launcher's. -/
def toggleRecents (c : Backstack) : Backstack :=
  match c.taskStack.dropLast.getLast?.bind c.topOf with
  | some top => c.focusRecord (some top)
  | none => c.focusRecord ((c.tasksByTab.lookup (java "launcher")).bind c.topOf)

/-- `isStale`. -/
def isStale (c : Backstack) (next : DeviceAction) : Bool :=
  next.action = java "focus-tab" && next.generation < c.lastFocusGeneration

/-- `applyActionOnMain`. -/
def applyActionOnMain (toLowerCase : JavaString → JavaString) (c : Backstack)
    (next : DeviceAction) (answers : Answers) : Backstack :=
  if c.isStale next then c
  else if next.action = java "back" then c.performBack answers.reached
  else if next.action = java "home" then c.goHome answers.reached
  else if next.action = java "all-apps" ∨ next.action = java "apps" then
    c.toggleAllApps answers.reached
  else if next.action = java "recents" then c.toggleRecents
  else if next.action = java "focus-tab" then
    if next.fields.tab = java "launcher" then
      c.focusRecord (c.activityForTab (java "launcher"))
    else if isHostTab next.fields.tab then c
    else c.focusOrLaunchActivity toLowerCase next.fields answers
  else if next.action = java "close-tab" then
    if isHostTab next.fields.tab then c else c.finishTab next.fields.tab
  else c

/-- The record `applyInputOnMain` finds for a tab. -/
def inputRecord (c : Backstack) (tab : JavaString) : Option ℕ :=
  match c.activityForTab tab with
  | some r =>
    if (c.records r).foreground = false ∧
        ∃ active ∈ c.activeRecord, (c.records active).foreground = true then c.activeRecord
    else some r
  | none => c.activeRecord

/-- `applyInputOnMain` as far as it moves activities. -/
def applyInputOnMain (c : Backstack) (tab : JavaString) : Backstack :=
  match c.inputRecord tab with
  | some r =>
    if (c.records r).activity = false ∨ (c.records r).tab = c.activeTab then c
    else c.focusRecord (some r)
  | none => c

/-- The record `finishActivityByToken` finds. -/
def recordForToken (c : Backstack) : Option ℕ → Option ℕ
  | some token => c.recordsByToken.lookup token
  | none => c.activeRecord

/-- `finishActivityByToken`, once its runnable runs. -/
def finishActivityByToken (c : Backstack) (token : Option ℕ) : Backstack :=
  match c.recordForToken token with
  | some r => if (c.records r).finishing = true then c else c.finishAndRemoveActivity r
  | none => c

/-- `finishActiveActivity`, once its runnable runs. -/
def finishActiveActivity (c : Backstack) : Backstack :=
  match c.activeRecord with
  | some r => c.finishAndRemoveActivity r
  | none => c

/-- What may happen next. -/
inductive Event
  /-- `registerActivityForTab`. -/
  | register (tab apk packageName activity : Option JavaString) (value : Bool) (token : Option ℕ)
  /-- The runnable of `startActivityInCurrentTask`. -/
  | start (caller : Option ℕ) (apkPath packageName activity : Option JavaString)
    (launched : Option Launched)
  /-- `applyActionOnMain`. -/
  | action (next : DeviceAction) (answers : Answers)
  /-- `applyInputOnMain`. -/
  | input (tab : JavaString)
  /-- The runnable of `finishActivityByToken`. -/
  | finish (token : Option ℕ)
  /-- The runnable of `finishActiveActivity`. -/
  | finishActive
  /-- Another thread sets `lastFocusGeneration`. -/
  | focused (generation : Int64)

/-- One event. -/
def next (toLowerCase : JavaString → JavaString) (c : Backstack) : Event → Backstack
  | .register tab apk packageName activity value token =>
    c.register (newRecord toLowerCase tab apk packageName activity value token)
  | .start caller apkPath packageName activity launched =>
    c.startActivityInCurrentTask toLowerCase caller apkPath packageName activity launched
  | .action next answers => c.applyActionOnMain toLowerCase next answers
  | .input tab => c.applyInputOnMain tab
  | .finish token => c.finishActivityByToken token
  | .finishActive => c.finishActiveActivity
  | .focused generation => { c with lastFocusGeneration := generation }

end Backstack

end Framework

end Muplar
