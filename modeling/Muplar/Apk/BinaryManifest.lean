import Muplar.Apk.Chunks
/-!
# APK — searching a compiled manifest

The functions of `apk_envelope.cpp` that search a compiled manifest. Each
decodes the manifest's string pool first; one has enough of that, the
others walk the elements, and look nowhere when the pool is empty.
-/

namespace Muplar

namespace Apk

def startElement : ℕ := 0x0102
def endElement : ℕ := 0x0103
def noIndex : ℕ := 0xffffffff
def typeReference : ℕ := 0x01
def typeString : ℕ := 0x03
def typeDynamicReference : ℕ := 0x07

/-! ## Attributes -/

section Attributes

variable {α : Type}

/-- The attribute loop of an element, with `n` attributes left from `i`
on. It ends at an attribute that is not in the chunk, and at one `pick`
takes. -/
def attributeLoop (off chunkSize attrs attrSize : ℕ) (pick : ℕ → Except String (Option α)) :
    (n i : ℕ) → Except String (Option α)
  | 0, _ => return none
  | n + 1, i => do
    let a := attrs + i * attrSize
    if off + chunkSize < a + 20 then return none
    else match ← pick a with
      | some value => return some value
      | none => attributeLoop off chunkSize attrs attrSize pick n (i + 1)

/-- The attributes of the element at `off`. -/
def attributes (manifest : Bytes) (off : ℕ) (pick : ℕ → Except String (Option α)) :
    Except String (Option α) := do
  let chunkSize ← readU32 manifest (off + 4)
  let attrStart ← readU16 manifest (off + 24)
  let attrSize ← readU16 manifest (off + 26)
  let attrCount ← readU16 manifest (off + 28)
  attributeLoop off chunkSize (off + 16 + attrStart) attrSize pick attrCount 0

/-- The text of the attribute at `a`, if it is called `wanted` and has
one: its raw value, or else its typed one. -/
def pickString (manifest : Bytes) (strings : List Bytes) (wanted : Bytes) (a : ℕ) :
    Except String (Option Bytes) := do
  let nameIdx ← readU32 manifest (a + 4)
  if strings[nameIdx]? ≠ some wanted then return none
  else
    let rawIdx ← readU32 manifest (a + 8)
    if rawIdx ≠ noIndex ∧ rawIdx < strings.length then return strings[rawIdx]?
    else if byteAt manifest (a + 15) = typeString then
      let valueIdx ← readU32 manifest (a + 16)
      return strings[valueIdx]?
    else return none

/-- The resource the attribute at `a` refers to, if it is called
`wanted`. -/
def pickReference (manifest : Bytes) (strings : List Bytes) (wanted : Bytes) (a : ℕ) :
    Except String (Option ℕ) := do
  let nameIdx ← readU32 manifest (a + 4)
  if strings[nameIdx]? ≠ some wanted then return none
  else if byteAt manifest (a + 15) = typeReference ∨
      byteAt manifest (a + 15) = typeDynamicReference then
    return some (← readU32 manifest (a + 16))
  else return none

/-- `attribute_value`. -/
def attributeValue (manifest : Bytes) (strings : List Bytes) (off : ℕ) (wanted : Bytes) :
    Except String (Option Bytes) :=
  attributes manifest off (pickString manifest strings wanted)

end Attributes

/-! ## One attribute of one element -/

/-- A walk that takes the first value `pick` finds on an element of the
given name. -/
def attributeVisit {α : Type} (manifest : Bytes) (strings : List Bytes) (element : Bytes)
    (pick : ℕ → Except String (Option α)) (off type _chunkSize : ℕ) (_ : Unit) :
    Except String (Unit ⊕ Option α) := do
  if type = startElement ∧ off + 36 ≤ manifest.length then
    let elementIdx ← readU32 manifest (off + 20)
    if strings[elementIdx]? = some element then
      match ← attributes manifest off pick with
      | some value => return .inr (some value)
      | none => return .inl ()
    else return .inl ()
  else return .inl ()

/-- The walk of a manifest from its first chunk, with the texts of its
pool; there is none when the pool is empty. -/
def walkChunks {τ ρ : Type} (manifest : Bytes) (start : τ) (finish : τ → Option ρ)
    (visit : List Bytes → (off type chunkSize : ℕ) → τ → Except String (τ ⊕ Option ρ))
    (strings : List Bytes) : Loop.Fueled String (Option ρ) := fun fuel =>
  if strings.isEmpty then return none
  else Loop.run (chunkBody manifest (visit strings) finish) (chunksStart manifest, start) fuel

/-- The pool is decoded, and then the chunks are walked. -/
def walkManifest {τ ρ : Type} (manifest : Bytes) (start : τ) (finish : τ → Option ρ)
    (visit : List Bytes → (off type chunkSize : ℕ) → τ → Except String (τ ⊕ Option ρ)) :
    Loop.Fueled String (Option ρ) := fun fuel => do
  let strings ← axmlStringPool manifest fuel
  walkChunks manifest start finish visit strings fuel

/-- `infer_binary_manifest_string_attribute`. -/
def inferBinaryManifestStringAttribute (manifest element attr : Bytes) :
    Loop.Fueled String (Option Bytes) :=
  walkManifest manifest () (fun _ => none) fun strings =>
    attributeVisit manifest strings element (pickString manifest strings attr)

/-- `infer_binary_manifest_package`. -/
def inferBinaryManifestPackage (manifest : Bytes) : Loop.Fueled String (Option Bytes) :=
  inferBinaryManifestStringAttribute manifest (ascii "manifest") (ascii "package")

/-- `infer_binary_manifest_resource_attribute`. -/
def inferBinaryManifestResourceAttribute (manifest element attr : Bytes) :
    Loop.Fueled String (Option ℕ) :=
  walkManifest manifest () (fun _ => none) fun strings =>
    attributeVisit manifest strings element (pickReference manifest strings attr)

/-! ## The launcher -/

/-- `normalize_activity_name`. -/
def normalizeActivityName (packageName activityName : Bytes) : Bytes :=
  if activityName.isEmpty then activityName
  else if !packageName.isEmpty && activityName.head? = some 46 then packageName ++ activityName
  else if !packageName.isEmpty && !activityName.contains 46 then
    packageName ++ ascii "." ++ activityName
  else activityName

/-- `std::tolower` in the C locale. -/
def toLower (c : UInt8) : UInt8 :=
  if 65 ≤ c ∧ c ≤ 90 then c + 32 else c

/-- `text.find(needle) != std::string::npos`. -/
def has (text : Bytes) (needle : String) : Bool :=
  ascii needle <:+: text

/-- The names both launcher searches prefer. -/
def looksMain (name : Bytes) : Bool :=
  let lower := name.map toLower
  has lower "mainactivity" || has lower "main" && !has lower "panic" && !has lower "calc"

def mainAction : String := "android.intent.action.MAIN"

def launcherCategories : List String :=
  ["android.intent.category.LAUNCHER", "android.intent.category.HOME",
   "android.intent.category.SECONDARY_HOME"]

/-- What `infer_binary_manifest_launch_activity` has seen so far. -/
structure LaunchScan where
  firstActivity : Option Bytes := none
  currentActivity : Option Bytes := none
  launcherActivities : List Bytes := []
  hasMainAction : Bool := false
  hasLauncherCategory : Bool := false
  deriving DecidableEq

def LaunchScan.onStart (manifest : Bytes) (strings : List Bytes) (packageName : Option Bytes)
    (off : ℕ) (scan : LaunchScan) : Except String LaunchScan := do
  let nameIdx ← readU32 manifest (off + 20)
  let element := strings.getD nameIdx []
  if element = ascii "activity" then
    match ← attributeValue manifest strings off (ascii "name") with
    | some name =>
      let current := normalizeActivityName (packageName.getD []) name
      return { scan with
        currentActivity := some current
        firstActivity := scan.firstActivity.or (some current)
        hasMainAction := false
        hasLauncherCategory := false }
    | none => return scan
  else if scan.currentActivity.isSome ∧ element = ascii "action" then
    if scan.hasMainAction then return scan
    else
      let action ← attributeValue manifest strings off (ascii "name")
      return { scan with hasMainAction := action = some (ascii mainAction) }
  else if scan.currentActivity.isSome ∧ element = ascii "category" then
    let category ← attributeValue manifest strings off (ascii "name")
    return { scan with
      hasLauncherCategory := scan.hasLauncherCategory ||
        launcherCategories.any fun wanted => category = some (ascii wanted) }
  else return scan

def LaunchScan.onEnd (manifest : Bytes) (strings : List Bytes) (off : ℕ) (scan : LaunchScan) :
    Except String LaunchScan := do
  let nameIdx ← readU32 manifest (off + 20)
  match scan.currentActivity with
  | some current =>
    if strings[nameIdx]? = some (ascii "activity") then
      return { scan with
        launcherActivities :=
          if scan.hasMainAction && scan.hasLauncherCategory then
            scan.launcherActivities ++ [current]
          else scan.launcherActivities
        currentActivity := none }
    else return scan
  | none => return scan

def launchVisit (manifest : Bytes) (packageName : Option Bytes) (strings : List Bytes)
    (off type _chunkSize : ℕ) (scan : LaunchScan) : Except String (LaunchScan ⊕ Option Bytes) := do
  if type = startElement ∧ off + 36 ≤ manifest.length then
    return .inl (← scan.onStart manifest strings packageName off)
  else if type = endElement ∧ off + 24 ≤ manifest.length then
    return .inl (← scan.onEnd manifest strings off)
  else return .inl scan

/-- The choice at the end: a launcher that looks like the main one, or
else the first launcher, or else the first activity. -/
def LaunchScan.choose (scan : LaunchScan) : Option Bytes :=
  match scan.launcherActivities with
  | [] => scan.firstActivity
  | act :: acts => ((act :: acts).find? looksMain).or (some act)

/-- `infer_binary_manifest_launch_activity`. -/
def inferBinaryManifestLaunchActivity (manifest : Bytes) (packageName : Option Bytes) :
    Loop.Fueled String (Option Bytes) :=
  walkManifest manifest {} LaunchScan.choose (launchVisit manifest packageName)

/-! ## The widget provider -/

def widgetUpdate : String := "android.appwidget.action.APPWIDGET_UPDATE"

def widgetVisit (manifest : Bytes) (packageName : Option Bytes) (strings : List Bytes)
    (off type _chunkSize : ℕ) (receiver : Option Bytes) :
    Except String (Option Bytes ⊕ Option Bytes) := do
  if type = startElement ∧ off + 36 ≤ manifest.length then
    let nameIdx ← readU32 manifest (off + 20)
    let element := strings.getD nameIdx []
    if element = ascii "receiver" then
      let value ← attributeValue manifest strings off (ascii "name")
      return .inl (value.map (normalizeActivityName (packageName.getD [])))
    else if receiver.isSome ∧ element = ascii "action" then
      let action ← attributeValue manifest strings off (ascii "name")
      if action = some (ascii widgetUpdate) then return .inr receiver else return .inl receiver
    else return .inl receiver
  else if type = endElement ∧ off + 24 ≤ manifest.length then
    let nameIdx ← readU32 manifest (off + 20)
    if receiver.isSome ∧ strings[nameIdx]? = some (ascii "receiver") then return .inl none
    else return .inl receiver
  else return .inl receiver

/-- `infer_binary_manifest_widget_provider`. -/
def inferBinaryManifestWidgetProvider (manifest : Bytes) (packageName : Option Bytes) :
    Loop.Fueled String (Option Bytes) :=
  walkManifest manifest none (fun _ => none) (widgetVisit manifest packageName)

/-! ## The native library -/

/-- What `infer_binary_manifest_lib` does with the texts of the pool: the
first library of the package they name, or the only one, once they ask for
any. -/
def libIn (strings availableBases : List Bytes) : Option Bytes :=
  if strings.contains (ascii "android.app.lib_name") then
    (availableBases.find? strings.contains).or
      (if availableBases.length = 1 then availableBases.head? else none)
  else none

/-- `infer_binary_manifest_lib`. -/
def inferBinaryManifestLib (manifest : Bytes) (availableBases : List Bytes) :
    Loop.Fueled String (Option Bytes) := fun fuel => do
  let strings ← axmlStringPool manifest fuel
  return libIn strings availableBases

/-! ## Empty chunks -/

section Stuck

variable {manifest : Bytes} {off : ℕ}

/-- An empty chunk has no attributes: the first would not be in it. -/
theorem attributes_stuck {α : Type} (pick : ℕ → Except String (Option α))
    (hstuck : Stuck manifest off) (hroom : off + 36 ≤ manifest.length) :
    attributes manifest off pick = .ok none := by
  rw [attributes, readU32_eq (by omega), readU16_eq (by omega), readU16_eq (by omega),
    readU16_eq (by omega), hstuck.2.2]
  simp only [bind, Except.bind]
  cases u16 manifest (off + 28) with
  | zero => rfl
  | succ n =>
    rw [attributeLoop, if_pos (by omega)]
    rfl

theorem attributeVisit_stuck {α : Type} (strings : List Bytes) (element : Bytes)
    (pick : ℕ → Except String (Option α)) (type : ℕ) (hstuck : Stuck manifest off) :
    ∃ state', attributeVisit manifest strings element pick off type 0 () = .ok (.inl state') := by
  refine ⟨(), ?_⟩
  rw [attributeVisit]
  by_cases h : type = startElement ∧ off + 36 ≤ manifest.length
  · rw [if_pos h, readU32_eq (by omega), attributes_stuck pick hstuck h.2]
    simp only [bind, Except.bind]
    split
    · rfl
    · rfl
  · rw [if_neg h]
    rfl

theorem onStart_stuck (strings : List Bytes) (packageName : Option Bytes) (scan : LaunchScan)
    (hstuck : Stuck manifest off) (hroom : off + 36 ≤ manifest.length) :
    ∃ scan', scan.onStart manifest strings packageName off = .ok scan' := by
  rw [LaunchScan.onStart, readU32_eq (by omega)]
  simp only [attributeValue, attributes_stuck _ hstuck hroom, bind, Except.bind]
  split
  · exact ⟨_, rfl⟩
  · split
    · split
      · exact ⟨_, rfl⟩
      · exact ⟨_, rfl⟩
    · split
      · exact ⟨_, rfl⟩
      · exact ⟨_, rfl⟩

theorem onEnd_ok (strings : List Bytes) (scan : LaunchScan) (hroom : off + 24 ≤ manifest.length) :
    ∃ scan', scan.onEnd manifest strings off = .ok scan' := by
  rw [LaunchScan.onEnd, readU32_eq (by omega)]
  simp only [bind, Except.bind]
  split
  · split
    · exact ⟨_, rfl⟩
    · exact ⟨_, rfl⟩
  · exact ⟨_, rfl⟩

theorem launchVisit_stuck (packageName : Option Bytes) (strings : List Bytes)
    (type : ℕ) (scan : LaunchScan) (hstuck : Stuck manifest off) :
    ∃ scan', launchVisit manifest packageName strings off type 0 scan =
      .ok (.inl scan') := by
  rw [launchVisit]
  by_cases hstart : type = startElement ∧ off + 36 ≤ manifest.length
  · obtain ⟨scan', h⟩ := onStart_stuck strings packageName scan hstuck hstart.2
    exact ⟨scan', by rw [if_pos hstart, h]; rfl⟩
  · rw [if_neg hstart]
    by_cases hend : type = endElement ∧ off + 24 ≤ manifest.length
    · obtain ⟨scan', h⟩ := onEnd_ok strings scan hend.2
      exact ⟨scan', by rw [if_pos hend, h]; rfl⟩
    · exact ⟨scan, by rw [if_neg hend]; rfl⟩

theorem widgetVisit_stuck (packageName : Option Bytes) (strings : List Bytes) (type : ℕ)
    (receiver : Option Bytes) (hstuck : Stuck manifest off) :
    ∃ receiver', widgetVisit manifest packageName strings off type 0 receiver =
      .ok (.inl receiver') := by
  rw [widgetVisit]
  by_cases hstart : type = startElement ∧ off + 36 ≤ manifest.length
  · rw [if_pos hstart, readU32_eq (by omega)]
    simp only [attributeValue, attributes_stuck _ hstuck hstart.2, bind, Except.bind]
    split
    · exact ⟨_, rfl⟩
    · split
      · exact ⟨_, rfl⟩
      · exact ⟨_, rfl⟩
  · rw [if_neg hstart]
    by_cases hend : type = endElement ∧ off + 24 ≤ manifest.length
    · rw [if_pos hend, readU32_eq (by omega)]
      simp only [bind, Except.bind]
      split
      · exact ⟨_, rfl⟩
      · exact ⟨_, rfl⟩
    · exact ⟨receiver, by rw [if_neg hend]; rfl⟩

/-- The walk of `manifest` comes to no empty chunk. -/
def WalkClear {τ ρ : Type} (manifest : Bytes) (start : τ) (finish : τ → Option ρ)
    (visit : List Bytes → (off type chunkSize : ℕ) → τ → Except String (τ ⊕ Option ρ)) : Prop :=
  ∀ strings, Loop.Yields (axmlStringPool manifest) (.ok strings) → strings ≠ [] →
    ∀ t, Loop.Visits (chunkBody manifest (visit strings) finish) (chunksStart manifest, start) t →
      ¬Stuck manifest t.1

/-- The search for the string pool comes to no empty chunk. -/
def PoolClear (manifest : Bytes) : Prop :=
  ∀ off, Loop.Visits (axmlStringPoolBody manifest) (chunksStart manifest) off →
    ¬PoolStuck manifest off

theorem walkChunks_steady {τ ρ : Type} (manifest : Bytes) (start : τ) (finish : τ → Option ρ)
    (visit : List Bytes → (off type chunkSize : ℕ) → τ → Except String (τ ⊕ Option ρ))
    (strings : List Bytes) : Loop.Steady (walkChunks manifest start finish visit strings) := by
  cases strings with
  | nil => exact Loop.steady_pure _
  | cons text texts => exact Loop.run_steady _ _

theorem inferBinaryManifestLib_halts_iff (manifest : Bytes) (availableBases : List Bytes) :
    Loop.Halts (inferBinaryManifestLib manifest availableBases) ↔ PoolClear manifest := by
  refine (Loop.halts_bind (Loop.run_steady _ _) fun _ => Loop.steady_pure _).trans ?_
  refine (and_iff_left fun strings _ => ?_).trans (axmlStringPool_halts_iff manifest)
  exact Loop.halts_pure (.ok (libIn strings availableBases))

/-- **When a search of a manifest ends.** -/
theorem walkManifest_halts_iff {τ ρ : Type} {start : τ} {finish : τ → Option ρ}
    {visit : List Bytes → (off type chunkSize : ℕ) → τ → Except String (τ ⊕ Option ρ)}
    (hvisit : ∀ strings off type state, Stuck manifest off →
      ∃ state', visit strings off type 0 state = .ok (.inl state')) :
    Loop.Halts (walkManifest manifest start finish visit) ↔
      PoolClear manifest ∧ WalkClear manifest start finish visit := by
  refine (Loop.halts_bind (Loop.run_steady _ _) (walkChunks_steady _ _ _ _)).trans ?_
  refine and_congr (axmlStringPool_halts_iff manifest)
    (forall_congr' fun strings => forall_congr' fun _ => ?_)
  cases strings with
  | nil => exact iff_of_true (Loop.halts_pure _) (fun h => absurd rfl h)
  | cons text texts =>
    have h : Loop.Halts (Loop.run (chunkBody manifest (visit (text :: texts)) finish)
        (chunksStart manifest, start)) ↔ _ :=
      chunkBody_halts_iff (hvisit (text :: texts))
    exact h.trans ⟨fun hclear _ => hclear, fun hclear => hclear (List.cons_ne_nil _ _)⟩

end Stuck

end Apk

end Muplar
