import Muplar.Apk.Accesses
/-!
# APK — the accesses of the searches

The searches of a manifest and of a resource table, with every index they
read an element at. The reads of numbers and of texts are checked where
they are made. A byte of an attribute, or of an entry of a table, is not:
that it is there follows from a check of the size of its chunk, made when
the loop came to it.
-/

namespace Muplar

namespace Apk

namespace Access

open Checked

/-! ## Attributes -/

section Attributes

variable {α : Type}

/-- The attribute loop of an element, with `n` attributes left from `i`
on. -/
def attributeLoop (off chunkSize attrs attrSize : ℕ) (pick : ℕ → Except (Stop String) (Option α)) :
    (n i : ℕ) → Except (Stop String) (Option α)
  | 0, _ => return none
  | n + 1, i => do
    let a := attrs + i * attrSize
    if off + chunkSize < a + 20 then return none
    else match ← pick a with
      | some value => return some value
      | none => attributeLoop off chunkSize attrs attrSize pick n (i + 1)

/-- The attributes of the element at `off`. -/
def attributes (manifest : Bytes) (off : ℕ) (pick : ℕ → Except (Stop String) (Option α)) :
    Except (Stop String) (Option α) := do
  let chunkSize ← readU32 manifest (off + 4)
  let attrStart ← readU16 manifest (off + 24)
  let attrSize ← readU16 manifest (off + 26)
  let attrCount ← readU16 manifest (off + 28)
  attributeLoop off chunkSize (off + 16 + attrStart) attrSize pick attrCount 0

/-- The text of the attribute at `a`, as the launcher's and the widget's
search take it: the typed value is read once its type is known. -/
def pickString (manifest : Bytes) (strings : List Bytes) (wanted : Bytes) (a : ℕ) :
    Except (Stop String) (Option Bytes) := do
  let nameIdx ← readU32 manifest (a + 4)
  if !(← textIs strings nameIdx wanted) then return none
  else
    let rawIdx ← readU32 manifest (a + 8)
    if rawIdx ≠ noIndex ∧ rawIdx < strings.length then return some (← element strings rawIdx)
    else if (← element manifest (a + 15)).toNat = typeString then
      let valueIdx ← readU32 manifest (a + 16)
      textAt strings valueIdx
    else return none

/-- The text of the attribute at `a`, as the other two searches for one
take it: the typed value is read with its type. -/
def pickTyped (manifest : Bytes) (strings : List Bytes) (wanted : Bytes) (a : ℕ) :
    Except (Stop String) (Option Bytes) := do
  let nameIdx ← readU32 manifest (a + 4)
  if !(← textIs strings nameIdx wanted) then return none
  else
    let rawIdx ← readU32 manifest (a + 8)
    if rawIdx ≠ noIndex ∧ rawIdx < strings.length then return some (← element strings rawIdx)
    else
      let dataType ← element manifest (a + 15)
      let data ← readU32 manifest (a + 16)
      if dataType.toNat = typeString then textAt strings data else return none

/-- The resource the attribute at `a` refers to. -/
def pickReference (manifest : Bytes) (strings : List Bytes) (wanted : Bytes) (a : ℕ) :
    Except (Stop String) (Option ℕ) := do
  let nameIdx ← readU32 manifest (a + 4)
  if ← textIs strings nameIdx wanted then
    let dataType ← element manifest (a + 15)
    if dataType.toNat = typeReference ∨ dataType.toNat = typeDynamicReference then
      return some (← readU32 manifest (a + 16))
    else return none
  else return none

/-- `attribute_value`. -/
def attributeValue (manifest : Bytes) (strings : List Bytes) (off : ℕ) (wanted : Bytes) :
    Except (Stop String) (Option Bytes) :=
  attributes manifest off (pickString manifest strings wanted)

variable {manifest : Bytes} {strings : List Bytes} {off a : ℕ}

/-- The loop hands `pick` attributes that are in the chunk, and no
others. -/
theorem attributeLoop_raise {chunkSize attrs attrSize : ℕ}
    {checked : ℕ → Except (Stop String) (Option α)} {pick : ℕ → Except String (Option α)}
    (hpick : ∀ a, a + 20 ≤ off + chunkSize → checked a = raise (pick a)) (n i : ℕ) :
    attributeLoop off chunkSize attrs attrSize checked n i =
      raise (Apk.attributeLoop off chunkSize attrs attrSize pick n i) := by
  induction n generalizing i with
  | zero => rfl
  | succ n ih =>
    rw [attributeLoop, Apk.attributeLoop]
    simp only [raise_ite, raise_bind, raise_pure]
    refine ite_congr rfl (fun _ => rfl) fun hin => ?_
    rw [hpick _ (by omega)]
    refine bind_congr fun found => ?_
    cases found with
    | none => exact ih (i + 1)
    | some value => rfl

theorem attributes_raise {checked : ℕ → Except (Stop String) (Option α)}
    {pick : ℕ → Except String (Option α)} (hchunk : off + u32 manifest (off + 4) ≤ manifest.length)
    (hpick : ∀ a, a + 20 ≤ manifest.length → checked a = raise (pick a)) :
    attributes manifest off checked = raise (Apk.attributes manifest off pick) := by
  unfold attributes Apk.attributes
  simp only [raise_bind, readU16_raise, readU32_raise]
  by_cases hsize : manifest.length < off + 4 + 4
  · rw [Apk.readU32, if_pos hsize]
    rfl
  · rw [readU32_eq (by omega)]
    simp only [raise_ok, ok_bind]
    refine bind_congr fun attrStart => bind_congr fun attrSize => bind_congr fun attrCount => ?_
    exact attributeLoop_raise (fun a ha => hpick a (by omega)) _ _

/-- An attribute's raw value is among the texts. -/
theorem element_eq_getElem? {idx : ℕ} (h : idx < strings.length) :
    (do return some (← element strings idx) : Except (Stop String) (Option Bytes)) =
      pure strings[idx]? := by
  rw [element_eq h, List.getElem?_eq_getElem h]
  rfl

theorem pickString_raise (wanted : Bytes) (ha : a + 20 ≤ manifest.length) :
    pickString manifest strings wanted a = raise (Apk.pickString manifest strings wanted a) := by
  unfold pickString Apk.pickString
  rw [element_eq (by omega), byteAt_eq (by omega)]
  simp only [raise_bind, raise_ite, raise_pure, readU32_raise, textIs_eq, textAt_eq, ok_bind,
    Bool.not_eq_true', decide_eq_false_iff_not]
  refine bind_congr fun nameIdx => ite_congr rfl (fun _ => rfl) fun _ => bind_congr fun rawIdx => ?_
  refine ite_congr rfl (fun hraw => ?_) fun _ => rfl
  exact element_eq_getElem? hraw.2

/-- Reading the value before its type is looked at makes no difference:
it is in the chunk with it. -/
theorem pickTyped_raise (wanted : Bytes) (ha : a + 20 ≤ manifest.length) :
    pickTyped manifest strings wanted a = raise (Apk.pickString manifest strings wanted a) := by
  unfold pickTyped Apk.pickString
  rw [element_eq (by omega), byteAt_eq (by omega), readU32_raise manifest (a + 16),
    readU32_eq (by omega)]
  simp only [raise_bind, raise_ite, raise_pure, raise_ok, readU32_raise, textIs_eq, textAt_eq,
    ok_bind, Bool.not_eq_true', decide_eq_false_iff_not]
  refine bind_congr fun nameIdx => ite_congr rfl (fun _ => rfl) fun _ => bind_congr fun rawIdx => ?_
  refine ite_congr rfl (fun hraw => ?_) fun _ => rfl
  exact element_eq_getElem? hraw.2

theorem pickReference_raise (wanted : Bytes) (ha : a + 20 ≤ manifest.length) :
    pickReference manifest strings wanted a =
      raise (Apk.pickReference manifest strings wanted a) := by
  unfold pickReference Apk.pickReference
  rw [element_eq (by omega), byteAt_eq (by omega)]
  simp only [raise_bind, raise_ite, raise_pure, readU32_raise, textIs_eq, ok_bind,
    decide_eq_true_eq, ne_eq, ite_not]

theorem attributeValue_raise (wanted : Bytes)
    (hchunk : off + u32 manifest (off + 4) ≤ manifest.length) :
    attributeValue manifest strings off wanted =
      raise (Apk.attributeValue manifest strings off wanted) :=
  attributes_raise hchunk fun _ ha => pickString_raise wanted ha

end Attributes

/-! ## Elements -/

/-- The name of an element, and the empty string where there is none. -/
def nameAt (strings : List Bytes) (idx : ℕ) : Except (Stop String) Bytes := do
  if idx < strings.length then element strings idx else return []

/-- A walk that takes the first value `pick` finds on an element of the
given name. -/
def attributeVisit {α : Type} (manifest : Bytes) (strings : List Bytes) (element : Bytes)
    (pick : ℕ → Except (Stop String) (Option α)) (off type _chunkSize : ℕ) (_ : Unit) :
    Except (Stop String) (Unit ⊕ Option α) := do
  if type = startElement ∧ off + 36 ≤ manifest.length then
    let elementIdx ← readU32 manifest (off + 20)
    if ← textIs strings elementIdx element then
      match ← attributes manifest off pick with
      | some value => return .inr (some value)
      | none => return .inl ()
    else return .inl ()
  else return .inl ()

def onStart (manifest : Bytes) (strings : List Bytes) (packageName : Option Bytes) (off : ℕ)
    (scan : LaunchScan) : Except (Stop String) LaunchScan := do
  let nameIdx ← readU32 manifest (off + 20)
  let element ← nameAt strings nameIdx
  if element = ascii "activity" then
    match ← attributeValue manifest strings off (ascii "name") with
    | some name =>
      let current := normalizeActivityName (packageName.getD []) name
      return { scan with
        currentActivity := some current
        firstActivity := scan.firstActivity.or (some current)
        hasMainAction := false
        hasLauncherCategory := false }
    | none => return scan
  else if scan.currentActivity.isSome ∧ element = ascii "action" then
    if scan.hasMainAction then return scan
    else
      let action ← attributeValue manifest strings off (ascii "name")
      return { scan with hasMainAction := action = some (ascii mainAction) }
  else if scan.currentActivity.isSome ∧ element = ascii "category" then
    let category ← attributeValue manifest strings off (ascii "name")
    return { scan with
      hasLauncherCategory := scan.hasLauncherCategory ||
        launcherCategories.any fun wanted => category = some (ascii wanted) }
  else return scan

def onEnd (manifest : Bytes) (strings : List Bytes) (off : ℕ) (scan : LaunchScan) :
    Except (Stop String) LaunchScan := do
  let nameIdx ← readU32 manifest (off + 20)
  match scan.currentActivity with
  | some current =>
    if ← textIs strings nameIdx (ascii "activity") then
      return { scan with
        launcherActivities :=
          if scan.hasMainAction && scan.hasLauncherCategory then
            scan.launcherActivities ++ [current]
          else scan.launcherActivities
        currentActivity := none }
    else return scan
  | none => return scan

def launchVisit (manifest : Bytes) (packageName : Option Bytes) (strings : List Bytes)
    (off type _chunkSize : ℕ) (scan : LaunchScan) :
    Except (Stop String) (LaunchScan ⊕ Option Bytes) := do
  if type = startElement ∧ off + 36 ≤ manifest.length then
    return .inl (← onStart manifest strings packageName off scan)
  else if type = endElement ∧ off + 24 ≤ manifest.length then
    return .inl (← onEnd manifest strings off scan)
  else return .inl scan

def widgetVisit (manifest : Bytes) (packageName : Option Bytes) (strings : List Bytes)
    (off type _chunkSize : ℕ) (receiver : Option Bytes) :
    Except (Stop String) (Option Bytes ⊕ Option Bytes) := do
  if type = startElement ∧ off + 36 ≤ manifest.length then
    let nameIdx ← readU32 manifest (off + 20)
    let element ← nameAt strings nameIdx
    if element = ascii "receiver" then
      let value ← attributeValue manifest strings off (ascii "name")
      return .inl (value.map (normalizeActivityName (packageName.getD [])))
    else if receiver.isSome ∧ element = ascii "action" then
      let action ← attributeValue manifest strings off (ascii "name")
      if action = some (ascii widgetUpdate) then return .inr receiver else return .inl receiver
    else return .inl receiver
  else if type = endElement ∧ off + 24 ≤ manifest.length then
    let nameIdx ← readU32 manifest (off + 20)
    if receiver.isSome then
      if ← textIs strings nameIdx (ascii "receiver") then return .inl none
      else return .inl receiver
    else return .inl receiver
  else return .inl receiver

section Elements

variable {manifest : Bytes} {off : ℕ}

theorem nameAt_eq (strings : List Bytes) (idx : ℕ) :
    nameAt strings idx = .ok (strings.getD idx []) := by
  unfold nameAt
  rw [List.getD_eq_getElem?_getD]
  by_cases h : idx < strings.length
  · rw [if_pos h, element_eq h, List.getElem?_eq_getElem h, Option.getD_some]
  · rw [if_neg h, List.getElem?_eq_none (by omega)]
    rfl

theorem attributeVisit_raise {α : Type} {checked : ℕ → Except (Stop String) (Option α)}
    {pick : ℕ → Except String (Option α)} (strings : List Bytes) (element : Bytes)
    (type chunkSize : ℕ) (state : Unit)
    (hpick : ∀ a, a + 20 ≤ manifest.length → checked a = raise (pick a))
    (hchunk : off + u32 manifest (off + 4) ≤ manifest.length) :
    attributeVisit manifest strings element checked off type chunkSize state =
      raise (Apk.attributeVisit manifest strings element pick off type chunkSize state) := by
  unfold attributeVisit Apk.attributeVisit
  simp only [raise_bind, raise_ite, raise_pure, readU32_raise, textIs_eq, ok_bind,
    decide_eq_true_eq, attributes_raise hchunk hpick]
  refine ite_congr rfl (fun _ => ?_) fun _ => rfl
  refine bind_congr fun elementIdx => ite_congr rfl (fun _ => ?_) fun _ => rfl
  refine bind_congr fun found => ?_
  cases found with
  | none => rfl
  | some value => rfl

theorem onStart_raise (strings : List Bytes) (packageName : Option Bytes) (scan : LaunchScan)
    (hchunk : off + u32 manifest (off + 4) ≤ manifest.length) :
    onStart manifest strings packageName off scan =
      raise (scan.onStart manifest strings packageName off) := by
  unfold onStart LaunchScan.onStart
  simp only [raise_bind, raise_ite, raise_pure, readU32_raise, nameAt_eq, ok_bind,
    attributeValue_raise _ hchunk]
  refine bind_congr fun nameIdx => ite_congr rfl (fun _ => ?_) fun _ => rfl
  refine bind_congr fun name => ?_
  cases name with
  | none => rfl
  | some name => rfl

theorem onEnd_raise (strings : List Bytes) (scan : LaunchScan) :
    onEnd manifest strings off scan = raise (scan.onEnd manifest strings off) := by
  unfold onEnd LaunchScan.onEnd
  simp only [raise_bind, readU32_raise]
  refine bind_congr fun nameIdx => ?_
  cases scan.currentActivity with
  | none => rfl
  | some current =>
    simp only [raise_ite, raise_pure, textIs_eq, ok_bind, decide_eq_true_eq]

theorem launchVisit_raise (packageName : Option Bytes) (strings : List Bytes)
    (type chunkSize : ℕ) (scan : LaunchScan)
    (hchunk : off + u32 manifest (off + 4) ≤ manifest.length) :
    launchVisit manifest packageName strings off type chunkSize scan =
      raise (Apk.launchVisit manifest packageName strings off type chunkSize scan) := by
  unfold launchVisit Apk.launchVisit
  simp only [raise_bind, raise_ite, raise_pure, onStart_raise strings packageName scan hchunk,
    onEnd_raise]

theorem widgetVisit_raise (packageName : Option Bytes) (strings : List Bytes)
    (type chunkSize : ℕ) (receiver : Option Bytes)
    (hchunk : off + u32 manifest (off + 4) ≤ manifest.length) :
    widgetVisit manifest packageName strings off type chunkSize receiver =
      raise (Apk.widgetVisit manifest packageName strings off type chunkSize receiver) := by
  unfold widgetVisit Apk.widgetVisit
  simp only [raise_bind, raise_ite, raise_pure, readU32_raise, nameAt_eq, textIs_eq, ok_bind,
    decide_eq_true_eq, attributeValue_raise _ hchunk, ite_and]

end Elements

/-! ## Manifests -/

section Manifests

variable {τ ρ : Type}

/-- One iteration of the loop over the chunks. -/
def chunkBody (data : Bytes)
    (visit : (off type chunkSize : ℕ) → τ → Except (Stop String) (τ ⊕ ρ)) (finish : τ → ρ)
    (s : ℕ × τ) : Except (Stop String) ((ℕ × τ) ⊕ ρ) := do
  let (off, state) := s
  if data.length < off + 8 then return .inr (finish state)
  else
    let type ← readU16 data off
    let headerSize ← readU16 data (off + 2)
    let chunkSize ← readU32 data (off + 4)
    if chunkSize < headerSize ∨ data.length < off + chunkSize then return .inr (finish state)
    else match ← visit off type chunkSize state with
      | .inr result => return .inr result
      | .inl state' => return .inl (off + chunkSize, state')

/-- The walk of a manifest, with the texts of its pool. -/
def walkChunks (manifest : Bytes) (start : τ) (finish : τ → Option ρ)
    (visit : List Bytes → (off type chunkSize : ℕ) → τ → Except (Stop String) (τ ⊕ Option ρ))
    (strings : List Bytes) : Loop.Fueled (Stop String) (Option ρ) := fun fuel => do
  if strings.isEmpty then return none
  else
    let off ← atOnce (chunksStart manifest)
    Loop.run (chunkBody manifest (visit strings) finish) (off, start) fuel

/-- The pool is decoded, and then the chunks are walked. -/
def walkManifest (manifest : Bytes) (start : τ) (finish : τ → Option ρ)
    (visit : List Bytes → (off type chunkSize : ℕ) → τ → Except (Stop String) (τ ⊕ Option ρ)) :
    Loop.Fueled (Stop String) (Option ρ) := fun fuel => do
  let strings ← axmlStringPool manifest fuel
  walkChunks manifest start finish visit strings fuel

/-- `infer_binary_manifest_string_attribute`. -/
def inferBinaryManifestStringAttribute (manifest element attr : Bytes) :
    Loop.Fueled (Stop String) (Option Bytes) :=
  walkManifest manifest () (fun _ => none) fun strings =>
    attributeVisit manifest strings element (pickTyped manifest strings attr)

/-- `infer_binary_manifest_package`. -/
def inferBinaryManifestPackage (manifest : Bytes) : Loop.Fueled (Stop String) (Option Bytes) :=
  inferBinaryManifestStringAttribute manifest (ascii "manifest") (ascii "package")

/-- `infer_binary_manifest_resource_attribute`. -/
def inferBinaryManifestResourceAttribute (manifest element attr : Bytes) :
    Loop.Fueled (Stop String) (Option ℕ) :=
  walkManifest manifest () (fun _ => none) fun strings =>
    attributeVisit manifest strings element (pickReference manifest strings attr)

/-- `infer_binary_manifest_launch_activity`. -/
def inferBinaryManifestLaunchActivity (manifest : Bytes) (packageName : Option Bytes) :
    Loop.Fueled (Stop String) (Option Bytes) :=
  walkManifest manifest {} LaunchScan.choose (launchVisit manifest packageName)

/-- `infer_binary_manifest_widget_provider`. -/
def inferBinaryManifestWidgetProvider (manifest : Bytes) (packageName : Option Bytes) :
    Loop.Fueled (Stop String) (Option Bytes) :=
  walkManifest manifest none (fun _ => none) (widgetVisit manifest packageName)

/-- `infer_binary_manifest_lib`. It reads no element but those of the
pool: the rest goes over lists from their first to their last. -/
def inferBinaryManifestLib (manifest : Bytes) (availableBases : List Bytes) :
    Loop.Fueled (Stop String) (Option Bytes) := fun fuel => do
  let strings ← axmlStringPool manifest fuel
  return libIn strings availableBases

variable {manifest data : Bytes}

/-- A chunk handed to `visit` is in the data. -/
theorem chunkBody_raise {checked : (off type chunkSize : ℕ) → τ → Except (Stop String) (τ ⊕ ρ)}
    {visit : (off type chunkSize : ℕ) → τ → Except String (τ ⊕ ρ)} {finish : τ → ρ}
    (hvisit : ∀ off type chunkSize state, off + u32 data (off + 4) ≤ data.length →
      checked off type chunkSize state = raise (visit off type chunkSize state)) (s : ℕ × τ) :
    chunkBody data checked finish s = raise (Apk.chunkBody data visit finish s) := by
  obtain ⟨off, state⟩ := s
  simp only [chunkBody, Apk.chunkBody, raise_ite, raise_bind, raise_pure, readU16_raise,
    readU32_raise]
  refine ite_congr rfl (fun _ => rfl) fun hroom => ?_
  rw [readU32_eq (by omega)]
  refine bind_congr fun type => bind_congr fun headerSize => ?_
  simp only [raise_ok, ok_bind]
  refine ite_congr rfl (fun _ => rfl) fun hchunk => ?_
  rw [hvisit off type _ state (by omega)]
  refine bind_congr fun next => ?_
  cases next with
  | inl state' => rfl
  | inr result => rfl

theorem walkManifest_raised {start : τ} {finish : τ → Option ρ}
    {checked : List Bytes → (off type chunkSize : ℕ) → τ → Except (Stop String) (τ ⊕ Option ρ)}
    {visit : List Bytes → (off type chunkSize : ℕ) → τ → Except String (τ ⊕ Option ρ)}
    (hvisit : ∀ strings off type chunkSize state, off + u32 manifest (off + 4) ≤ manifest.length →
      checked strings off type chunkSize state = raise (visit strings off type chunkSize state))
    (fuel : ℕ) :
    walkManifest manifest start finish checked fuel =
      raised (Apk.walkManifest manifest start finish visit fuel) := by
  unfold walkManifest Apk.walkManifest
  rw [raised_bind, axmlStringPool_raised]
  refine bind_congr fun strings => ?_
  unfold walkChunks Apk.walkChunks
  rw [chunksStart_eq]
  cases strings with
  | nil => rfl
  | cons text texts =>
    exact run_raised (P := fun _ => True) (fun s _ => chunkBody_raise (hvisit (text :: texts)) s)
      (fun _ _ _ _ => trivial) trivial fuel

end Manifests

/-! ## Resource tables -/

/-- The sparse entries of a type chunk, with `n` left from `i` on. -/
def sparseEntry (resources : Bytes) (child childHeaderSize childSize wanted : ℕ) :
    (n i : ℕ) → Except (Stop String) ℕ
  | 0, _ => return noEntry
  | n + 1, i => do
    let sparse := child + childHeaderSize + i * 4 % 2 ^ 32
    if child + childSize < sparse + 4 then return noEntry
    else if (← readU16 resources sparse) = wanted then
      return (← readU16 resources (sparse + 2)) * 4
    else sparseEntry resources child childHeaderSize childSize wanted n (i + 1)

/-- The offset of the wanted entry in the type chunk at `child`. -/
def entryOffsetIn (resources : Bytes) (child childHeaderSize childSize wanted : ℕ) :
    Except (Stop String) ℕ := do
  let typeFlags ← element resources (child + 9)
  let entryCount ← readU32 resources (child + 12)
  if typeFlags.toNat % 2 = 1 then
    sparseEntry resources child childHeaderSize childSize wanted entryCount 0
  else if wanted < entryCount then
    let offsetPos := child + childHeaderSize + wanted * 4
    if offsetPos + 4 ≤ child + childSize then readU32 resources offsetPos else return noEntry
  else return noEntry

/-- The text of the entry at `entry`. -/
def entryString (resources : Bytes) (globalStrings : List Bytes) (child childSize entry : ℕ) :
    Except (Stop String) (Option Bytes) := do
  if entry + 8 ≤ child + childSize then
    let entrySize ← readU16 resources entry
    let entryFlags ← readU16 resources (entry + 2)
    let value := entry + entrySize
    if entryFlags % 2 = 0 ∧ value + 8 ≤ child + childSize then
      if (← element resources (value + 3)).toNat = typeString then
        textAt globalStrings (← readU32 resources (value + 4))
      else return none
    else return none
  else return none

/-- What the type chunk at `child` has for the resource. -/
def typeChunkString (resources : Bytes) (resourceId : ℕ) (globalStrings : List Bytes)
    (child childHeaderSize childSize : ℕ) : Except (Stop String) (Option Bytes) := do
  let entriesStart ← readU32 resources (child + 16)
  let entryOffset ←
    entryOffsetIn resources child childHeaderSize childSize (resourceId % 2 ^ 16)
  if entryOffset = noEntry then return none
  else entryString resources globalStrings child childSize (child + entriesStart + entryOffset)

/-- One iteration, of the table's loop or the package's. -/
def resourceBody (resources : Bytes) (resourceId tableSize : ℕ) :
    Cursor × List Bytes → Except (Stop String) ((Cursor × List Bytes) ⊕ Option Bytes)
  | (.table off, globalStrings) => do
    if tableSize < off + 8 then return .inr none
    else
      let type ← readU16 resources off
      let headerSize ← readU16 resources (off + 2)
      let chunkSize ← readU32 resources (off + 4)
      if chunkSize < headerSize ∨ tableSize < off + chunkSize then return .inr none
      else if type = resStringPoolType ∧ globalStrings.isEmpty then
        return .inl (.table (off + chunkSize), ← stringPoolAt resources off)
      else if type = resTablePackageType ∧ 284 ≤ headerSize then
        if (← readU32 resources (off + 8)) = resourceId / 2 ^ 24 then
          return .inl (.package (off + chunkSize) (off + headerSize), globalStrings)
        else return .inl (.table (off + chunkSize), globalStrings)
      else return .inl (.table (off + chunkSize), globalStrings)
  | (.package packageEnd child, globalStrings) => do
    if packageEnd < child + 20 then return .inl (.table packageEnd, globalStrings)
    else
      let childType ← readU16 resources child
      let childHeaderSize ← readU16 resources (child + 2)
      let childSize ← readU32 resources (child + 4)
      if childSize < childHeaderSize ∨ packageEnd < child + childSize then
        return .inl (.table packageEnd, globalStrings)
      else if childType = resTableTypeType then
        if (← element resources (child + 8)).toNat = resourceId / 2 ^ 16 % 2 ^ 8 then
          match ← typeChunkString resources resourceId globalStrings child childHeaderSize
            childSize with
          | some text => return .inr (some text)
          | none => return .inl (.package packageEnd (child + childSize), globalStrings)
        else return .inl (.package packageEnd (child + childSize), globalStrings)
      else return .inl (.package packageEnd (child + childSize), globalStrings)

/-- `resolve_resource_string`. -/
def resolveResourceString (resources : Bytes) (resourceId : ℕ) :
    Loop.Fueled (Stop String) (Option Bytes) := fun fuel => do
  if resources.length < 12 then return none
  else if (← atOnce (readU16 resources 0)) ≠ resTableType then return none
  else
    let tableHeaderSize ← atOnce (readU16 resources 2)
    let tableSize ← atOnce (readU32 resources 4)
    if tableSize < tableHeaderSize ∨ resources.length < tableSize then return none
    else Loop.run (resourceBody resources resourceId tableSize) (.table tableHeaderSize, []) fuel

section Tables

variable {resources : Bytes} {resourceId tableSize : ℕ}

theorem sparseEntry_raise (child childHeaderSize childSize wanted n i : ℕ) :
    sparseEntry resources child childHeaderSize childSize wanted n i =
      raise (Apk.sparseEntry resources child childHeaderSize childSize wanted n i) := by
  induction n generalizing i with
  | zero => rfl
  | succ n ih =>
    rw [sparseEntry, Apk.sparseEntry]
    simp only [raise_ite, raise_bind, raise_pure, readU16_raise, ih]

theorem entryOffsetIn_raise {child : ℕ} (childHeaderSize childSize wanted : ℕ)
    (hroom : child + 20 ≤ resources.length) :
    entryOffsetIn resources child childHeaderSize childSize wanted =
      raise (Apk.entryOffsetIn resources child childHeaderSize childSize wanted) := by
  unfold entryOffsetIn Apk.entryOffsetIn
  rw [element_eq (by omega), byteAt_eq (by omega)]
  simp only [raise_ite, raise_bind, raise_pure, ok_bind, readU32_raise, sparseEntry_raise]

theorem entryString_raise {child childSize : ℕ} (globalStrings : List Bytes) (entry : ℕ)
    (hchunk : child + childSize ≤ resources.length) :
    entryString resources globalStrings child childSize entry =
      raise (Apk.entryString resources globalStrings child childSize entry) := by
  unfold entryString Apk.entryString
  simp only [raise_ite, raise_bind, raise_pure, readU16_raise, readU32_raise, textAt_eq]
  refine ite_congr rfl (fun _ => ?_) fun _ => rfl
  refine bind_congr fun entrySize => bind_congr fun entryFlags => ?_
  by_cases hvalue : entryFlags % 2 = 0 ∧ entry + entrySize + 8 ≤ child + childSize
  · rw [if_pos hvalue, element_eq (by omega), byteAt_eq (by omega)]
    simp only [hvalue, true_and]
    rfl
  · rw [if_neg hvalue, if_neg fun h => hvalue ⟨h.1, h.2.1⟩]

theorem typeChunkString_raise {child childSize : ℕ} (globalStrings : List Bytes)
    (childHeaderSize : ℕ) (hroom : child + 20 ≤ resources.length)
    (hchunk : child + childSize ≤ resources.length) :
    typeChunkString resources resourceId globalStrings child childHeaderSize childSize =
      raise (Apk.typeChunkString resources resourceId globalStrings child childHeaderSize
        childSize) := by
  unfold typeChunkString Apk.typeChunkString
  simp only [raise_ite, raise_bind, raise_pure, readU32_raise,
    entryOffsetIn_raise _ _ _ hroom, entryString_raise _ _ hchunk]

/-- What is read of a package is in it, and it ends inside the table. -/
theorem resourceBody_raise (hsize : tableSize ≤ resources.length) {s : Cursor × List Bytes}
    (hs : s.1.Inside tableSize) :
    resourceBody resources resourceId tableSize s =
      raise (Apk.resourceBody resources resourceId tableSize s) := by
  obtain ⟨c, globalStrings⟩ := s
  cases c with
  | table off =>
    simp only [resourceBody, Apk.resourceBody, raise_ite, raise_bind, raise_pure, readU16_raise,
      readU32_raise, stringPoolAt_raise]
  | package packageEnd child =>
    have hend : packageEnd ≤ tableSize := hs
    simp only [resourceBody, Apk.resourceBody, raise_ite, raise_bind, raise_pure, readU16_raise,
      readU32_raise]
    refine ite_congr rfl (fun _ => rfl) fun hroom => ?_
    refine bind_congr fun childType => bind_congr fun childHeaderSize =>
      bind_congr fun childSize => ?_
    refine ite_congr rfl (fun _ => rfl) fun hchunk => ?_
    rw [element_eq (by omega), byteAt_eq (by omega),
      typeChunkString_raise globalStrings childHeaderSize (by omega) (by omega)]
    simp only [ok_bind, ite_and]
    refine ite_congr rfl (fun _ => ite_congr rfl (fun _ => ?_) fun _ => rfl) fun _ => rfl
    refine bind_congr fun found => ?_
    cases found with
    | none => rfl
    | some text => rfl

theorem resolveResourceString_raised (resources : Bytes) (resourceId fuel : ℕ) :
    resolveResourceString resources resourceId fuel =
      raised (Apk.resolveResourceString resources resourceId fuel) := by
  unfold resolveResourceString Apk.resolveResourceString
  by_cases hroom : resources.length < 12
  · rw [if_pos hroom, if_pos (Or.inl hroom)]
    rfl
  rw [if_neg hroom, readU16_raise, readU16_raise, readU32_raise, readU16_eq (by omega),
    readU16_eq (by omega), readU32_eq (by omega)]
  by_cases htype : u16 resources 0 ≠ resTableType
  · rw [if_pos (Or.inr htype)]
    exact if_pos htype
  rw [if_neg (not_or.mpr ⟨hroom, htype⟩)]
  refine (if_neg htype).trans ?_
  by_cases hsize : u32 resources 4 < u16 resources 2 ∨ resources.length < u32 resources 4
  · rw [if_pos hsize]
    exact if_pos hsize
  rw [if_neg hsize]
  refine (if_neg hsize).trans ?_
  -- the loop stays in packages that end inside the table
  exact run_raised (P := fun s => s.1.Inside (u32 resources 4))
    (fun s hs => resourceBody_raise (by omega) hs)
    (fun s t hs hnext => resourceBody_inside (by omega) hs hnext) trivial fuel

end Tables

/-! ## No access is outside -/

/-- A search stays inside its manifest, and ends where its walk does. -/
theorem walkManifest_safeIf {τ ρ : Type} {manifest : Bytes} {start : τ} {finish : τ → Option ρ}
    {checked : List Bytes → (off type chunkSize : ℕ) → τ → Except (Stop String) (τ ⊕ Option ρ)}
    {visit : List Bytes → (off type chunkSize : ℕ) → τ → Except String (τ ⊕ Option ρ)}
    (hvisit : ∀ strings off type chunkSize state, off + u32 manifest (off + 4) ≤ manifest.length →
      checked strings off type chunkSize state = raise (visit strings off type chunkSize state))
    (hstuck : ∀ strings off type state, Stuck manifest off →
      ∃ state', visit strings off type 0 state = .ok (.inl state')) :
    SafeIf (PoolClear manifest ∧ WalkClear manifest start finish visit)
      (walkManifest manifest start finish checked) :=
  safeIf_raised (walkManifest_raised hvisit) (walkManifest_halts_iff hstuck).mpr

theorem stringAttribute_safeIf (manifest elem attr : Bytes) :
    SafeIf (PoolClear manifest ∧ WalkClear manifest () (fun _ => none) fun strings =>
        Apk.attributeVisit manifest strings elem (Apk.pickString manifest strings attr))
      (inferBinaryManifestStringAttribute manifest elem attr) := by
  refine walkManifest_safeIf (fun strings off type size state hchunk => ?_)
    fun strings off type _ hstuck => attributeVisit_stuck strings _ _ type hstuck
  exact attributeVisit_raise strings _ type size state (fun a ha => pickTyped_raise _ ha) hchunk

theorem inferBinaryManifestLib_raised (manifest : Bytes) (availableBases : List Bytes)
    (fuel : ℕ) : inferBinaryManifestLib manifest availableBases fuel =
      raised (Apk.inferBinaryManifestLib manifest availableBases fuel) := by
  unfold inferBinaryManifestLib Apk.inferBinaryManifestLib
  rw [raised_bind, axmlStringPool_raised]
  rfl

end Access

open Checked

/-- **No decoder reads outside its input.** Whatever the bytes of an
archive, a manifest or a resource table, every access is below the size of
its vector; and where a walk comes to no empty chunk, it returns or
throws. -/
theorem decoders_stay_inside (inflate : Bytes → ℕ → Option Bytes) (apk data : Bytes)
    (entry : ZipEntry) (off : ℕ) (manifest resources elem attr : Bytes)
    (packageName : Option Bytes) (availableBases : List Bytes) (resourceId : ℕ) :
    (∀ i, Access.readZipEntries apk ≠ .error (.fault i)) ∧
    (∀ i, Access.extractEntryData inflate apk entry ≠ .error (.fault i)) ∧
    (∀ i, Access.stringPoolAt data off ≠ .error (.fault i)) ∧
    SafeIf (PoolClear manifest) (Access.axmlStringPool manifest) ∧
    SafeIf (PoolClear manifest) (Access.inferBinaryManifestLib manifest availableBases) ∧
    SafeIf (PoolClear manifest ∧ WalkClear manifest () (fun _ => none) fun strings =>
        attributeVisit manifest strings (ascii "manifest")
          (pickString manifest strings (ascii "package")))
      (Access.inferBinaryManifestPackage manifest) ∧
    SafeIf (PoolClear manifest ∧ WalkClear manifest () (fun _ => none) fun strings =>
        attributeVisit manifest strings elem (pickString manifest strings attr))
      (Access.inferBinaryManifestStringAttribute manifest elem attr) ∧
    SafeIf (PoolClear manifest ∧ WalkClear manifest () (fun _ => none) fun strings =>
        attributeVisit manifest strings elem (pickReference manifest strings attr))
      (Access.inferBinaryManifestResourceAttribute manifest elem attr) ∧
    SafeIf (PoolClear manifest ∧ WalkClear manifest {} LaunchScan.choose
        (launchVisit manifest packageName))
      (Access.inferBinaryManifestLaunchActivity manifest packageName) ∧
    SafeIf (PoolClear manifest ∧ WalkClear manifest none (fun _ => none)
        (widgetVisit manifest packageName))
      (Access.inferBinaryManifestWidgetProvider manifest packageName) ∧
    SafeIf (TableClear resources resourceId)
      (Access.resolveResourceString resources resourceId) := by
  refine ⟨?_, ?_, ?_, ?_, ?_, ?_, ?_, ?_, ?_, ?_, ?_⟩
  · rw [Access.readZipEntries_raise]
    exact raise_ne_fault _
  · rw [Access.extractEntryData_raise]
    exact raise_ne_fault _
  · rw [Access.stringPoolAt_raise]
    exact raise_ne_fault _
  · exact safeIf_raised (Access.axmlStringPool_raised manifest) (axmlStringPool_halts_iff _).mpr
  · exact safeIf_raised (Access.inferBinaryManifestLib_raised manifest availableBases)
      (inferBinaryManifestLib_halts_iff _ _).mpr
  · exact Access.stringAttribute_safeIf manifest (ascii "manifest") (ascii "package")
  · exact Access.stringAttribute_safeIf manifest elem attr
  · refine Access.walkManifest_safeIf (fun strings off type size state hchunk => ?_)
      fun strings off type _ hstuck => attributeVisit_stuck strings _ _ type hstuck
    exact Access.attributeVisit_raise strings _ type size state
      (fun a ha => Access.pickReference_raise _ ha) hchunk
  · exact Access.walkManifest_safeIf
      (fun strings off type size scan hchunk =>
        Access.launchVisit_raise packageName strings type size scan hchunk)
      fun strings off type scan hstuck => launchVisit_stuck packageName strings type scan hstuck
  · exact Access.walkManifest_safeIf
      (fun strings off type size receiver hchunk =>
        Access.widgetVisit_raise packageName strings type size receiver hchunk)
      fun strings off type receiver hstuck =>
        widgetVisit_stuck packageName strings type receiver hstuck
  · exact safeIf_raised (Access.resolveResourceString_raised resources resourceId)
      (resolveResourceString_halts_iff _ _).mpr

/-- **What is malformed is not all that is lost.** The first entry of the
pool points out of the chunk, and the second text is returned all the
same. -/
theorem malformed_pool_read :
    ¬∀ manifest o, PoolAt manifest o → (∃ i < stringCount manifest o, ¬InRange manifest o i) →
      ∀ out, Loop.Yields (Access.axmlStringPool manifest) out →
        out = .ok [] ∨ ∃ e, out = .error (.thrown e) := by
  intro h
  have hpool : PoolAt (twoStrings 6 3) 0 :=
    ⟨by decide, by decide, by decide, by decide, by decide, by decide⟩
  rcases h _ 0 hpool ⟨0, by decide, by decide⟩ (.ok [[121]]) ⟨1, by decide⟩ with hnone | ⟨e, he⟩
  · exact absurd hnone (by decide)
  · cases he

end Apk

end Muplar
