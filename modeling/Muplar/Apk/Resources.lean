import Muplar.Apk.BinaryManifest
/-!
# APK — resource tables

`resolve_resource_string` has a loop over the chunks of the table and,
inside it, one over the chunks of a package. Both are one loop here: a
`Cursor` is in the table or in a package, and leaves the package for the
chunk after it.
-/

namespace Muplar

namespace Apk

/-! ## `resolve_resource_string` -/

def resTableType : ℕ := 0x0002
def resTablePackageType : ℕ := 0x0200
def resTableTypeType : ℕ := 0x0201
def noEntry : ℕ := 0xffffffff

/-- The sparse entries of a type chunk, with `n` left from `i` on: the
offset of the wanted one. -/
def sparseEntry (resources : Bytes) (child childHeaderSize childSize wanted : ℕ) :
    (n i : ℕ) → Except String ℕ
  | 0, _ => return noEntry
  | n + 1, i => do
    let sparse := child + childHeaderSize + i * 4 % 2 ^ 32
    if child + childSize < sparse + 4 then return noEntry
    else if (← readU16 resources sparse) = wanted then
      return (← readU16 resources (sparse + 2)) * 4
    else sparseEntry resources child childHeaderSize childSize wanted n (i + 1)

/-- The offset of the wanted entry in the type chunk at `child`. -/
def entryOffsetIn (resources : Bytes) (child childHeaderSize childSize wanted : ℕ) :
    Except String ℕ := do
  let typeFlags := byteAt resources (child + 9)
  let entryCount ← readU32 resources (child + 12)
  if typeFlags % 2 = 1 then
    sparseEntry resources child childHeaderSize childSize wanted entryCount 0
  else if wanted < entryCount then
    let offsetPos := child + childHeaderSize + wanted * 4
    if offsetPos + 4 ≤ child + childSize then readU32 resources offsetPos else return noEntry
  else return noEntry

/-- The text of the entry at `entry`, if it is a plain one that holds a
string. -/
def entryString (resources : Bytes) (globalStrings : List Bytes) (child childSize entry : ℕ) :
    Except String (Option Bytes) := do
  if entry + 8 ≤ child + childSize then
    let entrySize ← readU16 resources entry
    let entryFlags ← readU16 resources (entry + 2)
    let value := entry + entrySize
    if entryFlags % 2 = 0 ∧ value + 8 ≤ child + childSize ∧
        byteAt resources (value + 3) = typeString then
      return globalStrings[← readU32 resources (value + 4)]?
    else return none
  else return none

/-- What the type chunk at `child` has for the resource. -/
def typeChunkString (resources : Bytes) (resourceId : ℕ) (globalStrings : List Bytes)
    (child childHeaderSize childSize : ℕ) : Except String (Option Bytes) := do
  let entriesStart ← readU32 resources (child + 16)
  let entryOffset ←
    entryOffsetIn resources child childHeaderSize childSize (resourceId % 2 ^ 16)
  if entryOffset = noEntry then return none
  else entryString resources globalStrings child childSize (child + entriesStart + entryOffset)

/-- Where `resolve_resource_string` is: at a chunk of the table, or at
one of the package that ends at `packageEnd`. -/
inductive Cursor
  | table (off : ℕ)
  | package (packageEnd child : ℕ)
  deriving DecidableEq

/-- One iteration, of the table's loop or the package's. -/
def resourceBody (resources : Bytes) (resourceId tableSize : ℕ) :
    Cursor × List Bytes → Except String ((Cursor × List Bytes) ⊕ Option Bytes)
  | (.table off, globalStrings) => do
    if tableSize < off + 8 then return .inr none
    else
      let type ← readU16 resources off
      let headerSize ← readU16 resources (off + 2)
      let chunkSize ← readU32 resources (off + 4)
      if chunkSize < headerSize ∨ tableSize < off + chunkSize then return .inr none
      else if type = resStringPoolType ∧ globalStrings.isEmpty then
        return .inl (.table (off + chunkSize), ← stringPoolAt resources off)
      else if type = resTablePackageType ∧ 284 ≤ headerSize then
        if (← readU32 resources (off + 8)) = resourceId / 2 ^ 24 then
          return .inl (.package (off + chunkSize) (off + headerSize), globalStrings)
        else return .inl (.table (off + chunkSize), globalStrings)
      else return .inl (.table (off + chunkSize), globalStrings)
  | (.package packageEnd child, globalStrings) => do
    if packageEnd < child + 20 then return .inl (.table packageEnd, globalStrings)
    else
      let childType ← readU16 resources child
      let childHeaderSize ← readU16 resources (child + 2)
      let childSize ← readU32 resources (child + 4)
      if childSize < childHeaderSize ∨ packageEnd < child + childSize then
        return .inl (.table packageEnd, globalStrings)
      else if childType = resTableTypeType ∧
          byteAt resources (child + 8) = resourceId / 2 ^ 16 % 2 ^ 8 then
        match ← typeChunkString resources resourceId globalStrings child childHeaderSize
          childSize with
        | some text => return .inr (some text)
        | none => return .inl (.package packageEnd (child + childSize), globalStrings)
      else return .inl (.package packageEnd (child + childSize), globalStrings)

/-- `resolve_resource_string`. -/
def resolveResourceString (resources : Bytes) (resourceId : ℕ) :
    Loop.Fueled String (Option Bytes) := fun fuel =>
  if resources.length < 12 ∨ u16 resources 0 ≠ resTableType then return none
  else if u32 resources 4 < u16 resources 2 ∨ resources.length < u32 resources 4 then return none
  else Loop.run (resourceBody resources resourceId (u32 resources 4))
    (.table (u16 resources 2), []) fuel

/-! ## When the search of a table ends -/

section Halting

variable {resources : Bytes} {resourceId tableSize : ℕ}

/-- The cursor is at an empty chunk, of the table or of a package. -/
def Cursor.Stuck (resources : Bytes) (tableSize : ℕ) : Cursor → Prop
  | .table off => off + 8 ≤ tableSize ∧ EmptyChunk resources off
  | .package packageEnd child => child + 20 ≤ packageEnd ∧ EmptyChunk resources child

/-- What is left to walk. A package counts for less than the table from
its start on, and for more than the table from its end on. -/
def Cursor.left (tableSize : ℕ) : Cursor → ℕ
  | .table off => 2 * (tableSize - off)
  | .package packageEnd child => 2 * (tableSize - packageEnd) + 1 + (packageEnd - child)

/-- A package the cursor is in ends inside the table. -/
def Cursor.Inside (tableSize : ℕ) : Cursor → Prop
  | .table _ => True
  | .package packageEnd _ => packageEnd ≤ tableSize

theorem stringPoolAt_empty {off : ℕ} (h : EmptyChunk resources off) :
    stringPoolAt resources off = .ok [] := by
  by_cases hroom : resources.length < off + 28
  · rw [stringPoolAt, if_pos hroom]
    rfl
  · rw [stringPoolAt, if_neg hroom, readU16_eq (by omega), readU16_eq (by omega),
      readU32_eq (by omega), readU32_eq (by omega), readU32_eq (by omega), readU32_eq (by omega),
      h.2]
    simp only [bind, Except.bind]
    split
    · rfl
    · rw [if_pos (by omega)]
      rfl

theorem typeChunkString_empty (globalStrings : List Bytes) {child : ℕ}
    (hroom : child + 20 ≤ resources.length) :
    typeChunkString resources resourceId globalStrings child 0 0 = .ok none := by
  have hentry : entryOffsetIn resources child 0 0 (resourceId % 2 ^ 16) = .ok noEntry := by
    rw [entryOffsetIn, readU32_eq (by omega)]
    simp only [bind, Except.bind]
    split
    · cases u32 resources (child + 12) with
      | zero => rfl
      | succ n =>
        rw [sparseEntry, if_pos (by omega)]
        rfl
    · split
      · rw [if_neg (by omega)]
        rfl
      · rfl
  rw [typeChunkString, readU32_eq (by omega), hentry]
  rfl

theorem resourceBody_table_stuck {off : ℕ} (globalStrings : List Bytes)
    (hsize : tableSize ≤ resources.length) (h : (Cursor.table off).Stuck resources tableSize) :
    ∃ strings, resourceBody resources resourceId tableSize (.table off, globalStrings) =
      .ok (.inl (.table off, strings)) := by
  obtain ⟨hroom, hempty⟩ := h
  rw [resourceBody, if_neg (by omega), readU16_eq (by omega), readU16_eq (by omega),
    readU32_eq (by omega), stringPoolAt_empty hempty, hempty.1, hempty.2]
  simp only [bind, Except.bind]
  rw [if_neg (by omega)]
  split
  · exact ⟨[], rfl⟩
  · rw [if_neg (by omega)]
    exact ⟨globalStrings, rfl⟩

theorem resourceBody_package_stuck {packageEnd child : ℕ} (globalStrings : List Bytes)
    (hsize : packageEnd ≤ resources.length)
    (h : (Cursor.package packageEnd child).Stuck resources tableSize) :
    resourceBody resources resourceId tableSize (.package packageEnd child, globalStrings) =
      .ok (.inl (.package packageEnd child, globalStrings)) := by
  obtain ⟨hroom, hempty⟩ := h
  rw [resourceBody, if_neg (by omega), readU16_eq (by omega), readU16_eq (by omega),
    readU32_eq (by omega), hempty.1, hempty.2]
  simp only [bind, Except.bind]
  rw [if_neg (by omega), typeChunkString_empty globalStrings (by omega)]
  split
  · rfl
  · rfl

/-- From a chunk of the table: to the next one, or into a package. -/
theorem resourceBody_table_next {off : ℕ} {globalStrings strings : List Bytes} {c : Cursor}
    (hsize : tableSize ≤ resources.length)
    (h : resourceBody resources resourceId tableSize (.table off, globalStrings) =
      .ok (.inl (c, strings))) :
    off + 8 ≤ tableSize ∧ u16 resources (off + 2) ≤ u32 resources (off + 4) ∧
      off + u32 resources (off + 4) ≤ tableSize ∧
      (c = .table (off + u32 resources (off + 4)) ∨ 284 ≤ u16 resources (off + 2) ∧
        c = .package (off + u32 resources (off + 4)) (off + u16 resources (off + 2))) := by
  by_cases hroom : tableSize < off + 8
  · rw [resourceBody, if_pos hroom] at h
    cases h
  rw [resourceBody, if_neg hroom, readU16_eq (by omega), readU16_eq (by omega),
    readU32_eq (by omega)] at h
  simp only [bind, Except.bind] at h
  split at h
  · cases h
  · refine ⟨by omega, by omega, by omega, ?_⟩
    split at h
    · cases hpool : stringPoolAt resources off with
      | error e =>
        rw [hpool] at h
        cases h
      | ok pool =>
        rw [hpool] at h
        cases h
        exact Or.inl rfl
    · split at h
      · next hpackage =>
        rw [readU32_eq (by omega)] at h
        simp only at h
        split at h
        · cases h
          exact Or.inr ⟨hpackage.2, rfl⟩
        · cases h
          exact Or.inl rfl
      · cases h
        exact Or.inl rfl

/-- From a chunk of a package: out of the package, or to the next one. -/
theorem resourceBody_package_next {packageEnd child : ℕ} {globalStrings strings : List Bytes}
    {c : Cursor} (hsize : packageEnd ≤ resources.length)
    (h : resourceBody resources resourceId tableSize (.package packageEnd child, globalStrings) =
      .ok (.inl (c, strings))) :
    c = .table packageEnd ∨
      child + 20 ≤ packageEnd ∧ u16 resources (child + 2) ≤ u32 resources (child + 4) ∧
        c = .package packageEnd (child + u32 resources (child + 4)) := by
  by_cases hroom : packageEnd < child + 20
  · rw [resourceBody, if_pos hroom] at h
    cases h
    exact Or.inl rfl
  rw [resourceBody, if_neg hroom, readU16_eq (by omega), readU16_eq (by omega),
    readU32_eq (by omega)] at h
  simp only [bind, Except.bind] at h
  split at h
  · cases h
    exact Or.inl rfl
  · refine Or.inr ⟨by omega, by omega, ?_⟩
    split at h
    · cases htype : typeChunkString resources resourceId globalStrings child
          (u16 resources (child + 2)) (u32 resources (child + 4)) with
      | error e =>
        rw [htype] at h
        cases h
      | ok found =>
        rw [htype] at h
        cases found with
        | some text => cases h
        | none =>
          cases h
          rfl
    · cases h
      rfl

theorem resourceBody_inside {s t : Cursor × List Bytes} (hsize : tableSize ≤ resources.length)
    (hs : s.1.Inside tableSize)
    (h : resourceBody resources resourceId tableSize s = .ok (.inl t)) :
    t.1.Inside tableSize := by
  obtain ⟨c, globalStrings⟩ := s
  obtain ⟨c', strings⟩ := t
  cases c with
  | table off =>
    obtain ⟨-, -, hchunk, rfl | ⟨-, rfl⟩⟩ := resourceBody_table_next hsize h
    · trivial
    · exact hchunk
  | package packageEnd child =>
    have hend : packageEnd ≤ tableSize := hs
    obtain rfl | ⟨-, -, rfl⟩ := resourceBody_package_next (by omega) h
    · trivial
    · exact hend

/-- **When the search of a table ends.** -/
theorem resourceLoop_halts_iff (hsize : tableSize ≤ resources.length) (off : ℕ) :
    Loop.Halts (Loop.run (resourceBody resources resourceId tableSize) (.table off, [])) ↔
      ∀ t, Loop.Visits (resourceBody resources resourceId tableSize) (.table off, []) t →
        ¬t.1.Stuck resources tableSize := by
  have hinside : ∀ t, Loop.Visits (resourceBody resources resourceId tableSize)
      (.table off, []) t → t.1.Inside tableSize := by
    intro t hvisit
    have hkeep : ∀ s u : Cursor × List Bytes, s.1.Inside tableSize →
        resourceBody resources resourceId tableSize s = .ok (.inl u) → u.1.Inside tableSize :=
      fun s u hs h => resourceBody_inside hsize hs h
    exact hvisit.preserves (P := fun s => s.1.Inside tableSize) hkeep trivial
  refine (Loop.halts_iff (fun t : Cursor × List Bytes => t.1.left tableSize)
    (fun t => t.1.Inside tableSize ∧ t.1.Stuck resources tableSize) ?_ ?_).trans ?_
  · rintro ⟨c, globalStrings⟩ ⟨hin, hstuck⟩
    cases c with
    | table off =>
      obtain ⟨strings, hnext⟩ := resourceBody_table_stuck globalStrings hsize hstuck
      exact ⟨_, hnext, hin, hstuck⟩
    | package packageEnd child =>
      have hend : packageEnd ≤ tableSize := hin
      exact ⟨_, resourceBody_package_stuck globalStrings (by omega) hstuck, hin, hstuck⟩
  · rintro ⟨c, globalStrings⟩ ⟨c', strings⟩ hvisit hmoves hnext
    have hin := hinside _ hvisit
    have hfree : ¬c.Stuck resources tableSize := fun h => hmoves ⟨hin, h⟩
    cases c with
    | table off =>
      obtain ⟨hroom, hheader, hchunk, hc⟩ := resourceBody_table_next hsize hnext
      have hpos : 0 < u32 resources (off + 4) := by
        by_contra hzero
        exact hfree ⟨hroom, by omega, by omega⟩
      obtain rfl | ⟨hlong, rfl⟩ := hc
      · simp only [Cursor.left]
        omega
      · simp only [Cursor.left]
        omega
    | package packageEnd child =>
      have hend : packageEnd ≤ tableSize := hin
      obtain rfl | ⟨hroom, hheader, rfl⟩ := resourceBody_package_next (by omega) hnext
      · simp only [Cursor.left]
        omega
      · have hpos : 0 < u32 resources (child + 4) := by
          by_contra hzero
          exact hfree ⟨hroom, by omega, by omega⟩
        simp only [Cursor.left]
        omega
  · refine forall_congr' fun t => forall_congr' fun hvisit => ?_
    exact not_congr ⟨fun h => h.2, fun h => ⟨hinside t hvisit, h⟩⟩

/-- The search of `resources` comes to no empty chunk. -/
def TableClear (resources : Bytes) (resourceId : ℕ) : Prop :=
  12 ≤ resources.length → u16 resources 0 = resTableType →
    u16 resources 2 ≤ u32 resources 4 → u32 resources 4 ≤ resources.length →
    ∀ t, Loop.Visits (resourceBody resources resourceId (u32 resources 4))
      (.table (u16 resources 2), []) t → ¬t.1.Stuck resources (u32 resources 4)

theorem resolveResourceString_halts_iff (resources : Bytes) (resourceId : ℕ) :
    Loop.Halts (resolveResourceString resources resourceId) ↔ TableClear resources resourceId := by
  unfold resolveResourceString TableClear
  by_cases htable : resources.length < 12 ∨ u16 resources 0 ≠ resTableType
  · simp only [if_pos htable]
    refine iff_of_true (Loop.halts_pure _) ?_
    intro hlong htype
    rcases htable with h | h
    · omega
    · exact absurd htype h
  · simp only [if_neg htable]
    by_cases hsize : u32 resources 4 < u16 resources 2 ∨ resources.length < u32 resources 4
    · simp only [if_pos hsize]
      refine iff_of_true (Loop.halts_pure _) ?_
      omega
    · simp only [if_neg hsize]
      rw [not_or, not_not] at htable
      refine (resourceLoop_halts_iff (by omega) _).trans ?_
      exact ⟨fun h _ _ _ _ => h, fun h => h (by omega) htable.2 (by omega) (by omega)⟩

end Halting

/-! ## All seven -/

/-- **When the walks end.** On every manifest and every resource table,
each of the seven searches reaches a return or a throw exactly when it
comes to no empty chunk on its way. -/
theorem walks_halt_iff (manifest resources element attr : Bytes) (packageName : Option Bytes)
    (resourceId : ℕ) :
    (Loop.Halts (axmlStringPool manifest) ↔ PoolClear manifest) ∧
    (Loop.Halts (inferBinaryManifestPackage manifest) ↔
      PoolClear manifest ∧ WalkClear manifest () (fun _ => none) fun strings =>
        attributeVisit manifest strings (ascii "manifest")
          (pickString manifest strings (ascii "package"))) ∧
    (Loop.Halts (inferBinaryManifestStringAttribute manifest element attr) ↔
      PoolClear manifest ∧ WalkClear manifest () (fun _ => none) fun strings =>
        attributeVisit manifest strings element (pickString manifest strings attr)) ∧
    (Loop.Halts (inferBinaryManifestResourceAttribute manifest element attr) ↔
      PoolClear manifest ∧ WalkClear manifest () (fun _ => none) fun strings =>
        attributeVisit manifest strings element (pickReference manifest strings attr)) ∧
    (Loop.Halts (inferBinaryManifestLaunchActivity manifest packageName) ↔
      PoolClear manifest ∧ WalkClear manifest {} LaunchScan.choose
        (launchVisit manifest packageName)) ∧
    (Loop.Halts (inferBinaryManifestWidgetProvider manifest packageName) ↔
      PoolClear manifest ∧ WalkClear manifest none (fun _ => none)
        (widgetVisit manifest packageName)) ∧
    (Loop.Halts (resolveResourceString resources resourceId) ↔
      TableClear resources resourceId) := by
  refine ⟨axmlStringPool_halts_iff manifest, ?_, ?_, ?_, ?_, ?_,
    resolveResourceString_halts_iff resources resourceId⟩
  · exact walkManifest_halts_iff fun strings off type _ hstuck =>
      attributeVisit_stuck strings _ _ type hstuck
  · exact walkManifest_halts_iff fun strings off type _ hstuck =>
      attributeVisit_stuck strings _ _ type hstuck
  · exact walkManifest_halts_iff fun strings off type _ hstuck =>
      attributeVisit_stuck strings _ _ type hstuck
  · exact walkManifest_halts_iff fun strings off type scan hstuck =>
      launchVisit_stuck packageName strings type scan hstuck
  · exact walkManifest_halts_iff fun strings off type receiver hstuck =>
      widgetVisit_stuck packageName strings type receiver hstuck

/-- **A file of zeros is walked for ever.** Its first chunk is empty. -/
theorem zeros_do_not_halt : ¬Loop.Halts (axmlStringPool (List.replicate 28 0)) := by
  rw [axmlStringPool_halts_iff]
  intro hclear
  exact hclear 0 (.refl _) ⟨by decide, by decide, by decide⟩

end Apk

end Muplar
