import Muplar.Apk.Resources
import Muplar.Apk.Zip
import Muplar.Common.Checked
/-!
# APK — the accesses of the decoders

The decoders once more, with every index they read an element at. What is
read is guarded by checks made earlier, on sums of fields of the input;
here nothing is taken for granted, and an index outside the vector is a
fault. A fault is not an exception: the handler around a string of a pool
does not catch it.

Beside each function stands what it comes to: the same as the decoder that
takes its elements for granted.
-/

namespace Muplar

namespace Apk

namespace Access

open Checked

variable {data manifest resources apk : Bytes} {strings : List Bytes} {off pos : ℕ}

/-! ## Numbers -/

/-- `read_u16`. -/
def readU16 (data : Bytes) (off : ℕ) : Except (Stop String) ℕ := do
  if data.length < off + 2 then throw (.thrown "APK zip header truncated")
  else return le [← element data off, ← element data (off + 1)]

/-- `read_u32`. -/
def readU32 (data : Bytes) (off : ℕ) : Except (Stop String) ℕ := do
  if data.length < off + 4 then throw (.thrown "APK zip header truncated")
  else
    return le [← element data off, ← element data (off + 1), ← element data (off + 2),
      ← element data (off + 3)]

theorem readU16_raise (data : Bytes) (off : ℕ) :
    readU16 data off = raise (Apk.readU16 data off) := by
  unfold readU16 Apk.readU16
  by_cases h : data.length < off + 2
  · rw [if_pos h, if_pos h]
    rfl
  · have hslice : slice data off 2 = [data[off], data[off + 1]] := by
      rw [slice, List.drop_eq_getElem_cons (by omega), List.drop_eq_getElem_cons (by omega)]
      rfl
    rw [if_neg h, if_neg h, element_eq (by omega), element_eq (by omega), hslice]
    rfl

theorem readU32_raise (data : Bytes) (off : ℕ) :
    readU32 data off = raise (Apk.readU32 data off) := by
  unfold readU32 Apk.readU32
  by_cases h : data.length < off + 4
  · rw [if_pos h, if_pos h]
    rfl
  · have hslice : slice data off 4 =
        [data[off], data[off + 1], data[off + 2], data[off + 3]] := by
      rw [slice, List.drop_eq_getElem_cons (by omega), List.drop_eq_getElem_cons (by omega),
        List.drop_eq_getElem_cons (by omega), List.drop_eq_getElem_cons (by omega)]
      rfl
    rw [if_neg h, if_neg h, element_eq (by omega), element_eq (by omega), element_eq (by omega),
      element_eq (by omega), hslice]
    rfl

/-! ## Texts -/

/-- `idx < strings.size() && strings[idx] == wanted`. -/
def textIs (strings : List Bytes) (idx : ℕ) (wanted : Bytes) : Except (Stop String) Bool := do
  if idx < strings.length then return (← element strings idx) = wanted
  else return false

/-- `strings[idx]` where there is one. -/
def textAt (strings : List Bytes) (idx : ℕ) : Except (Stop String) (Option Bytes) := do
  if idx < strings.length then return some (← element strings idx)
  else return none

theorem textIs_eq (strings : List Bytes) (idx : ℕ) (wanted : Bytes) :
    textIs strings idx wanted = .ok (decide (strings[idx]? = some wanted)) := by
  unfold textIs
  by_cases h : idx < strings.length
  · rw [if_pos h, element_eq h, List.getElem?_eq_getElem h]
    simp only [bind, Except.bind, pure, Except.pure, Option.some.injEq]
  · rw [if_neg h, List.getElem?_eq_none (by omega)]
    rfl

theorem textAt_eq (strings : List Bytes) (idx : ℕ) :
    textAt strings idx = .ok strings[idx]? := by
  unfold textAt
  by_cases h : idx < strings.length
  · rw [if_pos h, element_eq h, List.getElem?_eq_getElem h]
    rfl
  · rw [if_neg h, List.getElem?_eq_none (by omega)]
    rfl

/-! ## Archives -/

/-- The scan for the end record. -/
def findEocd (apk : Bytes) (searchStart : ℕ) : (off : ℕ) → Except (Stop String) (Option ℕ)
  | 0 => return none
  | off + 1 => do
    if searchStart < off + 1 then
      if (← readU32 apk off) = eocdSig then return some off
      else findEocd apk searchStart off
    else return none

/-- The central directory, with `n` entries left from `off` on. -/
def centralEntries (apk : Bytes) : (n off : ℕ) → Except (Stop String) (List ZipEntry)
  | 0, _ => return []
  | n + 1, off => do
    if apk.length < off + 46 then throw (.thrown "APK central directory entry is invalid")
    else if (← readU32 apk off) ≠ cenSig then
      throw (.thrown "APK central directory entry is invalid")
    else
      let nameLen ← readU16 apk (off + 28)
      let extraLen ← readU16 apk (off + 30)
      let commentLen ← readU16 apk (off + 32)
      if apk.length < off + 46 + nameLen + extraLen + commentLen then
        throw (.thrown "APK central directory entry is truncated")
      else
        let entry : ZipEntry :=
          { flags := ← readU16 apk (off + 8)
            method := ← readU16 apk (off + 10)
            compressedSize := ← readU32 apk (off + 20)
            uncompressedSize := ← readU32 apk (off + 24)
            localHeaderOffset := ← readU32 apk (off + 42)
            name := ← part apk (off + 46) nameLen }
        let rest ← centralEntries apk n (off + 46 + nameLen + extraLen + commentLen)
        return entry :: rest

/-- `read_zip_entries`. -/
def readZipEntries (apk : Bytes) : Except (Stop String) (List ZipEntry) := do
  if apk.length < eocdMinSize then throw (.thrown "APK is too small to be a zip file")
  else
    let searchStart :=
      if eocdMinSize + eocdMaxComment < apk.length then apk.length - (eocdMinSize + eocdMaxComment)
      else 0
    match ← findEocd apk searchStart (apk.length - eocdMinSize + 1) with
    | none => throw (.thrown "APK zip end-of-central-directory not found")
    | some eocd =>
      let entryCount ← readU16 apk (eocd + 10)
      let centralSize ← readU32 apk (eocd + 12)
      let centralOff ← readU32 apk (eocd + 16)
      if centralOff = 0xffffffff ∨ centralSize = 0xffffffff then
        throw (.thrown "ZIP64 APKs are not supported yet")
      else if apk.length < centralOff + centralSize then
        throw (.thrown "APK central directory is out of bounds")
      else centralEntries apk entryCount centralOff

/-- `extract_entry_data`. zlib is handed the member's bytes. -/
def extractEntryData (inflate : Bytes → ℕ → Option Bytes) (apk : Bytes) (entry : ZipEntry) :
    Except (Stop String) Bytes := do
  let off := entry.localHeaderOffset
  if apk.length < off + 30 then
    throw (.thrown ("APK local zip header is invalid for " ++ text entry.name))
  else if (← readU32 apk off) ≠ locSig then
    throw (.thrown ("APK local zip header is invalid for " ++ text entry.name))
  else
    let nameLen ← readU16 apk (off + 26)
    let extraLen ← readU16 apk (off + 28)
    let dataOff := off + 30 + nameLen + extraLen
    if apk.length < dataOff + entry.compressedSize then
      throw (.thrown ("APK entry data is truncated for " ++ text entry.name))
    else if entry.method = 0 then part apk dataOff entry.compressedSize
    else if entry.method ≠ 8 then
      throw (.thrown ("unsupported APK zip compression method " ++ toString entry.method ++
        " for " ++ text entry.name))
    else match inflate (← part apk dataOff entry.compressedSize) entry.uncompressedSize with
      | some out => return out
      | none => throw (.thrown ("zlib inflate failed for " ++ text entry.name))

theorem findEocd_raise (apk : Bytes) (searchStart off : ℕ) :
    findEocd apk searchStart off = raise (Apk.findEocd apk searchStart off) := by
  induction off with
  | zero => rfl
  | succ off ih =>
    rw [findEocd, Apk.findEocd]
    simp only [raise_ite, raise_bind, raise_pure, readU32_raise, ih]

theorem centralEntries_raise (apk : Bytes) (n off : ℕ) :
    centralEntries apk n off = raise (Apk.centralEntries apk n off) := by
  induction n generalizing off with
  | zero => rfl
  | succ n ih =>
    rw [centralEntries, Apk.centralEntries]
    simp only [raise_ite, raise_bind, raise_pure, raise_throw, readU16_raise, readU32_raise, ih]
    refine ite_congr rfl (fun _ => rfl) fun _ => bind_congr fun sig =>
      ite_congr rfl (fun _ => rfl) fun _ => ?_
    refine bind_congr fun nameLen => bind_congr fun extraLen => bind_congr fun commentLen =>
      ite_congr rfl (fun _ => rfl) fun hroom => ?_
    -- the name is in the record, which is in the archive
    rw [part_eq (by omega)]
    rfl

theorem readZipEntries_raise (apk : Bytes) :
    readZipEntries apk = raise (Apk.readZipEntries apk) := by
  unfold readZipEntries Apk.readZipEntries
  simp only [raise_ite, raise_bind, raise_throw, findEocd_raise]
  refine ite_congr rfl (fun _ => rfl) fun _ => bind_congr fun found => ?_
  cases found with
  | none => rfl
  | some eocd =>
    simp only [raise_ite, raise_bind, raise_throw, readU16_raise, readU32_raise,
      centralEntries_raise]

theorem extractEntryData_raise (inflate : Bytes → ℕ → Option Bytes) (apk : Bytes)
    (entry : ZipEntry) :
    extractEntryData inflate apk entry = raise (Apk.extractEntryData inflate apk entry) := by
  unfold extractEntryData Apk.extractEntryData
  simp only [raise_ite, raise_bind, raise_pure, raise_throw, readU16_raise, readU32_raise]
  refine ite_congr rfl (fun _ => rfl) fun _ => bind_congr fun sig =>
    ite_congr rfl (fun _ => rfl) fun _ => ?_
  refine bind_congr fun nameLen => bind_congr fun extraLen =>
    ite_congr rfl (fun _ => rfl) fun hroom => ?_
  rw [part_eq (by omega)]
  refine ite_congr rfl (fun _ => rfl) fun _ => ite_congr rfl (fun _ => rfl) fun _ => ?_
  show (match inflate _ _ with | some out => _ | none => _) = _
  unfold slice
  cases inflate ((apk.drop _).take entry.compressedSize) entry.uncompressedSize with
  | none => rfl
  | some out => rfl

/-! ## String pools -/

/-- `read_len` of `utf8_length_string`. -/
def readLen8 (data : Bytes) (pos : ℕ) : Except (Stop String) (ℕ × ℕ) := do
  if data.length ≤ pos then throw (.thrown "AXML string length is truncated")
  else
    let first ← element data pos
    if first.toNat < 0x80 then return (first.toNat, pos + 1)
    else if data.length ≤ pos + 1 then throw (.thrown "AXML string length is truncated")
    else
      let second ← element data (pos + 1)
      return (first.toNat % 0x80 * 256 + second.toNat, pos + 2)

/-- `utf8_length_string`. -/
def utf8LengthString (data : Bytes) (off : ℕ) : Except (Stop String) Bytes := do
  let (_, pos) ← readLen8 data off
  let (byteLen, pos) ← readLen8 data pos
  if data.length < pos + byteLen then throw (.thrown "AXML UTF-8 string is truncated")
  else part data pos byteLen

/-- `read_len` of `utf16_length_string`. -/
def readLen16 (data : Bytes) (pos : ℕ) : Except (Stop String) (ℕ × ℕ) := do
  let first ← readU16 data pos
  if first < 0x8000 then return (first, pos + 2)
  else
    let second ← readU16 data (pos + 2)
    return (first % 0x8000 * 65536 + second, pos + 4)

/-- The characters of a UTF-16 string. -/
def readChars16 (data : Bytes) : (len pos : ℕ) → Except (Stop String) Bytes
  | 0, _ => return []
  | len + 1, pos => do
    let ch ← readU16 data pos
    let rest ← readChars16 data len (pos + 2)
    return (if ch < 0x80 then UInt8.ofNat ch else 63) :: rest

/-- `utf16_length_string`. -/
def utf16LengthString (data : Bytes) (off : ℕ) : Except (Stop String) Bytes := do
  let (len, pos) ← readLen16 data off
  readChars16 data len pos

/-- A string of the pool, with the handler around it: what is thrown is
caught, a fault is not. -/
def decodeString (data : Bytes) (utf8 : Bool) (pos : ℕ) : Except (Stop String) Bytes :=
  match if utf8 then utf8LengthString data pos else utf16LengthString data pos with
  | .ok text => .ok text
  | .error (.thrown _) => .ok []
  | .error (.fault i) => .error (.fault i)

theorem byteAt_eq {data : Bytes} {pos : ℕ} (h : pos < data.length) :
    byteAt data pos = data[pos].toNat := by
  rw [byteAt, List.getD_eq_getElem?_getD, List.getElem?_eq_getElem h, Option.getD_some]

theorem readLen8_raise (data : Bytes) (pos : ℕ) :
    readLen8 data pos = raise (Apk.readLen8 data pos) := by
  unfold readLen8 Apk.readLen8
  simp only [raise_ite, raise_pure, raise_throw]
  refine ite_congr rfl (fun _ => rfl) fun hfirst => ?_
  rw [element_eq (by omega), byteAt_eq (by omega)]
  refine ite_congr rfl (fun _ => rfl) fun _ => ite_congr rfl (fun _ => rfl) fun hsecond => ?_
  rw [element_eq (by omega), byteAt_eq (by omega)]
  rfl

theorem utf8LengthString_raise (data : Bytes) (off : ℕ) :
    utf8LengthString data off = raise (Apk.utf8LengthString data off) := by
  unfold utf8LengthString Apk.utf8LengthString
  simp only [raise_ite, raise_bind, raise_pure, raise_throw, readLen8_raise]
  refine bind_congr fun chars => bind_congr fun len => ite_congr rfl (fun _ => rfl) fun hroom => ?_
  rw [part_eq (by omega)]
  rfl

theorem readLen16_raise (data : Bytes) (pos : ℕ) :
    readLen16 data pos = raise (Apk.readLen16 data pos) := by
  unfold readLen16 Apk.readLen16
  simp only [raise_ite, raise_bind, raise_pure, readU16_raise]

theorem readChars16_raise (data : Bytes) (len pos : ℕ) :
    readChars16 data len pos = raise (Apk.readChars16 data len pos) := by
  induction len generalizing pos with
  | zero => rfl
  | succ len ih =>
    rw [readChars16, Apk.readChars16]
    simp only [raise_bind, raise_pure, readU16_raise, ih]

theorem utf16LengthString_raise (data : Bytes) (off : ℕ) :
    utf16LengthString data off = raise (Apk.utf16LengthString data off) := by
  unfold utf16LengthString Apk.utf16LengthString
  simp only [raise_bind, readLen16_raise, readChars16_raise]

/-- The handler turns whatever is thrown into the empty string, and there
is nothing else to turn. -/
theorem decodeString_eq (data : Bytes) (utf8 : Bool) (pos : ℕ) :
    decodeString data utf8 pos = .ok (Apk.decodeString data utf8 pos) := by
  unfold decodeString Apk.decodeString
  rw [utf8LengthString_raise, utf16LengthString_raise, ← raise_ite]
  cases if utf8 = true then Apk.utf8LengthString data pos else Apk.utf16LengthString data pos with
  | error e => rfl
  | ok text => rfl

/-- The entry loop of `axml_string_pool`. -/
def axmlEntries (manifest : Bytes) (off headerSize chunkSize stringsStart : ℕ) (utf8 : Bool) :
    (n i : ℕ) → Except (Stop String) (List Bytes)
  | 0, _ => return []
  | n + 1, i => do
    let stringOff ← readU32 manifest (off + headerSize + i * 4 % 2 ^ 32)
    let stringPos := off + stringsStart + stringOff
    if off + chunkSize ≤ stringPos then
      axmlEntries manifest off headerSize chunkSize stringsStart utf8 n (i + 1)
    else
      let text ← decodeString manifest utf8 stringPos
      let rest ← axmlEntries manifest off headerSize chunkSize stringsStart utf8 n (i + 1)
      return text :: rest

/-- One iteration of the chunk loop of `axml_string_pool`. -/
def axmlStringPoolBody (manifest : Bytes) (off : ℕ) : Except (Stop String) (ℕ ⊕ List Bytes) := do
  if manifest.length < off + 28 then return .inr []
  else
    let type ← readU16 manifest off
    let headerSize ← readU16 manifest (off + 2)
    let chunkSize ← readU32 manifest (off + 4)
    if chunkSize < headerSize ∨ manifest.length < off + chunkSize then return .inr []
    else if type ≠ resStringPoolType then return .inl (off + chunkSize)
    else
      let stringCount ← readU32 manifest (off + 8)
      let flags ← readU32 manifest (off + 16)
      let stringsStart ← readU32 manifest (off + 20)
      if chunkSize < (headerSize + stringCount * 4) % 2 ^ 32 ∨ chunkSize ≤ stringsStart then
        return .inr []
      else
        let strings ← axmlEntries manifest off headerSize chunkSize stringsStart (isUtf8 flags)
          stringCount 0
        return .inr strings

/-- Where the chunks of a manifest begin. -/
def chunksStart (manifest : Bytes) : Except (Stop String) ℕ := do
  if 8 ≤ manifest.length then
    if (← readU16 manifest 0) = 0x0003 then return 8 else return 0
  else return 0

/-- `axml_string_pool`. -/
def axmlStringPool (manifest : Bytes) : Loop.Fueled (Stop String) (List Bytes) := fun fuel => do
  let off ← atOnce (chunksStart manifest)
  Loop.run (axmlStringPoolBody manifest) off fuel

/-- The entry loop of `string_pool_at`. -/
def poolEntries (data : Bytes) (off headerSize chunkSize stringsStart : ℕ) (utf8 : Bool) :
    (n i : ℕ) → Except (Stop String) (List Bytes)
  | 0, _ => return []
  | n + 1, i => do
    let stringOff ← readU32 data (off + headerSize + i * 4 % 2 ^ 32)
    let stringPos := off + stringsStart + stringOff
    if off + chunkSize ≤ stringPos then
      let rest ← poolEntries data off headerSize chunkSize stringsStart utf8 n (i + 1)
      return [] :: rest
    else
      let text ← decodeString data utf8 stringPos
      let rest ← poolEntries data off headerSize chunkSize stringsStart utf8 n (i + 1)
      return text :: rest

/-- `string_pool_at`. -/
def stringPoolAt (data : Bytes) (off : ℕ) : Except (Stop String) (List Bytes) := do
  if data.length < off + 28 then return []
  else if (← readU16 data off) ≠ resStringPoolType then return []
  else
    let headerSize ← readU16 data (off + 2)
    let chunkSize ← readU32 data (off + 4)
    let stringCount ← readU32 data (off + 8)
    let flags ← readU32 data (off + 16)
    let stringsStart ← readU32 data (off + 20)
    if chunkSize < headerSize ∨ data.length < off + chunkSize ∨
        chunkSize < headerSize + stringCount * 4 ∨ chunkSize ≤ stringsStart then
      return []
    else
      poolEntries data off headerSize chunkSize stringsStart (isUtf8 flags) stringCount 0

theorem axmlEntries_raise (manifest : Bytes) (off headerSize chunkSize stringsStart : ℕ)
    (utf8 : Bool) (n i : ℕ) :
    axmlEntries manifest off headerSize chunkSize stringsStart utf8 n i =
      raise (Apk.axmlEntries manifest off headerSize chunkSize stringsStart utf8 n i) := by
  induction n generalizing i with
  | zero => rfl
  | succ n ih =>
    rw [axmlEntries, Apk.axmlEntries]
    simp only [raise_bind, raise_ite, raise_pure, readU32_raise, decodeString_eq, ih]
    refine bind_congr fun stringOff => ?_
    split
    · exact (bind_pure _).symm
    · rfl

theorem axmlStringPoolBody_raise (manifest : Bytes) (off : ℕ) :
    axmlStringPoolBody manifest off = raise (Apk.axmlStringPoolBody manifest off) := by
  unfold axmlStringPoolBody Apk.axmlStringPoolBody
  simp only [raise_bind, raise_ite, raise_pure, readU16_raise, readU32_raise, axmlEntries_raise]

theorem chunksStart_eq (manifest : Bytes) :
    chunksStart manifest = .ok (Apk.chunksStart manifest) := by
  unfold chunksStart Apk.chunksStart
  by_cases h : 8 ≤ manifest.length
  · rw [if_pos h, readU16_raise, readU16_eq (by omega)]
    by_cases htype : u16 manifest 0 = 0x0003
    · rw [if_pos ⟨h, htype⟩]
      exact if_pos htype
    · rw [if_neg fun hboth => htype hboth.2]
      exact if_neg htype
  · rw [if_neg h, if_neg fun hboth => h hboth.1]
    rfl

theorem axmlStringPool_raised (manifest : Bytes) (fuel : ℕ) :
    axmlStringPool manifest fuel = raised (Apk.axmlStringPool manifest fuel) := by
  unfold axmlStringPool Apk.axmlStringPool
  rw [chunksStart_eq]
  exact run_raised (P := fun _ => True) (fun off _ => axmlStringPoolBody_raise manifest off)
    (fun _ _ _ _ => trivial) trivial fuel

theorem poolEntries_raise (data : Bytes) (off headerSize chunkSize stringsStart : ℕ) (utf8 : Bool)
    (n i : ℕ) :
    poolEntries data off headerSize chunkSize stringsStart utf8 n i =
      raise (Apk.poolEntries data off headerSize chunkSize stringsStart utf8 n i) := by
  induction n generalizing i with
  | zero => rfl
  | succ n ih =>
    rw [poolEntries, Apk.poolEntries]
    simp only [raise_bind, raise_ite, raise_pure, readU32_raise, decodeString_eq, ih]
    refine bind_congr fun stringOff => ?_
    split
    · rfl
    · rfl

theorem stringPoolAt_raise (data : Bytes) (off : ℕ) :
    stringPoolAt data off = raise (Apk.stringPoolAt data off) := by
  unfold stringPoolAt Apk.stringPoolAt
  simp only [raise_bind, raise_ite, raise_pure, readU16_raise, readU32_raise, poolEntries_raise]

end Access

end Apk

end Muplar
