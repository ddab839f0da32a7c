import Muplar.Common.Bytes
import Muplar.Common.Loop
/-!
# APK — string pools

Compiled manifests and resource tables keep their texts in a string pool
and refer to them by index. `apk_envelope.cpp` decodes a pool in two
places: `axml_string_pool` looks for the first pool of a manifest,
`string_pool_at` reads the pool of a resource table at a known offset.

They differ where an entry points out of its chunk. `string_pool_at`
stores the empty string for it; `axml_string_pool` stores nothing, and
every later index then denotes the text after the one it means.
-/

namespace Muplar

namespace Apk

/-! ## Reading -/

/-- `read_u16`. -/
def readU16 (data : Bytes) (off : ℕ) : Except String ℕ :=
  if data.length < off + 2 then throw "APK zip header truncated"
  else return le (slice data off 2)

/-- `read_u32`. -/
def readU32 (data : Bytes) (off : ℕ) : Except String ℕ :=
  if data.length < off + 4 then throw "APK zip header truncated"
  else return le (slice data off 4)

/-- `data[off]`. -/
def byteAt (data : Bytes) (off : ℕ) : ℕ :=
  (data.getD off 0).toNat

def u16 (data : Bytes) (off : ℕ) : ℕ := le (slice data off 2)

def u32 (data : Bytes) (off : ℕ) : ℕ := le (slice data off 4)

theorem readU16_eq {data : Bytes} {off : ℕ} (h : off + 2 ≤ data.length) :
    readU16 data off = .ok (u16 data off) := by
  rw [readU16, if_neg (by omega)]
  rfl

theorem readU32_eq {data : Bytes} {off : ℕ} (h : off + 4 ≤ data.length) :
    readU32 data off = .ok (u32 data off) := by
  rw [readU32, if_neg (by omega)]
  rfl

theorem u16_lt (data : Bytes) (off : ℕ) : u16 data off < 2 ^ 16 := by
  have h := le_lt (slice data off 2)
  have hlen : (slice data off 2).length ≤ 2 := List.length_take_le _ _
  exact Nat.lt_of_lt_of_le h (Nat.pow_le_pow_right (by omega) hlen)

theorem u32_lt (data : Bytes) (off : ℕ) : u32 data off < 2 ^ 32 := by
  have h := le_lt (slice data off 4)
  have hlen : (slice data off 4).length ≤ 4 := List.length_take_le _ _
  exact Nat.lt_of_lt_of_le h (Nat.pow_le_pow_right (by omega) hlen)

section Records

variable {before after : Bytes} {fields : List Bytes} {i off k v : ℕ}

theorem u16_record (hfield : fields[i]? = some (encodeLe 2 v)) (hoff : off = before.length + k)
    (hk : k = (fields.take i).flatten.length) (hv : v < 2 ^ 16) :
    u16 (before ++ (fields.flatten ++ after)) off = v := by
  rw [u16, slice_record hfield hoff hk (length_encodeLe 2 v).symm, le_encodeLe hv]

theorem u32_record (hfield : fields[i]? = some (encodeLe 4 v)) (hoff : off = before.length + k)
    (hk : k = (fields.take i).flatten.length) (hv : v < 2 ^ 32) :
    u32 (before ++ (fields.flatten ++ after)) off = v := by
  rw [u32, slice_record hfield hoff hk (length_encodeLe 4 v).symm, le_encodeLe hv]

end Records

/-! ## One string -/

/-- `read_len` of `utf8_length_string`: one byte, or two where the first
has its high bit set. -/
def readLen8 (data : Bytes) (pos : ℕ) : Except String (ℕ × ℕ) :=
  if data.length ≤ pos then throw "AXML string length is truncated"
  else if byteAt data pos < 0x80 then return (byteAt data pos, pos + 1)
  else if data.length ≤ pos + 1 then throw "AXML string length is truncated"
  else return (byteAt data pos % 0x80 * 256 + byteAt data (pos + 1), pos + 2)

/-- A length of the pool: one byte, or two with the high bit of the first
set. -/
def encodeLen8 (n : ℕ) : Bytes :=
  if n < 0x80 then [UInt8.ofNat n] else [UInt8.ofNat (0x80 + n / 256), UInt8.ofNat (n % 256)]

theorem readLen8_encode {data before after : Bytes} {n : ℕ}
    (hdata : data = before ++ (encodeLen8 n ++ after)) (hn : n < 0x8000) :
    readLen8 data before.length = .ok (n, before.length + (encodeLen8 n).length) := by
  have hbyte : ∀ i, byteAt data (before.length + i) = ((encodeLen8 n ++ after).getD i 0).toNat := by
    intro i
    rw [byteAt, hdata, List.getD_eq_getElem?_getD, List.getD_eq_getElem?_getD,
      List.getElem?_append_right (by omega), Nat.add_sub_cancel_left]
  have hfirst := hbyte 0
  have hlen : data.length = before.length + (encodeLen8 n).length + after.length := by
    rw [hdata, List.length_append, List.length_append]
    omega
  rw [Nat.add_zero] at hfirst
  by_cases hshort : n < 0x80
  · simp only [encodeLen8, if_pos hshort, List.length_singleton] at hfirst hlen ⊢
    have hval : byteAt data before.length = n := by
      rw [hfirst]
      simp
      omega
    rw [readLen8, if_neg (by omega), if_pos (by omega), hval]
    rfl
  · have hsecond := hbyte 1
    simp only [encodeLen8, if_neg hshort, List.length_cons, List.length_nil] at hfirst hsecond hlen ⊢
    have hhigh : byteAt data before.length = 0x80 + n / 256 := by
      rw [hfirst]
      simp
      omega
    have hlow : byteAt data (before.length + 1) = n % 256 := by
      rw [hsecond]
      simp
    rw [readLen8, if_neg (by omega), if_neg (by omega), if_neg (by omega), hhigh, hlow]
    simp only [pure, Except.pure]
    congr 2
    omega

/-- `utf8_length_string`: the length in characters, which is skipped, the
length in bytes, and the bytes. -/
def utf8LengthString (data : Bytes) (off : ℕ) : Except String Bytes := do
  let (_, pos) ← readLen8 data off
  let (byteLen, pos) ← readLen8 data pos
  if data.length < pos + byteLen then throw "AXML UTF-8 string is truncated"
  else return slice data pos byteLen

/-- `read_len` of `utf16_length_string`. -/
def readLen16 (data : Bytes) (pos : ℕ) : Except String (ℕ × ℕ) := do
  let first ← readU16 data pos
  if first < 0x8000 then return (first, pos + 2)
  else
    let second ← readU16 data (pos + 2)
    return (first % 0x8000 * 65536 + second, pos + 4)

/-- The characters of a UTF-16 string; those outside ASCII become `?`. -/
def readChars16 (data : Bytes) : (len pos : ℕ) → Except String Bytes
  | 0, _ => return []
  | len + 1, pos => do
    let ch ← readU16 data pos
    let rest ← readChars16 data len (pos + 2)
    return (if ch < 0x80 then UInt8.ofNat ch else 63) :: rest

/-- `utf16_length_string`. -/
def utf16LengthString (data : Bytes) (off : ℕ) : Except String Bytes := do
  let (len, pos) ← readLen16 data off
  readChars16 data len pos

/-- A string of the pool; what cannot be decoded is the empty string. -/
def decodeString (data : Bytes) (utf8 : Bool) (pos : ℕ) : Bytes :=
  match if utf8 then utf8LengthString data pos else utf16LengthString data pos with
  | .ok text => text
  | .error _ => []

/-! ## The two decoders -/

def resStringPoolType : ℕ := 0x0001

/-- `(flags & UTF8_FLAG) != 0`. -/
def isUtf8 (flags : ℕ) : Bool :=
  flags / 0x100 % 2 = 1

/-- The entry loop of `axml_string_pool`, with `n` entries left from `i`
on: an entry that points out of the chunk is passed over. -/
def axmlEntries (manifest : Bytes) (off headerSize chunkSize stringsStart : ℕ) (utf8 : Bool) :
    (n i : ℕ) → Except String (List Bytes)
  | 0, _ => return []
  | n + 1, i => do
    let stringOff ← readU32 manifest (off + headerSize + i * 4 % 2 ^ 32)
    let stringPos := off + stringsStart + stringOff
    let rest ← axmlEntries manifest off headerSize chunkSize stringsStart utf8 n (i + 1)
    if off + chunkSize ≤ stringPos then return rest
    else return decodeString manifest utf8 stringPos :: rest

/-- One iteration of the chunk loop of `axml_string_pool`. -/
def axmlStringPoolBody (manifest : Bytes) (off : ℕ) :
    Except String (ℕ ⊕ List Bytes) := do
  if manifest.length < off + 28 then return .inr []
  else
    let type ← readU16 manifest off
    let headerSize ← readU16 manifest (off + 2)
    let chunkSize ← readU32 manifest (off + 4)
    if chunkSize < headerSize ∨ manifest.length < off + chunkSize then return .inr []
    else if type ≠ resStringPoolType then return .inl (off + chunkSize)
    else
      let stringCount ← readU32 manifest (off + 8)
      let flags ← readU32 manifest (off + 16)
      let stringsStart ← readU32 manifest (off + 20)
      -- the product is of 32-bit words, and so is the sum
      if chunkSize < (headerSize + stringCount * 4) % 2 ^ 32 ∨ chunkSize ≤ stringsStart then
        return .inr []
      else
        let strings ← axmlEntries manifest off headerSize chunkSize stringsStart (isUtf8 flags)
          stringCount 0
        return .inr strings

/-- Where the chunks of a manifest begin: after the header of the file,
if it has one. -/
def chunksStart (manifest : Bytes) : ℕ :=
  if 8 ≤ manifest.length ∧ u16 manifest 0 = 0x0003 then 8 else 0

/-- `axml_string_pool`. -/
def axmlStringPool (manifest : Bytes) : Loop.Fueled String (List Bytes) :=
  Loop.run (axmlStringPoolBody manifest) (chunksStart manifest)

/-- The entry loop of `string_pool_at`. -/
def poolEntries (data : Bytes) (off headerSize chunkSize stringsStart : ℕ) (utf8 : Bool) :
    (n i : ℕ) → Except String (List Bytes)
  | 0, _ => return []
  | n + 1, i => do
    let stringOff ← readU32 data (off + headerSize + i * 4 % 2 ^ 32)
    let stringPos := off + stringsStart + stringOff
    let rest ← poolEntries data off headerSize chunkSize stringsStart utf8 n (i + 1)
    if off + chunkSize ≤ stringPos then return [] :: rest
    else return decodeString data utf8 stringPos :: rest

/-- `string_pool_at`. -/
def stringPoolAt (data : Bytes) (off : ℕ) : Except String (List Bytes) := do
  if data.length < off + 28 then return []
  else if (← readU16 data off) ≠ resStringPoolType then return []
  else
    let headerSize ← readU16 data (off + 2)
    let chunkSize ← readU32 data (off + 4)
    let stringCount ← readU32 data (off + 8)
    let flags ← readU32 data (off + 16)
    let stringsStart ← readU32 data (off + 20)
    if chunkSize < headerSize ∨ data.length < off + chunkSize ∨
        chunkSize < headerSize + stringCount * 4 ∨ chunkSize ≤ stringsStart then
      return []
    else
      poolEntries data off headerSize chunkSize stringsStart (isUtf8 flags) stringCount 0

/-! ## What a pool says -/

/-- A string pool starts at `o` and passes the checks both decoders make
of its header. -/
structure PoolAt (data : Bytes) (o : ℕ) : Prop where
  room : o + 28 ≤ data.length
  type : u16 data o = resStringPoolType
  header : u16 data (o + 2) ≤ u32 data (o + 4)
  chunk : o + u32 data (o + 4) ≤ data.length
  entries : u16 data (o + 2) + u32 data (o + 8) * 4 ≤ u32 data (o + 4)
  start : u32 data (o + 20) < u32 data (o + 4)

def stringCount (data : Bytes) (o : ℕ) : ℕ := u32 data (o + 8)

/-- Where the pool's `i`-th entry points, from the start of its chunk. -/
def entryOffset (data : Bytes) (o i : ℕ) : ℕ :=
  u32 data (o + 20) + u32 data (o + u16 data (o + 2) + i * 4)

/-- The pool's `i`-th entry points into its chunk. -/
def InRange (data : Bytes) (o i : ℕ) : Prop :=
  entryOffset data o i < u32 data (o + 4)

instance (data : Bytes) (o : ℕ) : DecidablePred (InRange data o) :=
  fun _ => inferInstanceAs (Decidable (_ < _))

/-- The text index `i` denotes: the decoding of the `i`-th entry, and the
empty string where there is none. -/
def poolString (data : Bytes) (o i : ℕ) : Bytes :=
  if InRange data o i then decodeString data (isUtf8 (u32 data (o + 16))) (o + entryOffset data o i)
  else []

variable {data : Bytes} {o : ℕ}

theorem PoolAt.readU32_entry (hp : PoolAt data o) {i : ℕ} (hi : i < stringCount data o) :
    readU32 data (o + u16 data (o + 2) + i * 4 % 2 ^ 32) =
      .ok (u32 data (o + u16 data (o + 2) + i * 4)) := by
  have hentries := hp.entries
  have hchunk := hp.chunk
  have hsize := u32_lt data (o + 4)
  unfold stringCount at hi
  rw [Nat.mod_eq_of_lt (by omega : i * 4 < 2 ^ 32), readU32_eq (by omega)]

theorem entry_pos (data : Bytes) (o i : ℕ) :
    o + u32 data (o + 20) + u32 data (o + u16 data (o + 2) + i * 4) = o + entryOffset data o i :=
  Nat.add_assoc _ _ _

theorem out_of_range_iff (data : Bytes) (o i : ℕ) :
    o + u32 data (o + 4) ≤ o + entryOffset data o i ↔ ¬InRange data o i := by
  unfold InRange
  omega

/-- `string_pool_at` keeps one text for each entry. -/
theorem poolEntries_eq (hp : PoolAt data o) {n i : ℕ} (hn : i + n ≤ stringCount data o) :
    poolEntries data o (u16 data (o + 2)) (u32 data (o + 4)) (u32 data (o + 20))
        (isUtf8 (u32 data (o + 16))) n i =
      .ok ((List.range' i n).map (poolString data o)) := by
  induction n generalizing i with
  | zero => rfl
  | succ n ih =>
    rw [poolEntries, hp.readU32_entry (by omega), ih (by omega), List.range'_succ, List.map_cons,
      poolString]
    simp only [bind, Except.bind, entry_pos, out_of_range_iff]
    by_cases hr : InRange data o i
    · rw [if_neg (not_not.mpr hr), if_pos hr]
      rfl
    · rw [if_pos hr, if_neg hr]
      rfl

/-- `axml_string_pool` keeps a text only for the entries in range. -/
theorem axmlEntries_eq (hp : PoolAt data o) {n i : ℕ} (hn : i + n ≤ stringCount data o) :
    axmlEntries data o (u16 data (o + 2)) (u32 data (o + 4)) (u32 data (o + 20))
        (isUtf8 (u32 data (o + 16))) n i =
      .ok (((List.range' i n).filter fun i => InRange data o i).map (poolString data o)) := by
  induction n generalizing i with
  | zero => rfl
  | succ n ih =>
    rw [axmlEntries, hp.readU32_entry (by omega), ih (by omega), List.range'_succ]
    simp only [bind, Except.bind, entry_pos, out_of_range_iff]
    by_cases hr : InRange data o i
    · rw [if_neg (not_not.mpr hr), List.filter_cons_of_pos (by simpa using hr), List.map_cons,
        poolString, if_pos hr]
      rfl
    · rw [if_pos hr, List.filter_cons_of_neg (by simpa using hr)]
      rfl

theorem stringPoolAt_eq (hp : PoolAt data o) :
    stringPoolAt data o = .ok ((List.range (stringCount data o)).map (poolString data o)) := by
  have hroom := hp.room
  have hchecks : ¬(u32 data (o + 4) < u16 data (o + 2) ∨ data.length < o + u32 data (o + 4) ∨
      u32 data (o + 4) < u16 data (o + 2) + u32 data (o + 8) * 4 ∨
      u32 data (o + 4) ≤ u32 data (o + 20)) := by
    have h₁ := hp.header
    have h₂ := hp.chunk
    have h₃ := hp.entries
    have h₄ := hp.start
    omega
  rw [stringPoolAt, if_neg (by omega), readU16_eq (by omega), readU16_eq (by omega),
    readU32_eq (by omega), readU32_eq (by omega), readU32_eq (by omega), readU32_eq (by omega)]
  simp only [bind, Except.bind, hp.type, ne_eq, not_true_eq_false, if_false, if_neg hchecks]
  rw [List.range_eq_range']
  exact poolEntries_eq hp (Nat.le_of_eq (Nat.zero_add _))

theorem axmlStringPoolBody_eq (hp : PoolAt data o) :
    axmlStringPoolBody data o =
      .ok (.inr (((List.range (stringCount data o)).filter fun i => InRange data o i).map
        (poolString data o))) := by
  have hroom := hp.room
  have hsize := u32_lt data (o + 4)
  have hentries := hp.entries
  have hchunk : ¬(u32 data (o + 4) < u16 data (o + 2) ∨ data.length < o + u32 data (o + 4)) := by
    have h₁ := hp.header
    have h₂ := hp.chunk
    omega
  have hstart : ¬(u32 data (o + 4) < (u16 data (o + 2) + u32 data (o + 8) * 4) % 2 ^ 32 ∨
      u32 data (o + 4) ≤ u32 data (o + 20)) := by
    have h₄ := hp.start
    omega
  rw [axmlStringPoolBody, if_neg (by omega), readU16_eq (by omega), readU16_eq (by omega),
    readU32_eq (by omega), readU32_eq (by omega), readU32_eq (by omega), readU32_eq (by omega)]
  simp only [bind, Except.bind, hp.type, ne_eq, not_true_eq_false, if_false, if_neg hchunk,
    if_neg hstart]
  rw [List.range_eq_range']
  have h := axmlEntries_eq hp (Nat.le_of_eq (Nat.zero_add (stringCount data o)))
  unfold stringCount at h ⊢
  rw [h]
  rfl

/-- **When indices stay aligned.** For a pool that passes both decoders'
checks and is the first one `axml_string_pool` comes to: the two return
the same list, with a text for each entry in its place, exactly when no
entry points out of the chunk. -/
theorem pools_agree_iff (hp : PoolAt data o)
    (hfirst : Loop.Visits (axmlStringPoolBody data) (chunksStart data) o) :
    (∃ strings, Loop.Yields (axmlStringPool data) (.ok strings) ∧
      stringPoolAt data o = .ok strings ∧ strings.length = stringCount data o ∧
      ∀ i < stringCount data o, strings[i]? = some (poolString data o i)) ↔
    ∀ i < stringCount data o, InRange data o i := by
  have hyields : Loop.Yields (axmlStringPool data)
      (.ok (((List.range (stringCount data o)).filter fun i => InRange data o i).map
        (poolString data o))) :=
    (Loop.yields_visits hfirst).mpr (Loop.yields_return (axmlStringPoolBody_eq hp))
  constructor
  · rintro ⟨strings, haxml, -, hlen, -⟩ i hi
    have heq := Loop.Yields.unique (Loop.run_steady _ _) hyields haxml
    injection heq with heq
    rw [← heq, List.length_map] at hlen
    -- nothing was left out, so the filter keeps `i`
    have hall := List.length_filter_eq_length_iff.mp
      (hlen.trans (List.length_range (n := stringCount data o)).symm)
    simpa using hall i (List.mem_range.mpr hi)
  · intro hall
    have hfilter : (List.range (stringCount data o)).filter (fun i => InRange data o i) =
        List.range (stringCount data o) := by
      rw [List.filter_eq_self]
      intro i hi
      simpa using hall i (List.mem_range.mp hi)
    rw [hfilter] at hyields
    refine ⟨_, hyields, stringPoolAt_eq hp, ?_, ?_⟩
    · rw [List.length_map, List.length_range]
    · intro i hi
      rw [List.getElem?_map, List.getElem?_range hi]
      rfl

/-! ## Two pools -/

/-- A UTF-8 pool with the entries `a` and `b` and, from offset `36` on,
the strings `x` and `y`. -/
def twoStrings (a b : ℕ) : Bytes :=
  encodeLe 2 1 ++ encodeLe 2 28 ++ encodeLe 4 42 ++ encodeLe 4 2 ++ encodeLe 4 0 ++
    encodeLe 4 0x100 ++ encodeLe 4 36 ++ encodeLe 4 0 ++ encodeLe 4 a ++ encodeLe 4 b ++
    [1, 1, 120] ++ [1, 1, 121]

theorem pools_agree_twoStrings :
    PoolAt (twoStrings 0 3) 0 ∧
    ∃ strings, Loop.Yields (axmlStringPool (twoStrings 0 3)) (.ok strings) ∧
      stringPoolAt (twoStrings 0 3) 0 = .ok strings ∧ strings.length = 2 ∧
      ∀ i < 2, strings[i]? = some (poolString (twoStrings 0 3) 0 i) := by
  have hp : PoolAt (twoStrings 0 3) 0 :=
    ⟨by decide, by decide, by decide, by decide, by decide, by decide⟩
  exact ⟨hp, (pools_agree_iff hp (.refl _)).mpr (by decide)⟩

/-- **A dropped entry shifts the rest.** The first entry points out of
the chunk: the manifest's decoder returns `y` alone, as text `0`, where
the resource table's has it as text `1`. -/
theorem dropped_entry_shifts :
    PoolAt (twoStrings 6 3) 0 ∧
    Loop.Visits (axmlStringPoolBody (twoStrings 6 3)) (chunksStart (twoStrings 6 3)) 0 ∧
    ¬∃ strings, Loop.Yields (axmlStringPool (twoStrings 6 3)) (.ok strings) ∧
      stringPoolAt (twoStrings 6 3) 0 = .ok strings ∧
      strings.length = stringCount (twoStrings 6 3) 0 ∧
      ∀ i < stringCount (twoStrings 6 3) 0, strings[i]? = some (poolString (twoStrings 6 3) 0 i) := by
  refine ⟨⟨by decide, by decide, by decide, by decide, by decide, by decide⟩, .refl _, ?_⟩
  rintro ⟨strings, haxml, hat, -⟩
  have hshort : Loop.Yields (axmlStringPool (twoStrings 6 3)) (.ok [[121]]) := ⟨1, by decide⟩
  have hlong : stringPoolAt (twoStrings 6 3) 0 = .ok [[], [121]] := by decide
  have h₁ := Loop.Yields.unique (Loop.run_steady _ _) hshort haxml
  rw [hlong, ← h₁] at hat
  exact absurd hat (by decide)

end Apk

end Muplar
