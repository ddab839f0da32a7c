import Muplar.Shim.ParcelRoundTrip
/-!
# The Java Parcel store — its bounds

The calls on a parcel once more, with what they ask of the machine: every
allocation may fail on its own, and every access to the bytes is noted,
with the capacity it finds. Sizes are far below what a `size_t` holds, as
no allocation of half of that is granted.

The size stays within the capacity but for one call: `nativeSetDataSize`
sets it also where the store could not be made larger. A read that lacks
data refuses but for strings, whose length word is consumed, and binders,
which take the missing index for zero. Where neither happens, a run keeps
within its bounds, and only there (`stays_within_iff`).
-/

namespace Muplar

namespace Shim

variable {β : Type}

/-! ## The store and what is asked -/

/-- An access to the bytes of the store, with its capacity then. -/
structure ByteAccess where
  offset : ℕ
  length : ℕ
  capacity : ℕ

/-- `muplar_parcel`; `data` is the whole of the buffer. -/
structure ParcelStore (β : Type) where
  data : Bytes := []
  size : ℕ := 0
  pos : ℕ := 0
  binders : List (Option β) := []
  binderCap : ℕ := 0
  /-- how many allocations were asked for -/
  asked : ℕ := 0
  /-- the accesses so far, the last one first -/
  accesses : List ByteAccess := []

/-- A string of Java has a length that a `jsize` counts. -/
structure Chars (α : Type) where
  chars : List α
  length_lt : chars.length < 2 ^ 31

/-- The calls on a parcel that `nativeCreate` made; floats and doubles as
bits. -/
inductive ParcelCall (β : Type)
  | setDataCapacity (size : Int32)
  | setDataPosition (pos : Int32)
  | setDataSize (size : Int32)
  | freeBuffer
  | enforceInterface
  | writeInt (value : Int32)
  | writeLong (value : Int64)
  | writeFloat (bits : UInt32)
  | writeDouble (bits : UInt64)
  | writeString8 (value : Option (Chars UInt8))
  | writeString16 (value : Option (Chars UInt16))
  | writeInterfaceToken (value : Option (Chars UInt16))
  | writeStrongBinder (binder : Option β)
  | readInt
  | readLong
  | readFloat
  | readDouble
  | readString8
  | readString16
  | readStrongBinder

/-- What a call returns; of a string, its characters. -/
inductive ParcelResult (β : Type)
  | void
  | int (value : Int32)
  | long (value : Int64)
  | float (bits : UInt32)
  | double (bits : UInt64)
  | string8 (value : Option Bytes)
  | string16 (value : Option (List UInt16))
  | binder (value : Option β)

/-- Zero or null. -/
def ParcelResult.isNull : ParcelResult β → Bool
  | .void => true
  | .int value => value = 0
  | .long value => value = 0
  | .float bits => bits = 0
  | .double bits => bits = 0
  | .string8 value => value.isNone
  | .string16 value => value.isNone
  | .binder value => value.isNone

namespace ParcelStore

/-- The next allocation is granted or not. -/
def ask (grant : ℕ → Bool) (s : ParcelStore β) : Bool × ParcelStore β :=
  (grant s.asked, { s with asked := s.asked + 1 })

/-- Bytes are read or written. -/
def touch (s : ParcelStore β) (offset length : ℕ) : ParcelStore β :=
  { s with accesses := ⟨offset, length, s.data.length⟩ :: s.accesses }

/-- `muplar_parcel_grow`; what is new is set to zero. -/
def grow (grant : ℕ → Bool) (s : ParcelStore β) (needed : ℕ) : Bool × ParcelStore β :=
  if needed ≤ s.data.length then (true, s)
  else
    let newCap := doubleUntil needed (if s.data.length = 0 then 128 else s.data.length * 2)
    match s.ask grant with
    | (false, s) => (false, s)
    | (true, s) =>
      let cap := s.data.length
      let s := { s with data := s.data ++ List.replicate (newCap - cap) 0 }
      (true, s.touch cap (newCap - cap))

/-- `nativeSetDataCapacity`. -/
def setDataCapacity (grant : ℕ → Bool) (s : ParcelStore β) (size : Int32) : ParcelStore β :=
  if size ≤ 0 then s else (s.grow grant size.toInt.toNat).2

/-- `nativeSetDataPosition`. -/
def setDataPosition (s : ParcelStore β) (pos : Int32) : ParcelStore β :=
  if pos < 0 then s else { s with pos := pos.toInt.toNat }

/-- `nativeSetDataSize`. -/
def setDataSize (grant : ℕ → Bool) (s : ParcelStore β) (size : Int32) : ParcelStore β :=
  if size < 0 then s
  else
    let size := size.toInt.toNat
    let s := if size > s.data.length then (s.grow grant size).2 else s
    let s := { s with size := size }
    if s.pos > s.size then { s with pos := s.size } else s

/-- `nativeFreeBuffer`. -/
def freeBuffer (s : ParcelStore β) : ParcelStore β :=
  { s with data := [], size := 0, pos := 0, binders := [], binderCap := 0 }

/-! ## Writing -/

/-- Bytes from `offset` on, and the position behind `stop`. -/
def lay (s : ParcelStore β) (offset : ℕ) (bytes : Bytes) (stop : ℕ) : ParcelStore β :=
  let s := s.touch offset bytes.length
  { s with data := overwrite s.data offset bytes, pos := stop, size := max s.size stop }

/-- What `nativeWriteInt` and `nativeWriteLong` have in common. -/
def writeWord (grant : ℕ → Bool) (s : ParcelStore β) (word : Bytes) : Int32 × ParcelStore β :=
  let alignedPos := align4 s.pos
  let stop := alignedPos + word.length
  match s.grow grant stop with
  | (false, s) => (-1, s)
  | (true, s) => (0, s.lay alignedPos word stop)

/-- `nativeWriteInt`. -/
def writeInt (grant : ℕ → Bool) (s : ParcelStore β) (value : Int32) : Int32 × ParcelStore β :=
  s.writeWord grant (encodeLe 4 value.toUInt32.toNat)

/-- `nativeWriteLong`. -/
def writeLong (grant : ℕ → Bool) (s : ParcelStore β) (value : Int64) : Int32 × ParcelStore β :=
  s.writeWord grant (encodeLe 8 value.toUInt64.toNat)

/-- What the two string writers do after the length. -/
def writeChars (grant : ℕ → Bool) (s : ParcelStore β) (chars terminator : Bytes) :
    ParcelStore β :=
  let padded := align4 (chars.length + terminator.length)
  let stop := s.pos + padded
  match s.grow grant stop with
  | (false, s) => s
  | (true, s) => s.lay s.pos (chars ++ terminator) stop

/-- `nativeWriteString8`; the characters may not be granted. -/
def writeString8 (grant : ℕ → Bool) (s : ParcelStore β) : Option (Chars UInt8) → ParcelStore β
  | none => (s.writeInt grant (-1)).2
  | some value =>
    match s.ask grant with
    | (false, s) => (s.writeInt grant (-1)).2
    | (true, s) =>
      (s.writeInt grant (Int32.ofNat value.chars.length)).2.writeChars grant value.chars [0]

/-- `nativeWriteString16`. -/
def writeString16 (grant : ℕ → Bool) (s : ParcelStore β) : Option (Chars UInt16) → ParcelStore β
  | none => (s.writeInt grant (-1)).2
  | some value =>
    match s.ask grant with
    | (false, s) => (s.writeInt grant (-1)).2
    | (true, s) =>
      (s.writeInt grant (Int32.ofNat value.chars.length)).2.writeChars grant
        (Parcel.unitBytes value.chars) [0, 0]

/-- The binder table with room for one more. -/
def growBinders (grant : ℕ → Bool) (s : ParcelStore β) : Bool × ParcelStore β :=
  if s.binderCap ≤ s.binders.length then
    match s.ask grant with
    | (false, s) => (false, s)
    | (true, s) => (true, { s with binderCap := if s.binderCap = 0 then 4 else s.binderCap * 2 })
  else (true, s)

/-- `nativeWriteStrongBinder`; the reference may not be granted. -/
def writeStrongBinder (grant : ℕ → Bool) (s : ParcelStore β) : Option β → ParcelStore β
  | none => (s.writeInt grant (-1)).2
  | some binder =>
    match s.growBinders grant with
    | (false, s) => (s.writeInt grant (-1)).2
    | (true, s) =>
      let (granted, s) := s.ask grant
      let idx := s.binders.length
      let gref := if granted then some binder else none
      ({ s with binders := s.binders ++ [gref] }.writeInt grant (Int32.ofNat idx)).2

/-! ## Reading -/

/-- What `nativeReadInt` and `nativeReadLong` have in common. -/
def readWord (s : ParcelStore β) (width : ℕ) : Option (Bytes × ParcelStore β) :=
  let alignedPos := align4 s.pos
  if alignedPos + width > s.size then none
  else
    some (slice s.data alignedPos width,
      { s.touch alignedPos width with pos := alignedPos + width })

/-- `nativeReadInt`. -/
def readInt (s : ParcelStore β) : Int32 × ParcelStore β :=
  match s.readWord 4 with
  | none => (0, s)
  | some (bytes, s) => ((UInt32.ofNat (le bytes)).toInt32, s)

/-- `nativeReadLong`. -/
def readLong (s : ParcelStore β) : Int64 × ParcelStore β :=
  match s.readWord 8 with
  | none => (0, s)
  | some (bytes, s) => ((UInt64.ofNat (le bytes)).toInt64, s)

/-- The position moves on, but not behind the size. -/
def skip (s : ParcelStore β) (count : ℕ) : ParcelStore β :=
  { s with pos := if s.pos + count ≤ s.size then s.pos + count else s.size }

/-- `nativeReadString8`; a C string ends at its first NUL. -/
def readString8 (grant : ℕ → Bool) (s : ParcelStore β) : Option Bytes × ParcelStore β :=
  let (len, s) := s.readInt
  if len < 0 then (none, s)
  else if len = 0 then (some [], s.skip 4)
  else
    let count := len.toInt.toNat
    if s.pos + count > s.size then (none, s)
    else
      match s.ask grant with
      | (false, s) => (none, s)
      | (true, s) =>
        (some ((slice s.data s.pos count).takeWhile (· ≠ 0)),
          (s.touch s.pos count).skip (align4 (count + 1)))

/-- `nativeReadString16`. -/
def readString16 (s : ParcelStore β) : Option (List UInt16) × ParcelStore β :=
  let (len, s) := s.readInt
  if len < 0 then (none, s)
  else if len = 0 then (some [], s.skip 4)
  else
    let count := len.toInt.toNat
    if s.pos + count * 2 > s.size then (none, s)
    else
      (some (Parcel.bytesUnits (slice s.data s.pos (count * 2))),
        (s.touch s.pos (count * 2)).skip (align4 ((count + 1) * 2)))

/-- `nativeReadStrongBinder`. -/
def readStrongBinder (s : ParcelStore β) : Option β × ParcelStore β :=
  let (idx, s) := s.readInt
  (if idx < 0 then none else (s.binders[idx.toInt.toNat]?).join, s)

/-- A call, what it returns and what it leaves. -/
def exec (grant : ℕ → Bool) (s : ParcelStore β) : ParcelCall β → ParcelResult β × ParcelStore β
  | .setDataCapacity size => (.void, s.setDataCapacity grant size)
  | .setDataPosition pos => (.void, s.setDataPosition pos)
  | .setDataSize size => (.void, s.setDataSize grant size)
  | .freeBuffer => (.void, s.freeBuffer)
  | .enforceInterface => (.void, s.readInt.2.readString16.2)
  | .writeInt value => (.int (s.writeInt grant value).1, (s.writeInt grant value).2)
  | .writeLong value => (.int (s.writeLong grant value).1, (s.writeLong grant value).2)
  | .writeFloat bits =>
    (.int (s.writeInt grant bits.toInt32).1, (s.writeInt grant bits.toInt32).2)
  | .writeDouble bits =>
    (.int (s.writeLong grant bits.toInt64).1, (s.writeLong grant bits.toInt64).2)
  | .writeString8 value => (.void, s.writeString8 grant value)
  | .writeString16 value => (.void, s.writeString16 grant value)
  | .writeInterfaceToken value => (.void, (s.writeInt grant 0).2.writeString16 grant value)
  | .writeStrongBinder binder => (.void, s.writeStrongBinder grant binder)
  | .readInt => (.int s.readInt.1, s.readInt.2)
  | .readLong => (.long s.readLong.1, s.readLong.2)
  | .readFloat => (.float s.readInt.1.toUInt32, s.readInt.2)
  | .readDouble => (.double s.readLong.1.toUInt64, s.readLong.2)
  | .readString8 => (.string8 (s.readString8 grant).1, (s.readString8 grant).2)
  | .readString16 => (.string16 s.readString16.1, s.readString16.2)
  | .readStrongBinder => (.binder s.readStrongBinder.1, s.readStrongBinder.2)

def step (grant : ℕ → Bool) (s : ParcelStore β) (call : ParcelCall β) : ParcelStore β :=
  (s.exec grant call).2

/-! ## What is to hold -/

/-- **Within the store.** The size is at most the capacity, and so was the
end of every access. -/
structure Within (s : ParcelStore β) : Prop where
  size_le : s.size ≤ s.data.length
  accesses_le : ∀ a ∈ s.accesses, a.offset + a.length ≤ a.capacity

/-- The word at the position, which a string or a binder begins with. -/
def nextWord (s : ParcelStore β) : Int32 :=
  (UInt32.ofNat (le (slice s.data (align4 s.pos) 4))).toInt32

/-- A word of so many bytes is not left. -/
def LacksWord (s : ParcelStore β) (width : ℕ) : Prop :=
  s.size < align4 s.pos + width

/-- A string is not left: not its length, or not as many characters. -/
def LacksString (s : ParcelStore β) (width : ℕ) : Prop :=
  s.LacksWord 4 ∨
    0 < s.nextWord ∧ s.size < align4 s.pos + 4 + s.nextWord.toInt.toNat * width

/-- A read does not have enough data left. -/
def Lacks (s : ParcelStore β) : ParcelCall β → Prop
  | .readInt | .readFloat | .readStrongBinder => s.LacksWord 4
  | .readLong | .readDouble => s.LacksWord 8
  | .readString8 => s.LacksString 1
  | .readString16 => s.LacksString 2
  | _ => False

/-- **A read that lacks data refuses**: it returns zero or null and leaves
the position. -/
def Refuses (grant : ℕ → Bool) (s : ParcelStore β) (call : ParcelCall β) : Prop :=
  s.Lacks call → (s.exec grant call).1.isNull = true ∧ (s.exec grant call).2.pos = s.pos

/-- A size is not set without the capacity for it. -/
def Sized (grant : ℕ → Bool) (s : ParcelStore β) : ParcelCall β → Prop
  | .setDataSize size => size.toInt ≤ s.data.length ∨ grant s.asked = true
  | _ => True

/-- A string is read where it is left, and a binder where its index is, or
where there is none at zero. -/
def Supplied (s : ParcelStore β) : ParcelCall β → Prop
  | .readString8 => ¬s.LacksString 1
  | .readString16 => ¬s.LacksString 2
  | .readStrongBinder => ¬s.LacksWord 4 ∨ (s.binders[0]?).join = none
  | _ => True

/-! ## The calls within the store -/

section

variable {grant : ℕ → Bool} {s : ParcelStore β} {offset length stop n : ℕ} {bytes : Bytes}
variable {call : ParcelCall β}

theorem within_touch (h : Within s) (hle : offset + length ≤ s.data.length) :
    Within (s.touch offset length) where
  size_le := h.size_le
  accesses_le := List.forall_mem_cons.mpr ⟨hle, h.accesses_le⟩

/-- **Growing.** The store stays within, keeps its size and position, and
is large enough where it says so. -/
theorem grow_within (h : Within s) (n : ℕ) :
    Within (s.grow grant n).2 ∧ (s.grow grant n).2.pos = s.pos ∧
      ((s.grow grant n).1 = true → n ≤ (s.grow grant n).2.data.length) := by
  rw [grow]
  by_cases hle : n ≤ s.data.length
  · rw [if_pos hle]
    exact ⟨h, rfl, fun _ => hle⟩
  · rw [if_neg hle]
    have henough : n ≤ doubleUntil n (if s.data.length = 0 then 128 else s.data.length * 2) :=
      le_doubleUntil (by split <;> omega)
    -- only that the new capacity is enough matters from here
    generalize doubleUntil n (if s.data.length = 0 then 128 else s.data.length * 2) = newCap at *
    have hsize := h.size_le
    cases hgrant : grant s.asked with
    | false =>
      rw [ask, hgrant]
      refine ⟨⟨hsize, h.accesses_le⟩, rfl, fun hfalse => ?_⟩
      cases hfalse
    | true =>
      have hlength : (s.data ++ List.replicate (newCap - s.data.length) 0).length = newCap := by
        rw [List.length_append, List.length_replicate]
        omega
      rw [ask, hgrant]
      refine ⟨within_touch ⟨?_, h.accesses_le⟩ ?_, rfl, fun _ => ?_⟩
      · show s.size ≤ (s.data ++ List.replicate (newCap - s.data.length) 0).length
        omega
      · show s.data.length + (newCap - s.data.length) ≤
          (s.data ++ List.replicate (newCap - s.data.length) 0).length
        omega
      · show n ≤ (s.data ++ List.replicate (newCap - s.data.length) 0).length
        omega

theorem within_lay (h : Within s) (hle : offset + bytes.length ≤ stop)
    (hstop : stop ≤ s.data.length) : Within (s.lay offset bytes stop) := by
  have hlength : (overwrite s.data offset bytes).length = s.data.length :=
    length_overwrite (hle.trans hstop)
  refine ⟨?_, (within_touch h (hle.trans hstop)).accesses_le⟩
  show max s.size stop ≤ (overwrite s.data offset bytes).length
  rw [hlength]
  exact max_le h.size_le hstop

theorem within_writeWord (h : Within s) (word : Bytes) : Within (s.writeWord grant word).2 := by
  obtain ⟨hgrown, -, henough⟩ := @grow_within _ grant s h (align4 s.pos + word.length)
  rw [writeWord]
  cases hgrow : s.grow grant (align4 s.pos + word.length) with
  | mk granted q =>
    rw [hgrow] at hgrown henough
    cases granted with
    | false => exact hgrown
    | true => exact within_lay hgrown le_rfl (henough rfl)

theorem within_writeInt (h : Within s) (value : Int32) : Within (s.writeInt grant value).2 :=
  within_writeWord h _

theorem within_writeChars (h : Within s) (chars terminator : Bytes) :
    Within (s.writeChars grant chars terminator) := by
  have hpadded := le_align4 (chars.length + terminator.length)
  obtain ⟨hgrown, hpos, henough⟩ :=
    @grow_within _ grant s h (s.pos + align4 (chars.length + terminator.length))
  rw [writeChars]
  cases hgrow : s.grow grant (s.pos + align4 (chars.length + terminator.length)) with
  | mk granted q =>
    rw [hgrow] at hgrown henough hpos
    cases granted with
    | false => exact hgrown
    | true =>
      refine within_lay hgrown ?_ (henough rfl)
      dsimp only at hpos ⊢
      rw [List.length_append, hpos]
      omega

theorem within_ask (h : Within s) : Within (s.ask grant).2 :=
  ⟨h.size_le, h.accesses_le⟩

/-- Whether the allocation is granted or not. -/
theorem within_asked {denied granted : ParcelStore β → ParcelStore β} (h : Within s)
    (hdenied : ∀ {s}, Within s → Within (denied s))
    (hgranted : ∀ {s}, Within s → Within (granted s)) :
    Within (match s.ask grant with
      | (false, s) => denied s
      | (true, s) => granted s) := by
  have hasked := @within_ask _ grant s h
  cases hask : s.ask grant with
  | mk answer q =>
    rw [hask] at hasked
    cases answer with
    | false => exact hdenied hasked
    | true => exact hgranted hasked

theorem within_writeString8 (h : Within s) (value : Option (Chars UInt8)) :
    Within (s.writeString8 grant value) := by
  cases value with
  | none => exact within_writeInt h _
  | some value =>
    exact within_asked h (fun h => within_writeInt h _) fun h =>
      within_writeChars (within_writeInt h _) _ _

theorem within_writeString16 (h : Within s) (value : Option (Chars UInt16)) :
    Within (s.writeString16 grant value) := by
  cases value with
  | none => exact within_writeInt h _
  | some value =>
    exact within_asked h (fun h => within_writeInt h _) fun h =>
      within_writeChars (within_writeInt h _) _ _

theorem within_growBinders (h : Within s) : Within (s.growBinders grant).2 := by
  rw [growBinders]
  split
  · have hasked := @within_ask _ grant s h
    cases hask : s.ask grant with
    | mk granted q =>
      rw [hask] at hasked
      cases granted with
      | false => exact hasked
      | true => exact ⟨hasked.size_le, hasked.accesses_le⟩
  · exact h

theorem within_writeStrongBinder (h : Within s) (binder : Option β) :
    Within (s.writeStrongBinder grant binder) := by
  cases binder with
  | none => exact within_writeInt h _
  | some binder =>
    have hgrown := @within_growBinders _ grant s h
    rw [writeStrongBinder]
    cases hgrow : s.growBinders grant with
    | mk granted q =>
      rw [hgrow] at hgrown
      cases granted with
      | false => exact within_writeInt hgrown _
      | true =>
        have hasked := @within_ask _ grant q hgrown
        let gref := if grant q.asked then some binder else none
        exact within_writeInt (s := { (q.ask grant).2 with binders := q.binders ++ [gref] })
          ⟨hasked.size_le, hasked.accesses_le⟩ (Int32.ofNat q.binders.length)

theorem readWord_eq (s : ParcelStore β) (width : ℕ) : s.readWord width =
    if s.size < align4 s.pos + width then none
    else some (slice s.data (align4 s.pos) width,
      { s.touch (align4 s.pos) width with pos := align4 s.pos + width }) := rfl

theorem within_readInt (h : Within s) : Within s.readInt.2 := by
  have hsize := h.size_le
  rw [readInt, readWord_eq]
  by_cases hlacks : s.size < align4 s.pos + 4
  · rw [if_pos hlacks]
    exact h
  · rw [if_neg hlacks]
    have htouched := within_touch h (show align4 s.pos + 4 ≤ s.data.length by omega)
    exact ⟨htouched.size_le, htouched.accesses_le⟩

theorem within_readLong (h : Within s) : Within s.readLong.2 := by
  have hsize := h.size_le
  rw [readLong, readWord_eq]
  by_cases hlacks : s.size < align4 s.pos + 8
  · rw [if_pos hlacks]
    exact h
  · rw [if_neg hlacks]
    have htouched := within_touch h (show align4 s.pos + 8 ≤ s.data.length by omega)
    exact ⟨htouched.size_le, htouched.accesses_le⟩

theorem within_skip (h : Within s) (n : ℕ) : Within (s.skip n) :=
  ⟨h.size_le, h.accesses_le⟩

theorem within_readString8 (h : Within s) : Within (s.readString8 grant).2 := by
  have hread := within_readInt h
  rw [readString8]
  cases hword : s.readInt with
  | mk len q =>
    rw [hword] at hread
    have hsize := hread.size_le
    dsimp only at hread hsize ⊢
    split_ifs with hneg hzero hlacks
    · exact hread
    · exact within_skip hread _
    · exact hread
    · -- the characters were found to be there before memory is asked for
      have hasked := @within_ask _ grant q hread
      have hleft : (q.ask grant).2.pos + len.toInt.toNat ≤ (q.ask grant).2.data.length := by
        show q.pos + len.toInt.toNat ≤ q.data.length
        omega
      cases hask : q.ask grant with
      | mk granted r =>
        rw [hask] at hasked hleft
        cases granted with
        | false => exact hasked
        | true => exact within_skip (within_touch hasked hleft) _

theorem within_readString16 (h : Within s) : Within s.readString16.2 := by
  have hread := within_readInt h
  rw [readString16]
  cases hword : s.readInt with
  | mk len q =>
    rw [hword] at hread
    have hsize := hread.size_le
    dsimp only at hread hsize ⊢
    split_ifs with hneg hzero hlacks
    · exact hread
    · exact within_skip hread _
    · exact hread
    · exact within_skip (within_touch hread (by omega)) _

/-- What `setDataSize` leaves: the size as asked, and the store grown if it
could be. -/
theorem setDataSize_spec {size : Int32} {q : ParcelStore β} (hneg : ¬size < 0)
    (hq : (if size.toInt.toNat > s.data.length then (s.grow grant size.toInt.toNat).2 else s) =
      q) : (s.setDataSize grant size).size = size.toInt.toNat ∧
      (s.setDataSize grant size).data = q.data ∧
      (s.setDataSize grant size).accesses = q.accesses := by
  rw [setDataSize, if_neg hneg]
  dsimp only
  rw [hq]
  split
  · exact ⟨rfl, rfl, rfl⟩
  · exact ⟨rfl, rfl, rfl⟩

theorem within_setDataSize {size : Int32} (h : Within s)
    (hsized : s.Sized grant (.setDataSize size)) : Within (s.setDataSize grant size) := by
  by_cases hneg : size < 0
  · rw [setDataSize, if_pos hneg]
    exact h
  · by_cases hmore : size.toInt.toNat > s.data.length
    · obtain ⟨hgrown, -, henough⟩ := @grow_within _ grant s h size.toInt.toNat
      have hgranted : grant s.asked = true := hsized.resolve_left (by omega)
      have hroom := henough (by rw [grow, if_neg (by omega), ask, hgranted])
      obtain ⟨hsize, hdata, haccesses⟩ := setDataSize_spec hneg (if_pos hmore)
      refine ⟨?_, ?_⟩
      · rw [hsize, hdata]
        exact hroom
      · rw [haccesses]
        exact hgrown.accesses_le
    · obtain ⟨hsize, hdata, haccesses⟩ := @setDataSize_spec _ grant _ _ _ hneg (if_neg hmore)
      refine ⟨?_, ?_⟩
      · rw [hsize, hdata]
        omega
      · rw [haccesses]
        exact h.accesses_le

/-- **A size without its capacity** is set all the same. -/
theorem not_within_step (h : ¬s.Sized grant call) : ¬Within (s.step grant call) := by
  cases call with
  | setDataSize size =>
    rw [Sized, not_or, Int.not_le, Bool.not_eq_true] at h
    obtain ⟨hmore, hrefused⟩ := h
    have hgrow : s.grow grant size.toInt.toNat = (false, { s with asked := s.asked + 1 }) := by
      rw [grow, if_neg (by omega), ask, hrefused]
    have hneg : ¬size < 0 := by
      rw [Int32.lt_iff_toInt_lt]
      show ¬size.toInt < 0
      omega
    obtain ⟨hsize, hdata, -⟩ := @setDataSize_spec _ grant _ _ _ hneg
      (if_pos (show size.toInt.toNat > s.data.length by omega))
    -- the size is set though the store did not grow
    rw [hgrow] at hdata
    intro hwithin
    have hle : (s.setDataSize grant size).size ≤ (s.setDataSize grant size).data.length :=
      hwithin.size_le
    rw [hsize, hdata] at hle
    dsimp only at hle
    omega
  | _ => exact absurd trivial h

/-- **One call.** A call that does not set the size alone stays within. -/
theorem within_step (h : Within s) (hsized : s.Sized grant call) : Within (s.step grant call) := by
  cases call with
  | setDataCapacity size =>
    show Within (s.setDataCapacity grant size)
    rw [setDataCapacity]
    split_ifs
    · exact h
    · exact (grow_within h _).1
  | setDataPosition pos =>
    show Within (s.setDataPosition pos)
    rw [setDataPosition]
    split_ifs
    · exact h
    · exact ⟨h.size_le, h.accesses_le⟩
  | setDataSize size => exact within_setDataSize h hsized
  | freeBuffer => exact ⟨Nat.le_refl 0, h.accesses_le⟩
  | enforceInterface => exact within_readString16 (within_readInt h)
  | writeInt | writeFloat => exact within_writeInt h _
  | writeLong | writeDouble => exact within_writeWord h _
  | writeString8 value => exact within_writeString8 h value
  | writeString16 value => exact within_writeString16 h value
  | writeInterfaceToken value => exact within_writeString16 (within_writeInt h 0) value
  | writeStrongBinder binder => exact within_writeStrongBinder h binder
  | readInt | readFloat | readStrongBinder => exact within_readInt h
  | readLong | readDouble => exact within_readLong h
  | readString8 => exact within_readString8 h
  | readString16 => exact within_readString16 h

/-! ## Reads that lack data -/

theorem readInt_of_lacks (h : s.LacksWord 4) : s.readInt = (0, s) := by
  rw [LacksWord] at h
  rw [readInt, readWord_eq, if_pos h]

theorem readInt_of_left (h : ¬s.LacksWord 4) :
    s.readInt = (s.nextWord, { s.touch (align4 s.pos) 4 with pos := align4 s.pos + 4 }) := by
  rw [LacksWord] at h
  rw [readInt, readWord_eq, if_neg h]
  rfl

theorem readLong_of_lacks (h : s.LacksWord 8) : s.readLong = (0, s) := by
  rw [LacksWord] at h
  rw [readLong, readWord_eq, if_pos h]

theorem length_of_pos (hpos : 0 < s.nextWord) : ¬s.nextWord < 0 ∧ ¬s.nextWord = 0 := by
  have hpos' : (0 : Int32).toInt < s.nextWord.toInt := Int32.lt_iff_toInt_lt.mp hpos
  constructor
  · rw [Int32.lt_iff_toInt_lt]
    omega
  · intro hzero
    rw [hzero] at hpos'
    omega

/-- **A string that is not left** is not refused: where its length is not
left either, it is read as empty, and where only characters are missing,
the length is consumed. -/
theorem refuses_string_iff {α : Type} {width : ℕ} {result : Option α} {after : ParcelStore β}
    (hempty : s.LacksWord 4 → result ≠ none)
    (hconsumed : ¬s.LacksWord 4 → 0 < s.nextWord →
      s.size < align4 s.pos + 4 + s.nextWord.toInt.toNat * width → after.pos = align4 s.pos + 4) :
    (s.LacksString width → result.isNone = true ∧ after.pos = s.pos) ↔ ¬s.LacksString width := by
  constructor
  · intro hrefuses hlacks
    obtain ⟨hnull, hpos⟩ := hrefuses hlacks
    by_cases hword : s.LacksWord 4
    · exact hempty hword (Option.isNone_iff_eq_none.mp hnull)
    · obtain ⟨hlen, hchars⟩ := hlacks.resolve_left hword
      have halign := le_align4 s.pos
      rw [hconsumed hword hlen hchars] at hpos
      omega
  · exact fun hleft hlacks => absurd hlacks hleft

theorem refuses_readString8_iff : s.Refuses grant .readString8 ↔ ¬s.LacksString 1 := by
  show (s.LacksString 1 → (s.readString8 grant).1.isNone = true ∧
    (s.readString8 grant).2.pos = s.pos) ↔ _
  refine refuses_string_iff (fun hword => ?_) fun hword hlen hchars => ?_
  · rw [readString8, readInt_of_lacks hword]
    exact Option.some_ne_none _
  · obtain ⟨hneg, hzero⟩ := length_of_pos hlen
    rw [Nat.mul_one] at hchars
    have hmore : align4 s.pos + 4 + s.nextWord.toInt.toNat > (s.touch (align4 s.pos) 4).size :=
      hchars
    rw [readString8, readInt_of_left hword]
    dsimp only
    rw [if_neg hneg, if_neg hzero, if_pos hmore]

theorem refuses_readString16_iff : s.Refuses grant .readString16 ↔ ¬s.LacksString 2 := by
  show (s.LacksString 2 → s.readString16.1.isNone = true ∧ s.readString16.2.pos = s.pos) ↔ _
  refine refuses_string_iff (fun hword => ?_) fun hword hlen hchars => ?_
  · rw [readString16, readInt_of_lacks hword]
    exact Option.some_ne_none _
  · obtain ⟨hneg, hzero⟩ := length_of_pos hlen
    have hmore : align4 s.pos + 4 + s.nextWord.toInt.toNat * 2 >
        (s.touch (align4 s.pos) 4).size := hchars
    rw [readString16, readInt_of_left hword]
    dsimp only
    rw [if_neg hneg, if_neg hzero, if_pos hmore]

/-- **One read.** It refuses what it lacks exactly where it is supplied. -/
theorem refuses_iff : s.Refuses grant call ↔ s.Supplied call := by
  cases call with
  | readString8 => exact refuses_readString8_iff
  | readString16 => exact refuses_readString16_iff
  | readStrongBinder =>
    -- an index that is not there is read as 0, and the first binder is found
    have hread : s.LacksWord 4 → s.readStrongBinder = ((s.binders[0]?).join, s) := by
      intro hlacks
      rw [readStrongBinder, readInt_of_lacks hlacks]
      rfl
    constructor
    · intro hrefuses
      refine Classical.or_iff_not_imp_left.mpr fun hlacks => ?_
      have hnull := (hrefuses (not_not.mp hlacks)).1
      change s.readStrongBinder.1.isNone = true at hnull
      rw [hread (not_not.mp hlacks)] at hnull
      exact Option.isNone_iff_eq_none.mp hnull
    · intro hsupplied hlacks
      have hnone := hsupplied.resolve_left (not_not_intro hlacks)
      show s.readStrongBinder.1.isNone = true ∧ s.readStrongBinder.2.pos = s.pos
      rw [hread hlacks, hnone]
      exact ⟨rfl, rfl⟩
  | readInt | readFloat =>
    refine iff_of_true (fun hlacks => ?_) trivial
    rw [exec, readInt_of_lacks hlacks]
    exact ⟨rfl, rfl⟩
  | readLong | readDouble =>
    refine iff_of_true (fun hlacks => ?_) trivial
    rw [exec, readLong_of_lacks hlacks]
    exact ⟨rfl, rfl⟩
  | _ => exact iff_of_true (fun hlacks => hlacks.elim) trivial

/-! ## Whole runs -/

open Machine

/-- **A parcel stays within its store** in a run from `nativeCreate`, and
its reads refuse what they lack, exactly where no size is set without its
capacity and every read is supplied. -/
theorem stays_within_iff (grant : ℕ → Bool) (calls : List (ParcelCall β)) :
    (Throughout (step grant) Within ({} : ParcelStore β) calls ∧
        Meets (step grant) (Refuses grant) {} calls) ↔
      Meets (step grant) (fun s call => s.Sized grant call ∧ s.Supplied call) {} calls := by
  have hcreated : Within ({} : ParcelStore β) :=
    ⟨Nat.le_refl 0, fun a ha => absurd ha List.not_mem_nil⟩
  have hwithin : Throughout (step grant) Within ({} : ParcelStore β) calls ↔
      Meets (step grant) (Sized grant) {} calls :=
    throughout_iff_meets_of_breaks (fun _ _ => within_step) (fun _ h => h)
      (fun _ _ _ => not_within_step) hcreated
  have hrefuses : Meets (step grant) (Refuses grant) ({} : ParcelStore β) calls ↔
      Meets (step grant) Supplied {} calls :=
    meets_congr (K := fun _ => True) (fun _ _ _ => trivial) (fun _ _ _ => refuses_iff) trivial
      calls
  rw [hwithin, hrefuses]
  constructor
  · exact fun h => h.1.and h.2
  · exact fun h => ⟨h.mono fun _ _ _ h => h.1, h.mono fun _ _ _ h => h.2⟩

/-- A size of 200 is asked for, and the store cannot be made. -/
theorem size_without_store :
    ¬Throughout (step fun _ => false) Within ({} : ParcelStore Unit) [.setDataSize 200] := by
  rintro ⟨-, hlast⟩
  exact absurd hlast.size_le (by decide)

end

end ParcelStore

end Shim

end Muplar
