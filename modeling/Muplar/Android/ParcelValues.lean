import Muplar.Android.Binder
import Muplar.Android.Heap
/-!
# The Android runtime — typed values of parcels

What `AParcel_write…` puts into a parcel and what `AParcel_read…` hands to
the guest. A value of a parcel has room for a number, a text, a list of
numbers and a list of strings; each kind of value has its own way to use
them, and a position is the index of a value.

A value that is read comes out as it went in. But a string is cut when it is
written, a write goes to the end of the parcel wherever the position is, and
a position is cast to 32 bits when it is set.

A write has what is in the guest's memory with it, and a read ends with what
goes there: the guest gives addresses for it, and its callbacks succeed. What
they do to the heap is left open, so that each read comes with the heap it
finds.
-/

namespace Muplar

namespace Android

open Cursor

/-! ## Values -/

/-- `BinderStatus`. -/
structure BinderStatus where
  exception : Int32 := 0
  serviceError : Int32 := 0
  status : Int32 := 0
  message : Bytes := []
  deriving DecidableEq

/-- The kinds that are one number. -/
inductive ScalarKind
  | int32
  | uint32
  | int64
  | uint64
  | float
  | double
  | bool
  | char
  | byte
  deriving DecidableEq

/-- What a guest writes, and what it reads: for a number, its bytes in
memory. -/
inductive ParcelItem
  | scalar (kind : ScalarKind) (bytes : Bytes)
  | string (text : Option Bytes)
  | int32Array (items : Option (List UInt32))
  | stringArray (items : Option (List (Option Bytes)))
  | strongBinder (binder : UInt64)
  | fileDescriptor (fd : UInt32)
  | status (status : BinderStatus)
  deriving DecidableEq

namespace ScalarKind

def kind : ScalarKind → BinderParcelKind
  | int32 => .int32
  | uint32 => .uint32
  | int64 => .int64
  | uint64 => .uint64
  | float => .float
  | double => .double
  | bool => .bool
  | char => .char
  | byte => .byte

/-- `AParcel_writeInt32` and its like: the number that is put into the parcel
for the register of the argument. -/
def stored : ScalarKind → UInt64 → UInt64
  | int32, a => a.toUInt32.toInt32.toInt64.toUInt64
  | uint32, a | float, a => a.toUInt32.toUInt64
  | int64, a | uint64, a | double, a => a
  | bool, a => if a ≠ 0 then 1 else 0
  | char, a => a.toUInt16.toUInt64
  | byte, a => a.toUInt8.toUInt64

/-- `AParcel_readInt32` and its like: what a number in the parcel is written to
the guest as. -/
def delivered : ScalarKind → UInt64 → Bytes
  | int32, value | uint32, value | float, value => encodeU32 value.toUInt32
  | int64, value | uint64, value | double, value => encodeU64 value
  | bool, value => [if value ≠ 0 then 1 else 0]
  | char, value => encodeLe 2 value.toUInt16.toNat
  | byte, value => [value.toUInt8]

/-- The bytes in memory of what a register has as an argument of the type. -/
def argument : ScalarKind → UInt64 → Bytes
  | int32, a | uint32, a | float, a => encodeU32 a.toUInt32
  | int64, a | uint64, a | double, a => encodeU64 a
  | bool, a => [if a ≠ 0 then 1 else 0]
  | char, a => encodeLe 2 a.toUInt16.toNat
  | byte, a => [a.toUInt8]

/-- A number comes out as it went in. -/
theorem delivered_stored (k : ScalarKind) (a : UInt64) :
    k.delivered (k.stored a) = k.argument a := by
  cases k with
  | int32 => exact congrArg encodeU32 (toUInt32_signExtended a.toUInt32)
  | uint32 | float => exact congrArg encodeU32 (UInt32.toUInt32_toUInt64 a.toUInt32)
  | int64 | uint64 | double => rfl
  | bool =>
    rw [stored, delivered, argument]
    split <;> rfl
  | char =>
    rw [stored, delivered, argument, UInt16.toUInt16_toUInt64]
  | byte =>
    rw [stored, delivered, argument, UInt8.toUInt8_toUInt64]

end ScalarKind

def statusNoMemory : ℕ := statusError 12

/-- `MAX_PARCEL_ARRAY_LENGTH`. -/
def maxParcelArrayLength : ℕ := 1024

/-- `MAX_PARCEL_STRING_LENGTH`, which is that of the strings of arrays. -/
def maxParcelStringLength : ℕ := 4096

/-- `INT32_MAX`. -/
def int32Max : ℕ := 2 ^ 31 - 1

/-- `alloc_guest` returns 0: it has no place for a block, or the place is at
address 0. -/
def Runtime.full (rt : Runtime) (size align : UInt64) : Bool :=
  (rt.allocGuest size align).2.address = 0

/-- An `int32_t` in a number of a parcel. -/
def widen (v : Int32) : UInt64 :=
  v.toInt64.toUInt64

/-! ## Writes -/

/-- The calls that write. An array of strings comes with the heap the call
finds, a status with what it has in it, if its handle is known. -/
inductive ParcelWrite
  | scalar (kind : ScalarKind) (argument : UInt64)
  | string (text : Option Bytes)
  | int32Array (items : Option (List UInt32))
  | stringArray (items : Option (List (Option Bytes))) (heap : Runtime)
  | strongBinder (binder : UInt64)
  | fileDescriptor (fd : UInt64)
  | status (status : Option BinderStatus)

/-- `AParcel_writeString`. -/
def writeString (text : Option Bytes) : BinderParcelValue :=
  match text with
  | none => { kind := .string, value := 1 }
  | some text => { kind := .string, text := text.take 4096 }

/-- `AParcel_writeInt32Array`. -/
def writeInt32Array (items : Option (List UInt32)) : Except ℕ BinderParcelValue :=
  match items with
  | none => .ok { kind := .int32Array, value := 1 }
  | some items =>
    if maxParcelArrayLength < items.length then .error statusBadValue
    else .ok { kind := .int32Array, elements := items.map fun item => widen item.toInt32 }

/-- `AParcel_writeStringArray`. -/
def writeStringArray (items : Option (List (Option Bytes))) (heap : Runtime) :
    Except ℕ BinderParcelValue :=
  match items with
  | none => .ok { kind := .stringArray, value := 1 }
  | some items =>
    if maxParcelArrayLength < items.length then .error statusBadValue
    else if items.isEmpty then .ok { kind := .stringArray }
    else if heap.full 4 4 then .error statusNoMemory
    else if items.any fun item => item.any fun text => maxParcelStringLength < text.length then
      .error statusBadValue
    else .ok
      { kind := .stringArray
        elements := items.map fun item => if item.isNone then 1 else 0
        strings := items.map fun item => item.getD [] }

/-- `AParcel_writeStatusHeader`. -/
def writeStatusHeader (status : Option BinderStatus) : BinderParcelValue :=
  match status with
  | none => { kind := .status }
  | some status =>
    { kind := .status
      value := widen status.status
      elements := [widen status.exception, widen status.serviceError]
      text := status.message }

/-- The value a call puts into the parcel, or the status it fails with. -/
def ParcelWrite.value : ParcelWrite → Except ℕ BinderParcelValue
  | scalar kind argument => .ok { kind := kind.kind, value := kind.stored argument }
  | string text => .ok (writeString text)
  | int32Array items => writeInt32Array items
  | stringArray items heap => writeStringArray items heap
  | strongBinder binder => .ok { kind := .strongBinder, value := binder }
  | fileDescriptor fd => .ok { kind := .parcelFileDescriptor, value := widen fd.toUInt32.toInt32 }
  | status known => .ok (writeStatusHeader known)

/-- What the guest means by it. -/
def ParcelWrite.item : ParcelWrite → ParcelItem
  | scalar kind argument => .scalar kind (kind.argument argument)
  | string text => .string text
  | int32Array items => .int32Array items
  | stringArray items _ => .stringArray items
  | strongBinder binder => .strongBinder binder
  | fileDescriptor fd => .fileDescriptor fd.toUInt32
  | status known => .status (known.getD {})

def Binders.parcelWrite (b : Binders) (handle : ℕ) (write : ParcelWrite) : Outcome :=
  match write.value with
  | .error status => { binders := b, result := status }
  | .ok value => b.appendValue handle value

/-! ## Reads -/

/-- The calls that read. -/
inductive ParcelRead
  | scalar (kind : ScalarKind)
  | string
  | int32Array
  | stringArray
  | strongBinder
  | fileDescriptor
  | status
  deriving DecidableEq

/-- The kind of value a call is for. -/
def ParcelRead.expected : ParcelRead → BinderParcelKind
  | scalar kind => kind.kind
  | string => .string
  | int32Array => .int32Array
  | stringArray => .stringArray
  | strongBinder => .strongBinder
  | fileDescriptor => .parcelFileDescriptor
  | status => .status

/-- The strings of an array, those that are marked as null apart. -/
def BinderParcelValue.stringItems (v : BinderParcelValue) : List (Option Bytes) :=
  (v.strings.take int32Max).mapIdx fun i text =>
    if (v.elements[i]?).any (· ≠ 0) then none else some text

def exTransactionFailed : Int32 := -129

/-- `AParcel_readStatusHeader`, of a value of its kind. -/
def BinderParcelValue.toStatus (v : BinderParcelValue) : BinderStatus where
  status := v.value.toUInt32.toInt32
  exception :=
    match v.elements[0]? with
    | some exception => exception.toUInt32.toInt32
    | none => if v.value.toUInt32.toInt32 ≠ 0 then exTransactionFailed else 0
  serviceError := ((v.elements[1]?).map fun error => error.toUInt32.toInt32).getD 0
  message := v.text

/-- What is handed to the guest of a value of the right kind. The slot for
the address of what the guest allocates is taken from the heap, for an array
of strings only if it is not null. -/
def ParcelRead.deliver (heap : Runtime) (v : BinderParcelValue) : ParcelRead → Except ℕ ParcelItem
  | scalar kind => .ok (.scalar kind (kind.delivered v.value))
  | string =>
    if heap.full 8 8 then .error statusNoMemory
    else .ok (.string (if v.value ≠ 0 then none else some v.text))
  | int32Array =>
    if heap.full 8 8 then .error statusNoMemory
    else .ok (.int32Array (if v.value ≠ 0 then none
      else some ((v.elements.take int32Max).map UInt64.toUInt32)))
  | stringArray =>
    if v.value ≠ 0 then .ok (.stringArray none)
    else if heap.full 8 8 then .error statusNoMemory
    else .ok (.stringArray (some v.stringItems))
  | strongBinder => .ok (.strongBinder v.value)
  | fileDescriptor => .ok (.fileDescriptor v.value.toUInt32)
  | status => .ok (.status v.toStatus)

/-- A call that reads: what it leaves, and what the guest gets or the status
it fails with. A status header that is not there is one without errors. -/
def Binders.parcelRead (b : Binders) (handle : ℕ) (read : ParcelRead) (heap : Runtime) :
    Binders × Except ℕ ParcelItem :=
  match b.readValue handle read.expected with
  | .ok (after, v) =>
    (if read = .strongBinder then after.modify v.value.toNat .acquire else after,
      read.deliver heap v)
  | .error status =>
    if read = .status && (b.parcels handle).isSome then (b, .ok (.status {}))
    else (b, .error status)

/-- To the table a read is one of its two. -/
theorem parcelRead_binders (b : Binders) (handle : ℕ) (read : ParcelRead) (heap : Runtime) :
    (b.parcelRead handle read heap).1 =
      if read = .strongBinder then (b.readStrongBinder handle).binders
      else (b.readOther handle read.expected).binders := by
  by_cases hstrong : read = .strongBinder
  · subst hstrong
    rw [if_pos rfl, Binders.parcelRead, Binders.readStrongBinder, ParcelRead.expected]
    cases b.readValue handle .strongBinder <;> rfl
  · rw [if_neg hstrong, Binders.parcelRead, Binders.readOther]
    cases b.readValue handle read.expected with
    | ok found => exact if_neg hstrong
    | error status =>
      dsimp only
      split <;> rfl

/-! ## One value -/

namespace ParcelWrite

/-- The read that goes with a write. -/
def read : ParcelWrite → ParcelRead
  | scalar kind _ => .scalar kind
  | string _ => .string
  | int32Array _ => .int32Array
  | stringArray _ _ => .stringArray
  | strongBinder _ => .strongBinder
  | fileDescriptor _ => .fileDescriptor
  | status _ => .status

/-- A string is not longer than what is kept of it. -/
def Short : ParcelWrite → Prop
  | string (some text) => text.length ≤ 4096
  | _ => True

/-- The read takes a slot from the heap. -/
def takesSlot : ParcelWrite → Bool
  | string _ | int32Array _ | stringArray (some _) _ => true
  | _ => false

/-- The heap the read finds has a place for the slot it takes. -/
def Fits (write : ParcelWrite) (heap : Runtime) : Prop :=
  write.takesSlot = true → heap.full 8 8 = false

theorem kind_of_value {write : ParcelWrite} {v : BinderParcelValue} (h : write.value = .ok v) :
    v.kind = write.read.expected := by
  cases write with
  | string text => cases text <;> cases h <;> rfl
  | int32Array items =>
    simp only [value, writeInt32Array] at h
    split at h
    · cases h; rfl
    · split_ifs at h
      cases h; rfl
  | stringArray items heap =>
    simp only [value, writeStringArray] at h
    split at h
    · cases h; rfl
    · split_ifs at h <;> cases h <;> rfl
  | status known => cases known <;> cases h <;> rfl
  | _ => cases h; rfl

end ParcelWrite

theorem toInt32_widen (v : Int32) : (widen v).toUInt32.toInt32 = v :=
  toInt32_signExtended v

theorem toStatus_writeStatusHeader (known : Option BinderStatus) :
    (writeStatusHeader known).toStatus = known.getD {} := by
  cases known with
  | none => rfl
  | some given =>
    simp only [writeStatusHeader, BinderParcelValue.toStatus, List.getElem?_cons_zero,
      List.getElem?_cons_succ, Option.map_some, Option.getD_some, toInt32_widen]

/-- The elements of an array of integers come out as they went in. -/
theorem toUInt32_widen_map (items : List UInt32) :
    (items.map fun item => widen item.toInt32).map UInt64.toUInt32 = items := by
  rw [List.map_map]
  refine (List.map_congr_left fun item _ => ?_).trans (List.map_id items)
  exact toUInt32_signExtended item

/-- So do the strings of an array. -/
theorem stringItems_of_items {items : List (Option Bytes)} (h : items.length ≤ int32Max)
    {v : BinderParcelValue}
    (helements : v.elements = items.map fun item => if item.isNone then 1 else 0)
    (hstrings : v.strings = items.map fun item => item.getD []) : v.stringItems = items := by
  rw [BinderParcelValue.stringItems, hstrings, helements,
    List.take_of_length_le (by rw [List.length_map]; exact h)]
  refine List.ext_getElem? fun i => ?_
  rw [List.getElem?_mapIdx, List.getElem?_map, List.getElem?_map]
  cases items[i]? with
  | none => rfl
  | some item => cases item <;> rfl

theorem deliver_string {text : Option Bytes} {heap : Runtime} :
    ParcelRead.deliver heap (writeString text) .string = .ok (.string text) ↔
      (ParcelWrite.string text).Short ∧ heap.full 8 8 = false := by
  rw [ParcelRead.deliver]
  cases hfull : heap.full 8 8 with
  | true =>
    rw [if_pos rfl]
    exact ⟨fun h => (by cases h), fun h => (by cases h.2)⟩
  | false =>
    rw [if_neg Bool.false_ne_true]
    cases text with
    | none => exact ⟨fun _ => ⟨trivial, rfl⟩, fun _ => rfl⟩
    | some text =>
      show Except.ok (ParcelItem.string (some (text.take 4096))) = _ ↔ text.length ≤ 4096 ∧ _
      constructor
      · intro h
        injection h with h
        injection h with h
        have hlength := congrArg List.length (Option.some.inj h)
        rw [List.length_take] at hlength
        exact ⟨by omega, rfl⟩
      · rintro ⟨h, -⟩
        rw [List.take_of_length_le h]

/-- **A value that was written is delivered** exactly where it was not cut
and there is a place for the slot the read takes. -/
theorem deliver_iff {write : ParcelWrite} {v : BinderParcelValue} (h : write.value = .ok v)
    (heap : Runtime) :
    write.read.deliver heap v = .ok write.item ↔ write.Short ∧ write.Fits heap := by
  have hquiet : write.read.deliver heap v = .ok write.item → write.Short → write.takesSlot = false →
      (write.read.deliver heap v = .ok write.item ↔ write.Short ∧ write.Fits heap) :=
    fun hd hs ht => ⟨fun _ => ⟨hs, fun hno => absurd (ht.symm.trans hno) Bool.false_ne_true⟩,
      fun _ => hd⟩
  -- a read that takes a slot, of a value that is not cut
  have hslot : write.Short → write.takesSlot = true →
      (write.read.deliver heap v =
        if heap.full 8 8 then .error statusNoMemory else .ok write.item) →
      (write.read.deliver heap v = .ok write.item ↔ write.Short ∧ write.Fits heap) := by
    intro hs ht hd
    rw [hd, ParcelWrite.Fits]
    cases hfull : heap.full 8 8 with
    | true =>
      refine ⟨fun hno => ?_, fun hno => absurd (hno.2 ht) Bool.noConfusion⟩
      rw [if_pos rfl] at hno
      cases hno
    | false => exact ⟨fun _ => ⟨hs, fun _ => rfl⟩, fun _ => rfl⟩
  cases write with
  | scalar kind argument =>
    cases h
    exact hquiet (congrArg (fun bytes => Except.ok (ParcelItem.scalar kind bytes))
      (kind.delivered_stored argument)) trivial rfl
  | string text =>
    cases h
    rw [ParcelWrite.Fits]
    exact deliver_string.trans (and_congr_right fun _ => ⟨fun hno _ => hno, fun hno => hno rfl⟩)
  | int32Array items =>
    refine hslot trivial rfl ?_
    cases items with
    | none => cases h; rfl
    | some items =>
      simp only [ParcelWrite.value, writeInt32Array] at h
      split_ifs at h with hlength
      cases h
      have htake : (items.map fun item => widen item.toInt32).take int32Max =
          items.map fun item => widen item.toInt32 := by
        refine List.take_of_length_le ?_
        rw [List.length_map]
        rw [maxParcelArrayLength] at hlength
        rw [int32Max]
        omega
      show (if heap.full 8 8 then _ else Except.ok (ParcelItem.int32Array (some
        (((items.map fun item => widen item.toInt32).take int32Max).map UInt64.toUInt32)))) = _
      rw [htake, toUInt32_widen_map]
      rfl
  | stringArray items heap' =>
    cases items with
    | none => cases h; exact hquiet rfl trivial rfl
    | some items =>
      refine hslot trivial rfl ?_
      simp only [ParcelWrite.value, writeStringArray] at h
      have hlength : items.length ≤ int32Max := by
        by_contra hno
        rw [if_pos (by rw [maxParcelArrayLength]; rw [int32Max] at hno; omega)] at h
        cases h
      have hitems : v.value = 0 ∧ v.stringItems = items := by
        split_ifs at h with hlong hempty hfull hbad
        · cases h
          exact ⟨rfl, (List.isEmpty_iff.mp hempty).symm⟩
        · cases h
          exact ⟨rfl, stringItems_of_items hlength rfl rfl⟩
      show ParcelRead.deliver heap v .stringArray = _
      rw [ParcelRead.deliver, hitems.1, if_neg (not_not.mpr rfl), hitems.2]
      rfl
  | strongBinder binder => cases h; exact hquiet rfl trivial rfl
  | fileDescriptor fd =>
    cases h
    exact hquiet (congrArg (fun fd => Except.ok (ParcelItem.fileDescriptor fd))
      (toUInt32_signExtended fd.toUInt32)) trivial rfl
  | status known =>
    cases h
    exact hquiet (congrArg (fun s => Except.ok (ParcelItem.status s))
      (toStatus_writeStatusHeader known)) trivial rfl

/-! ## Sequences -/

/-- A write, and the heap that the read of it will find. -/
structure ParcelStep where
  write : ParcelWrite
  heap : Runtime

def Binders.writeAll (b : Binders) (handle : ℕ) (steps : List ParcelStep) : Binders :=
  steps.foldl (fun b s => (b.parcelWrite handle s.write).binders) b

/-- What the reads that go with the writes give. -/
def Binders.readAll (b : Binders) (handle : ℕ) : List ParcelStep → List (Except ℕ ParcelItem)
  | [] => []
  | s :: steps =>
    let (after, result) := b.parcelRead handle s.write.read s.heap
    result :: after.readAll handle steps

/-- `AParcel_getDataPosition`. -/
def Binders.dataPosition (b : Binders) (handle : ℕ) : UInt64 :=
  UInt64.ofNat (((b.parcels handle).map BinderParcel.cursor).getD 0)

/-- The parcel is written to, set back to where it was, and read. -/
def Binders.RoundTrips (b : Binders) (handle : ℕ) (steps : List ParcelStep) : Prop :=
  ((b.writeAll handle steps).setDataPosition handle
    (b.dataPosition handle).toUInt32.toInt32).binders.readAll handle steps =
      steps.map fun s => .ok s.write.item

/-- A read of another kind than the value at the position fails, and leaves
everything as it is. A status header is not such a read. -/
def Binders.RefusesOthers (b : Binders) (handle : ℕ) : Prop :=
  ∀ (parcel : BinderParcel) (v : BinderParcelValue) (read : ParcelRead) (heap : Runtime),
    b.parcels handle = some parcel → parcel.values[parcel.cursor]? = some v → read ≠ .status →
    v.kind ≠ read.expected → ∃ status, b.parcelRead handle read heap = (b, .error status)

theorem refusesOthers (b : Binders) (handle : ℕ) : b.RefusesOthers handle := by
  intro parcel v read heap hparcel hv hstatus hkind
  refine ⟨statusBadValue, ?_⟩
  rw [Binders.parcelRead, Binders.readValue, hparcel]
  dsimp only
  rw [hv]
  dsimp only
  rw [if_pos hkind]
  dsimp only
  rw [decide_eq_false hstatus, Bool.false_and, if_neg Bool.false_ne_true]

/-! ## Where the position comes to be -/

/-- A position as the `int32_t` that it is set as. -/
theorem toInt_position (n : ℕ) :
    (UInt64.ofNat n).toUInt32.toInt32.toInt = (n : ℤ).bmod (2 ^ 32) := by
  have hnat : (UInt64.ofNat n).toUInt32.toInt32.toBitVec.toNat = n % 2 ^ 32 := by
    show (UInt64.ofNat n).toUInt32.toNat = _
    rw [UInt64.toNat_toUInt32, UInt64.toNat_ofNat', Nat.mod_mod_of_dvd n (by decide)]
  show (UInt64.ofNat n).toUInt32.toInt32.toBitVec.toInt = _
  rw [BitVec.toInt_eq_toNat_bmod, hnat, Int.natCast_emod]
  exact Int.emod_bmod ..

section Position

variable {b : Binders} {handle : ℕ} {p : BinderParcel} {n : ℕ}

/-- It is set, to what is left of it in 32 bits. -/
theorem setDataPosition_of_lt (hp : b.parcels handle = some p) (hle : n ≤ p.values.length)
    (hlow : n % 2 ^ 32 < 2 ^ 31) :
    (b.setDataPosition handle (UInt64.ofNat n).toUInt32.toInt32).binders.parcels handle =
      some { p with cursor := n % 2 ^ 32 } := by
  have htoInt : (UInt64.ofNat n).toUInt32.toInt32.toInt = (n % 2 ^ 32 : ℕ) := by
    rw [toInt_position, Int.bmod_def]
    split <;> omega
  have hpositive : ¬ (UInt64.ofNat n).toUInt32.toInt32 < 0 := by
    rw [Int32.lt_iff_toInt_lt, htoInt]
    exact Int.not_lt.mpr (Int.natCast_nonneg _)
  have hle' : n % 2 ^ 32 ≤ n := Nat.mod_le _ _
  rw [Binders.setDataPosition, hp]
  dsimp only
  rw [htoInt, Int.toNat_natCast, decide_eq_false hpositive, Bool.false_or, if_neg ?_]
  · exact Function.update_self ..
  · rw [decide_eq_true_eq]
    omega

/-- It is refused where that is negative. -/
theorem setDataPosition_of_ge (hhigh : 2 ^ 31 ≤ n % 2 ^ 32) :
    (b.setDataPosition handle (UInt64.ofNat n).toUInt32.toInt32).binders = b := by
  have hnegative : (UInt64.ofNat n).toUInt32.toInt32 < 0 := by
    rw [Int32.lt_iff_toInt_lt, toInt_position, Int.bmod_def]
    show _ < (0 : ℤ)
    split <;> omega
  rw [Binders.setDataPosition]
  split
  · rfl
  · rw [decide_eq_true hnegative, Bool.true_or, if_pos rfl]

end Position

/-! ## Writes and reads in a row -/

section Rows

variable {b : Binders} {handle : ℕ} {p : BinderParcel} {steps : List ParcelStep}

/-- The values the writes put into the parcel. -/
def storedAll (steps : List ParcelStep) : List BinderParcelValue :=
  steps.filterMap fun s => s.write.value.toOption

/-- Every write succeeds. -/
def Succeed (steps : List ParcelStep) : Prop :=
  ∀ s ∈ steps, ∃ v, s.write.value = .ok v

theorem storedAll_cons {s : ParcelStep} {v : BinderParcelValue} (h : s.write.value = .ok v) :
    storedAll (s :: steps) = v :: storedAll steps := by
  rw [storedAll, List.filterMap_cons, h]
  rfl

/-- The writes go to the end of the parcel, and leave the position there. -/
theorem parcels_writeAll (h : Succeed steps) (hp : b.parcels handle = some p) :
    (b.writeAll handle steps).parcels handle = some
      { p with
        values := p.values ++ storedAll steps
        cursor := if steps.isEmpty then p.cursor else (p.values ++ storedAll steps).length } := by
  induction steps generalizing b p with
  | nil =>
    rw [Binders.writeAll, List.foldl_nil, hp, storedAll, List.filterMap_nil, List.append_nil]
    rfl
  | cons s steps ih =>
    obtain ⟨v, hv⟩ := h s List.mem_cons_self
    have hafter : (b.parcelWrite handle s.write).binders.parcels handle =
        some { p with values := p.values ++ [v], cursor := p.values.length + 1 } := by
      rw [Binders.parcelWrite, hv]
      dsimp only
      rw [Binders.appendValue, hp]
      exact Function.update_self ..
    have hrest := ih (fun s' hs' => h s' (List.mem_cons_of_mem s hs')) hafter
    rw [Binders.writeAll, List.foldl_cons, ← Binders.writeAll, hrest, storedAll_cons hv,
      List.append_assoc, List.singleton_append]
    cases steps with
    | nil =>
      rw [storedAll, List.filterMap_nil, List.length_append, List.length_singleton]
      rfl
    | cons s' steps => rfl

/-- A read of a value of its kind goes on to the next. -/
theorem parcelRead_of_kind (hp : b.parcels handle = some p) {v : BinderParcelValue}
    (hv : p.values[p.cursor]? = some v) {read : ParcelRead} (hkind : v.kind = read.expected)
    (heap : Runtime) :
    (b.parcelRead handle read heap).2 = read.deliver heap v ∧
      (b.parcelRead handle read heap).1.parcels handle =
        some { p with cursor := p.cursor + 1 } := by
  have hread : b.readValue handle read.expected =
      .ok (b.setParcel handle (some { p with cursor := p.cursor + 1 }), v) := by
    rw [Binders.readValue, hp]
    dsimp only
    rw [hv]
    exact if_neg (not_not.mpr hkind)
  have hset : (b.setParcel handle (some { p with cursor := p.cursor + 1 })).parcels handle =
      some { p with cursor := p.cursor + 1 } := Function.update_self ..
  rw [Binders.parcelRead, hread]
  refine ⟨rfl, ?_⟩
  dsimp only
  split_ifs <;> exact hset

/-- **From where the values were put they are read as they were written**,
if none was cut and there are slots for them. -/
theorem readAll_iff (h : Succeed steps) (hp : b.parcels handle = some p)
    (hvalues : p.values.drop p.cursor = storedAll steps) :
    b.readAll handle steps = steps.map (fun s => .ok s.write.item) ↔
      ∀ s ∈ steps, s.write.Short ∧ s.write.Fits s.heap := by
  induction steps generalizing b p with
  | nil => exact ⟨fun _ s hs => absurd hs List.not_mem_nil, fun _ => rfl⟩
  | cons s steps ih =>
    obtain ⟨v, hv⟩ := h s List.mem_cons_self
    rw [storedAll_cons hv] at hvalues
    have hat : p.values[p.cursor]? = some v := by
      rw [← List.head?_drop, hvalues, List.head?_cons]
    have hrest : p.values.drop (p.cursor + 1) = storedAll steps := by
      rw [← List.drop_drop, hvalues, List.drop_one, List.tail_cons]
    obtain ⟨hresult, hafter⟩ :=
      parcelRead_of_kind hp hat (ParcelWrite.kind_of_value hv) s.heap
    rw [Binders.readAll]
    dsimp only
    rw [hresult, List.map_cons, List.cons_eq_cons, deliver_iff hv,
      ih (fun s' hs' => h s' (List.mem_cons_of_mem s hs')) hafter hrest, List.forall_mem_cons]

theorem parcelRead_of_end (hp : b.parcels handle = some p) (hend : p.values.length ≤ p.cursor)
    (read : ParcelRead) (heap : Runtime) :
    b.parcelRead handle read heap =
      (b, if read = .status then .ok (.status {}) else .error statusNotEnoughData) := by
  have hread : b.readValue handle read.expected = .error statusNotEnoughData := by
    rw [Binders.readValue, hp]
    dsimp only
    rw [List.getElem?_eq_none hend]
  rw [Binders.parcelRead, hread, hp]
  dsimp only
  by_cases hstatus : read = .status
  · rw [if_pos hstatus, decide_eq_true hstatus]
    rfl
  · rw [if_neg hstatus, decide_eq_false hstatus]
    rfl

/-- At the end of a parcel there is nothing to read but a status header
without errors, and that is always there. -/
theorem readAll_iff_of_end (hp : b.parcels handle = some p) (hend : p.values.length ≤ p.cursor) :
    b.readAll handle steps = steps.map (fun s => .ok s.write.item) ↔
      ∀ s ∈ steps, s.write.item = .status {} := by
  induction steps with
  | nil => exact ⟨fun _ s hs => absurd hs List.not_mem_nil, fun _ => rfl⟩
  | cons s steps ih =>
    rw [Binders.readAll, parcelRead_of_end hp hend, List.forall_mem_cons, List.map_cons]
    dsimp only
    rw [List.cons_eq_cons, ih]
    refine and_congr_left fun _ => ?_
    by_cases hstatus : s.write.read = .status
    · rw [if_pos hstatus, Except.ok.injEq]
      exact eq_comm
    · rw [if_neg hstatus]
      refine ⟨fun hno => (by cases hno), fun hno => absurd ?_ hstatus⟩
      cases hwrite : s.write with
      | status known => rfl
      | _ =>
        rw [hwrite] at hno
        cases hno

/-! ## A parcel with something else in it -/

/-- The status number of what is written. -/
def ParcelItem.number : ParcelItem → Int32
  | .status s => s.status
  | _ => 0

/-- A value that is not read as what is written. -/
def decoy (write : ParcelWrite) : BinderParcelValue where
  kind := .status
  value := widen (write.item.number + 1)

theorem int32_succ_ne (v : Int32) : v + 1 ≠ v := by
  intro h
  have hone : (1 : Int32) = 0 := by
    rwa [← Int32.add_right_inj (c := v), Int32.add_zero]
  exact absurd hone (by decide)

/-- The first read finds the decoy. -/
theorem not_readAll_of_decoy (hp : b.parcels handle = some p) {s : ParcelStep}
    (hv : p.values[p.cursor]? = some (decoy s.write)) :
    b.readAll handle (s :: steps) ≠ (s :: steps).map (fun s => .ok s.write.item) := by
  intro hall
  rw [Binders.readAll] at hall
  dsimp only at hall
  have hfirst := (List.cons.inj hall).1
  by_cases hstatus : s.write.read = .status
  · have hkind : (decoy s.write).kind = s.write.read.expected := by rw [hstatus]; rfl
    rw [(parcelRead_of_kind hp hv hkind s.heap).1, hstatus] at hfirst
    have hnumber := congrArg ParcelItem.number (Except.ok.inj hfirst)
    have hdecoy : (ParcelItem.status (decoy s.write).toStatus).number =
        s.write.item.number + 1 := toInt32_widen _
    exact int32_succ_ne _ (hdecoy.symm.trans hnumber)
  · have hkind : (decoy s.write).kind ≠ s.write.read.expected := by
      intro hno
      cases hread : s.write.read with
      | status => exact hstatus hread
      | scalar kind =>
        rw [hread] at hno
        cases kind <;> cases hno
      | _ =>
        rw [hread] at hno
        cases hno
    obtain ⟨status, hrefused⟩ := refusesOthers b handle p _ s.write.read s.heap hp hv hstatus hkind
    rw [hrefused] at hfirst
    cases hfirst

end Rows

/-! ## Results -/

/-- What is written and read at a position with so many values behind it
comes out as it went in, whatever the parcel has in it; and a read of
another kind than the value's fails and moves nothing. -/
def TypedRoundTrip (position behind : ℕ) (steps : List ParcelStep) : Prop :=
  ∀ (b : Binders) (handle : ℕ) (parcel : BinderParcel), b.parcels handle = some parcel →
    parcel.cursor = position → parcel.values.length = position + behind →
    b.RoundTrips handle steps ∧ b.RefusesOthers handle

/-- The position is at the end of the parcel and is one that can be set, no
string is cut and there are slots for what is read. -/
def AtEnd (position behind : ℕ) (steps : List ParcelStep) : Prop :=
  behind = 0 ∧ position < 2 ^ 31 ∧ ∀ s ∈ steps, s.write.Short ∧ s.write.Fits s.heap

/-- The position is one that is refused, and only status headers without
errors are written: they are read of nothing. -/
def OnlyPlainStatuses (position : ℕ) (steps : List ParcelStep) : Prop :=
  2 ^ 31 ≤ position % 2 ^ 32 ∧ ∀ s ∈ steps, s.write.item = .status {}

section Results

variable {b : Binders} {handle position behind : ℕ} {p : BinderParcel} {steps : List ParcelStep}

/-- A sequence that is not empty leaves the position at the end. -/
theorem parcels_writeAll_cons {s : ParcelStep} (h : Succeed (s :: steps))
    (hp : b.parcels handle = some p) :
    (b.writeAll handle (s :: steps)).parcels handle = some
      { p with
        values := p.values ++ storedAll (s :: steps)
        cursor := (p.values ++ storedAll (s :: steps)).length } :=
  parcels_writeAll h hp

theorem dataPosition_eq (hp : b.parcels handle = some p) :
    b.dataPosition handle = UInt64.ofNat p.cursor := by
  rw [Binders.dataPosition, hp]
  rfl

theorem parcels_setParcel_self (b : Binders) (handle : ℕ) (parcel : Option BinderParcel) :
    (b.setParcel handle parcel).parcels handle = parcel :=
  Function.update_self ..

theorem roundTrips_nil : b.RoundTrips handle [] := rfl

/-- Written and read at the end of a parcel. -/
theorem roundTrips_iff_of_end {s : ParcelStep} (h : Succeed (s :: steps))
    (hp : b.parcels handle = some p) (hend : p.values.length = p.cursor)
    (hlow : p.cursor < 2 ^ 31) :
    b.RoundTrips handle (s :: steps) ↔
      ∀ s' ∈ s :: steps, s'.write.Short ∧ s'.write.Fits s'.heap := by
  have hwritten := parcels_writeAll_cons h hp
  have hset := setDataPosition_of_lt (n := p.cursor) hwritten
    (by dsimp only; rw [List.length_append]; omega) (by omega)
  rw [Nat.mod_eq_of_lt (by omega)] at hset
  rw [Binders.RoundTrips, dataPosition_eq hp]
  refine readAll_iff h hset ?_
  dsimp only
  rw [← hend, List.drop_left]

/-- A position that is refused leaves the reads at the end. -/
theorem roundTrips_iff_of_high {s : ParcelStep} (h : Succeed (s :: steps))
    (hp : b.parcels handle = some p) (hhigh : 2 ^ 31 ≤ p.cursor % 2 ^ 32) :
    b.RoundTrips handle (s :: steps) ↔ ∀ s' ∈ s :: steps, s'.write.item = .status {} := by
  rw [Binders.RoundTrips, dataPosition_eq hp, setDataPosition_of_ge hhigh]
  exact readAll_iff_of_end (parcels_writeAll_cons h hp) le_rfl

/-- A parcel with decoys. -/
def decoys (position behind : ℕ) (write : ParcelWrite) : BinderParcel where
  cursor := position
  values := List.replicate (position + behind) (decoy write)

/-- Where the position is not at the end, or is cut to a smaller one, the
first read finds what was there before. -/
theorem not_roundTrips_of_decoys {s : ParcelStep} (h : Succeed (s :: steps))
    (hp : b.parcels handle = some (decoys position behind s.write))
    (hlow : position % 2 ^ 32 < 2 ^ 31) (hbefore : position % 2 ^ 32 < position + behind) :
    ¬ b.RoundTrips handle (s :: steps) := by
  have hlength : (decoys position behind s.write).values.length = position + behind :=
    List.length_replicate
  have hset := setDataPosition_of_lt (n := position) (parcels_writeAll_cons h hp)
    (by dsimp only; rw [List.length_append, hlength]; omega) hlow
  rw [Binders.RoundTrips, dataPosition_eq hp]
  refine not_readAll_of_decoy hset ?_
  dsimp only
  rw [List.getElem?_append_left (by rw [hlength]; exact hbefore), decoys,
    List.getElem?_replicate_of_lt hbefore]

/-- **The typed round trip of parcels** holds, of writes that succeed, at a
position and with a number of values behind it, exactly where nothing is
written, or it is written at the end and short enough. -/
theorem typed_round_trip_iff (position behind : ℕ) (steps : List ParcelStep)
    (h : Succeed steps) :
    TypedRoundTrip position behind steps ↔
      steps = [] ∨ AtEnd position behind steps ∨ OnlyPlainStatuses position steps := by
  constructor
  · intro hall
    cases steps with
    | nil => exact .inl rfl
    | cons s steps =>
      right
      have hparcel : (Binders.empty.setParcel 1 (some (decoys position behind s.write))).parcels 1 =
          some (decoys position behind s.write) := parcels_setParcel_self ..
      obtain ⟨hround, -⟩ := hall _ 1 _ hparcel rfl List.length_replicate
      rcases Nat.lt_or_ge (position % 2 ^ 32) (2 ^ 31) with hlow | hhigh
      · by_cases hend : behind = 0 ∧ position < 2 ^ 31
        · obtain ⟨rfl, hlt⟩ := hend
          exact .inl
            ⟨rfl, hlt, (roundTrips_iff_of_end h hparcel List.length_replicate hlt).mp hround⟩
        · refine absurd hround (not_roundTrips_of_decoys h hparcel hlow ?_)
          omega
      · exact .inr ⟨hhigh, (roundTrips_iff_of_high h hparcel hhigh).mp hround⟩
  · intro hcase b handle parcel hparcel hcursor hlength
    refine ⟨?_, refusesOthers b handle⟩
    cases steps with
    | nil => exact roundTrips_nil
    | cons s steps =>
      rcases hcase with hnil | ⟨rfl, hlt, hshort⟩ | ⟨hhigh, hplain⟩
      · cases hnil
      · refine (roundTrips_iff_of_end h hparcel (by omega) (by omega)).mpr hshort
      · exact (roundTrips_iff_of_high h hparcel (by rw [hcursor]; exact hhigh)).mpr hplain

/-- A heap that is not full, and does not start at 0. -/
def roomyHeap : Runtime :=
  { Runtime.start with heap := ⟨0x1000, 0x1000⟩ }

/-- A number, a string and an array, in an empty parcel. -/
theorem typed_round_trip_three :
    TypedRoundTrip 0 0 [⟨.scalar .int32 0xFFFFFFFF, roomyHeap⟩,
      ⟨.string (some (ascii "ok")), roomyHeap⟩,
      ⟨.stringArray (some [some (ascii "a"), none]) roomyHeap, roomyHeap⟩] :=
  (typed_round_trip_iff 0 0 _ (List.forall_mem_cons.mpr ⟨⟨_, rfl⟩, List.forall_mem_cons.mpr
    ⟨⟨_, rfl⟩, List.forall_mem_singleton.mpr ⟨_, rfl⟩⟩⟩)).mpr
    (.inr (.inl ⟨rfl, by decide, List.forall_mem_cons.mpr ⟨⟨trivial, fun h => Bool.noConfusion h⟩,
      List.forall_mem_cons.mpr ⟨⟨show (ascii "ok").length ≤ 4096 by decide, fun _ => rfl⟩,
        List.forall_mem_singleton.mpr ⟨trivial, fun _ => rfl⟩⟩⟩⟩))

/-- **A string of 5000 bytes** in an empty parcel is read as one of 4096. -/
theorem long_string_cut :
    ¬ TypedRoundTrip 0 0 [⟨.string (some (List.replicate 5000 0x61)), roomyHeap⟩] := by
  intro hall
  have hparcel : (Binders.empty.setParcel 1 (some {})).parcels 1 = some {} :=
    parcels_setParcel_self ..
  obtain ⟨hround, -⟩ := hall _ 1 _ hparcel rfl rfl
  have hshort := (roundTrips_iff_of_end (List.forall_mem_singleton.mpr ⟨_, rfl⟩) hparcel rfl
    (by decide)).mp hround _ List.mem_cons_self
  have hlength : (List.replicate 5000 (0x61 : UInt8)).length ≤ 4096 := hshort.1
  rw [List.length_replicate] at hlength
  omega

end Results

end Android

end Muplar
