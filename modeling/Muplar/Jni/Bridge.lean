import Muplar.Common.Memory
import Muplar.Jni.Env
/-!
# JNI — the bridge

`JniBridge::handle_hvc` runs a call of the guest. It reads the C strings
that the call is given into the environment's table of strings, lets the
environment do the call, and then copies between the environment and the
guest's memory: the environment itself has no access to it.

The guest reads a string or the elements of an array in a copy. The
copies are made in two scratch areas beside the stubs. Each is filled
from its start, and when it is full it is filled from its start again.
-/

namespace Muplar

namespace Jni

/-- The functions of `core/guest.h` that the bridge calls, and whether
the host has memory for so many bytes. `guestReadStr` is the text in the
buffer before its terminator. -/
structure Host where
  guestReadStr : Memory → UInt64 → ℕ → Bytes
  guestRead : Memory → UInt64 → ℕ → Option Bytes
  guestWrite : Memory → UInt64 → Bytes → Memory
  allocates : ℕ → Bool

/-- **What the functions are documented to do.** At a string,
`guest_read_str` copies up to `size - 1` bytes of it and terminates them;
where memory is mapped it is read and written, and a write changes no
byte that it is not for. -/
structure Host.Documented (host : Host) : Prop where
  readStr : ∀ m p text size, m.Addresses p text → 0 < size →
    host.guestReadStr m p size = text.take (size - 1)
  read : ∀ m p n, m.Mapped p.toNat n → host.guestRead m p n = some (m.bytes p.toNat n)
  write : ∀ m p bs, m.Mapped p.toNat bs.length → host.guestWrite m p bs = m.overwrite p.toNat bs
  frame : ∀ m p bs a, a < p.toNat ∨ p.toNat + bs.length ≤ a →
    (host.guestWrite m p bs).byte a = m.byte a

/-- A host that does what is documented, and refuses to read where memory
is not mapped. -/
def plainHost : Host where
  guestReadStr m p size := ((m.textAt p).getD []).take (size - 1)
  guestRead m p n :=
    if (List.range n).all fun i => (m.byte (p.toNat + i)).isSome then some (m.bytes p.toNat n)
    else none
  guestWrite m p bs := m.overwrite p.toNat bs
  allocates n := n < 2 ^ 63

theorem plainHost_documented : plainHost.Documented where
  readStr m p text size h _ := by
    show ((m.textAt p).getD []).take (size - 1) = _
    rw [Memory.textAt_eq_some_iff.mpr h]
    rfl
  read m p n h := by
    refine if_pos (List.all_eq_true.mpr fun i hi => ?_)
    exact h i (List.mem_range.mp hi)
  write _ _ _ _ := rfl
  frame _ _ _ _ h := Memory.byte_overwrite_of_outside h

structure JniBridge where
  env : JniEnv
  elfLoadMin : UInt64
  stubBaseGpa : UInt64
  stringCharsBump : ℕ := 0
  arrayElementsBump : ℕ := 0

def JniBridge.stringCharsBaseGpa (b : JniBridge) : UInt64 :=
  b.stubBaseGpa + 0x800

def JniBridge.arrayElementsBaseGpa (b : JniBridge) : UInt64 :=
  b.stubBaseGpa + 0xD000

def jniAbort : UInt64 := 2

/-- What `handle_hvc` returns, and what it leaves. -/
structure Answer where
  value : UInt64
  bridge : JniBridge
  memory : Memory

/-! ## Elements in memory -/

/-- `data()` of an array. -/
def encodeElems {k : ArrayKind} (values : List (Elem k)) : Bytes :=
  values.flatMap fun x => encodeLe k.size x.toNat

/-- So many elements from memory. -/
def decodeElems (k : ArrayKind) (n : ℕ) (bs : Bytes) : List (Elem k) :=
  (List.range n).map fun i => BitVec.ofNat _ (le (slice bs (i * k.size) k.size))

section Calls

variable (host : Host) (b : JniBridge) (m : Memory) (a : Registers)

/-! ## Before the call -/

def readStr (gpa : UInt64) : Bytes :=
  host.guestReadStr m gpa 512

def internCharArg (env : JniEnv) (gpa : UInt64) : JniEnv :=
  if gpa = 0 then env else env.internString gpa (readStr host m gpa)

/-- The arguments that are pointers to C strings. -/
def charArgs : JniCall → List UInt64
  | .findClass => [a 1]
  | .getMethodId => [a 2, a 3]
  | .getFieldId => [a 2, a 3]
  | .newStringUtf => [a 1]
  | _ => []

def internCharArgs (call : JniCall) : JniEnv :=
  (charArgs a call).foldl (internCharArg host m) b.env

/-! ## After the call -/

/-- `*is_copy` is written where the guest gave an address for it. -/
def writeIsCopy (isCopy : UInt8) : Memory :=
  if a 2 = 0 then m else host.guestWrite m (a 2) [isCopy]

def stringScratchSize : ℕ := 0x700

/-- A copy is cut to what the area has room for. -/
def materializeStringChars (stringHandle : UInt64) : Answer :=
  match b.env.strings.lookup stringHandle with
  | none => ⟨0, b, m⟩
  | some value =>
    let len := min (value.length + 1) stringScratchSize
    let bump := if stringScratchSize < b.stringCharsBump + len then 0 else b.stringCharsBump
    let gpa := b.stringCharsBaseGpa + UInt64.ofNat bump
    { value := gpa
      bridge := { b with stringCharsBump := bump + (len + 7) / 8 * 8 }
      memory := host.guestWrite m gpa (value.take (len - 1) ++ [0]) }

def arrayScratchSize : ℕ := 0x10000

def writeScratchBytes (data : Bytes) : Answer :=
  let bytes := (max data.length 1 + 15) / 16 * 16
  if arrayScratchSize < bytes then ⟨0, b, m⟩
  else
    let bump := if arrayScratchSize < b.arrayElementsBump + bytes then 0 else b.arrayElementsBump
    let gpa := b.arrayElementsBaseGpa + UInt64.ofNat bump
    { value := gpa
      bridge := { b with arrayElementsBump := bump + bytes }
      memory := if data.isEmpty then m else host.guestWrite m gpa data }

def materializeArray (k : ArrayKind) (arrayHandle : UInt64) : Answer :=
  match (b.env.arrays k).lookup arrayHandle with
  | none => ⟨0, b, m⟩
  | some value => writeScratchBytes host b m (encodeElems value)

def rebaseIfNeeded (gpa : UInt64) : UInt64 :=
  if gpa = 0 ∨ b.elfLoadMin = 0 then gpa
  else if gpa < b.elfLoadMin then b.elfLoadMin + gpa else gpa

/-- A pointer of the guest, left 0 where it cannot be read. -/
def readPointer (gpa : UInt64) : UInt64 :=
  match host.guestRead m gpa 8 with
  | none => 0
  | some bs => UInt64.ofNat (le bs)

/-- The table of the guest, of entries of 24 bytes. -/
def registerNativesFromGuest (classHandle arrayGpa count : UInt64) : JniEnv :=
  (List.range count.toNat).foldl
    (fun env i =>
      let entryGpa := arrayGpa + UInt64.ofNat i * 24
      let pointer (offset : UInt64) := rebaseIfNeeded b (readPointer host m (entryGpa + offset))
      env.registerNative classHandle (readStr host m (pointer 0)) (readStr host m (pointer 8))
        (pointer 16))
    b.env

/-- The elements the guest has in a buffer, into the array. -/
def copyIn (k : ArrayKind) (start len gpa : UInt64) : Except Fault JniEnv :=
  if host.allocates (len.toNat * k.size) then
    match host.guestRead m gpa (len.toNat * k.size) with
    | none => .ok b.env
    | some bs => b.env.setArrayRegion k (a 1) start (decodeElems k len.toNat bs)
  else .error .uncaught

def setByteArrayRegion : Except Fault JniEnv :=
  if 0 < a 3 ∧ a 4 ≠ 0 then copyIn host b m a .byte (a 2) (a 3) (a 4) else .ok b.env

/-- Of the other kinds a region is copied only where the check found
nothing wrong, and a vector of no elements is made before it is left. -/
def setRegion (k : ArrayKind) (ret : UInt64) : Except Fault JniEnv :=
  if ret = 0 ∧ a 4 ≠ 0 ∧ a 3 ≠ 0 then copyIn host b m a k (a 2) (a 3) (a 4) else .ok b.env

/-- The size of what is copied back is that of the array. -/
def releaseArrayElements (k : ArrayKind) : Except Fault JniEnv :=
  if a 2 = 0 ∨ a 3 = jniAbort then .ok b.env
  else
    match (b.env.arrays k).lookup (a 1) with
    | none => .ok b.env
    | some current =>
      if current.isEmpty then .ok b.env
      else copyIn host b m a k 0 (UInt64.ofNat current.length) (a 2)

/-- `guest_write` reads as many bytes of the array as it is told to. -/
def getArrayRegion (k : ArrayKind) (ret : UInt64) : Except Fault Memory :=
  if ret = 0 ∧ a 4 ≠ 0 then
    match (b.env.arrays k).lookup (a 1) with
    | none => .ok m
    | some current =>
      if current.length < (a 2 + a 3).toNat then .ok m
      else if current.length < (a 2).toNat + (a 3).toNat then .error .outOfBounds
      else .ok (host.guestWrite m (a 4)
        (encodeElems ((current.drop (a 2).toNat).take (a 3).toNat)))
  else .ok m

/-! ## The call -/

/-- The part of `handle_hvc` after the dispatch. -/
def afterCall (call : JniCall) (ret : UInt64) : Except Fault Answer :=
  let keep (env : Except Fault JniEnv) : Except Fault Answer :=
    env.map fun env => ⟨ret, { b with env }, m⟩
  let elements (k : ArrayKind) : Except Fault Answer :=
    .ok (materializeArray host b (writeIsCopy host m a 1) k ret)
  let region (k : ArrayKind) : Except Fault Answer :=
    (getArrayRegion host b m a k ret).map fun m => ⟨ret, b, m⟩
  match call with
  | .getStringUtfChars => .ok (materializeStringChars host b (writeIsCopy host m a 0) ret)
  | .getByteArrayElements => elements .byte
  | .getIntArrayElements => elements .int
  | .getLongArrayElements => elements .long
  | .getFloatArrayElements => elements .float
  | .registerNatives => keep (.ok (registerNativesFromGuest host b m (a 1) (a 2) (a 3)))
  | .setByteArrayRegion => keep (setByteArrayRegion host b m a)
  | .releaseByteArrayElements => keep (releaseArrayElements host b m a .byte)
  | .releaseIntArrayElements => keep (releaseArrayElements host b m a .int)
  | .releaseLongArrayElements => keep (releaseArrayElements host b m a .long)
  | .releaseFloatArrayElements => keep (releaseArrayElements host b m a .float)
  | .getIntArrayRegion => region .int
  | .getLongArrayRegion => region .long
  | .getFloatArrayRegion => region .float
  | .setIntArrayRegion => keep (setRegion host b m a .int ret)
  | .setLongArrayRegion => keep (setRegion host b m a .long ret)
  | .setFloatArrayRegion => keep (setRegion host b m a .float ret)
  | _ => .ok ⟨ret, b, m⟩

/-- `JniBridge::handle_hvc`. A number that there is no call for gives -1. -/
def handleHvc (callNr : UInt32) : Except Fault Answer :=
  match JniCall.ofNumber callNr with
  | none => .ok ⟨-1, b, m⟩
  | some call => do
    let (ret, env) ← (internCharArgs host b m a call).dispatch host.allocates a call
    afterCall host { b with env } m a call ret

end Calls

end Jni

end Muplar
