import Muplar.Common.Overwrite
/-!
# The Java Parcel store

A parcel is bytes, a size and a position, and a table of binders that the
bytes refer to by index. A write lays its field at the next multiple of
four and moves behind it; a string is a word with its length and then,
where that left off, its characters with a terminator, padded to a
multiple of four. Readers take the same steps and compute them again.

Strings and allocations are the virtual machine's: `Jvm` is what the store
asks of it, and `Jvm.Lawful` what it relies on.
-/

namespace Muplar

namespace Shim

/-- The functions of the virtual machine and the C library that a parcel
uses; `ι` are the strings of Java. An allocation is granted or not. -/
structure Jvm (ι : Type) where
  getStringUTFChars : ι → Bytes
  getStringUTFLength : ι → Int32
  getStringChars : ι → List UInt16
  getStringLength : ι → Int32
  newStringUTF : Bytes → ι
  newString : List UInt16 → ι
  charsGranted : ι → Bool
  realloc : ℕ → Bool
  malloc : ℕ → Bool
  newGlobalRef : ℕ → Bool

/-- What is documented of them: the lengths are those of the characters,
modified UTF-8 has no NUL, a string is made again from its characters, and
there are not more global references than an `int` counts. -/
structure Jvm.Lawful {ι : Type} (J : Jvm ι) : Prop where
  utfLength : ∀ s, (J.getStringUTFLength s).toInt = (J.getStringUTFChars s).length
  length : ∀ s, (J.getStringLength s).toInt = (J.getStringChars s).length
  utf_ne_zero : ∀ s, ∀ b ∈ J.getStringUTFChars s, b ≠ 0
  newStringUTF : ∀ s, J.newStringUTF (J.getStringUTFChars s) = s
  newString : ∀ s, J.newString (J.getStringChars s) = s
  globalRefs : ∀ n, J.newGlobalRef n = true → n < 2 ^ 31

/-- `muplar_parcel`. `data` is the whole of the buffer, so its length is
the capacity; a binder is null where no global reference was made. -/
structure Parcel (β : Type) where
  data : Bytes := []
  size : ℕ := 0
  pos : ℕ := 0
  binders : List (Option β) := []
  binderCap : ℕ := 0
  deriving DecidableEq

variable {ι β : Type}

/-- `(n + 3) & ~3`. -/
def align4 (n : ℕ) : ℕ :=
  (n + 3) / 4 * 4

/-- The capacity is doubled until it is enough. -/
def doubleUntil (needed cap : ℕ) : ℕ :=
  if cap < needed ∧ 0 < cap then doubleUntil needed (cap * 2) else cap
termination_by needed - cap

namespace Parcel

/-- `muplar_parcel_grow`; `none` where it returns zero. -/
def grow (J : Jvm ι) (p : Parcel β) (needed : ℕ) : Option (Parcel β) :=
  if needed ≤ p.data.length then some p
  else
    let newCap := doubleUntil needed (if p.data.length = 0 then 128 else p.data.length * 2)
    if J.realloc newCap then
      some { p with data := p.data ++ List.replicate (newCap - p.data.length) 0 }
    else none

/-- `nativeSetDataPosition`. -/
def setDataPosition (p : Parcel β) (pos : Int32) : Parcel β :=
  if pos < 0 then p else { p with pos := pos.toInt.toNat }

/-! ## Writing -/

/-- Bytes from `off` on, and the position behind `stop`. -/
def lay (p : Parcel β) (off : ℕ) (bs : Bytes) (stop : ℕ) : Parcel β :=
  { p with data := overwrite p.data off bs, pos := stop, size := max p.size stop }

/-- What `nativeWriteInt` and `nativeWriteLong` have in common: a word at
the next multiple of four. -/
def writeWord (J : Jvm ι) (p : Parcel β) (word : Bytes) : Int32 × Parcel β :=
  let alignedPos := align4 p.pos
  let stop := alignedPos + word.length
  match p.grow J stop with
  | none => (-1, p)
  | some q => (0, q.lay alignedPos word stop)

/-- `nativeWriteInt`. -/
def writeInt (J : Jvm ι) (p : Parcel β) (value : Int32) : Int32 × Parcel β :=
  p.writeWord J (encodeLe 4 value.toUInt32.toNat)

/-- `nativeWriteLong`. -/
def writeLong (J : Jvm ι) (p : Parcel β) (value : Int64) : Int32 × Parcel β :=
  p.writeWord J (encodeLe 8 value.toUInt64.toNat)

/-- `nativeWriteFloat`, of the bits. -/
def writeFloat (J : Jvm ι) (p : Parcel β) (bits : UInt32) : Int32 × Parcel β :=
  p.writeInt J bits.toInt32

/-- `nativeWriteDouble`, of the bits. -/
def writeDouble (J : Jvm ι) (p : Parcel β) (bits : UInt64) : Int32 × Parcel β :=
  p.writeLong J bits.toInt64

/-- The characters of a string and their terminator, from the position on:
what the two string writers do after the length. -/
def writeChars (J : Jvm ι) (p : Parcel β) (chars terminator : Bytes) : Parcel β :=
  let padded := align4 (chars.length + terminator.length)
  let stop := p.pos + padded
  match p.grow J stop with
  | none => p
  | some q => q.lay p.pos (chars ++ terminator) stop

/-- The bytes of UTF-16 units. -/
def unitBytes (units : List UInt16) : Bytes :=
  units.flatMap fun u => encodeLe 2 u.toNat

/-- `nativeWriteString8`. -/
def writeString8 (J : Jvm ι) (p : Parcel β) : Option ι → Parcel β
  | none => (p.writeInt J (-1)).2
  | some s =>
    if J.charsGranted s then
      let len := J.getStringUTFLength s
      (p.writeInt J len).2.writeChars J ((J.getStringUTFChars s).take len.toInt.toNat) [0]
    else (p.writeInt J (-1)).2

/-- `nativeWriteString16`. -/
def writeString16 (J : Jvm ι) (p : Parcel β) : Option ι → Parcel β
  | none => (p.writeInt J (-1)).2
  | some s =>
    if J.charsGranted s then
      let len := J.getStringLength s
      (p.writeInt J len).2.writeChars J
        (unitBytes ((J.getStringChars s).take len.toInt.toNat)) [0, 0]
    else (p.writeInt J (-1)).2

/-- The binder table with room for one more; `none` where it cannot be
made larger. -/
def growBinders (J : Jvm ι) (p : Parcel β) : Option (Parcel β) :=
  if p.binderCap ≤ p.binders.length then
    let newCap := if p.binderCap = 0 then 4 else p.binderCap * 2
    if J.realloc (newCap * 8) then some { p with binderCap := newCap } else none
  else some p

/-- `nativeWriteStrongBinder`. -/
def writeStrongBinder (J : Jvm ι) (p : Parcel β) : Option β → Parcel β
  | none => (p.writeInt J (-1)).2
  | some binder =>
    match p.growBinders J with
    | none => (p.writeInt J (-1)).2
    | some q =>
      let idx := q.binders.length
      let gref := if J.newGlobalRef idx then some binder else none
      ({ q with binders := q.binders ++ [gref] }.writeInt J (Int32.ofNat idx)).2

/-! ## Reading -/

/-- What `nativeReadInt` and `nativeReadLong` have in common; `none` where
too little is left, and the position stays. -/
def readWord (p : Parcel β) (width : ℕ) : Option (Bytes × Parcel β) :=
  let alignedPos := align4 p.pos
  if alignedPos + width > p.size then none
  else some (slice p.data alignedPos width, { p with pos := alignedPos + width })

/-- `nativeReadInt`. -/
def readInt (p : Parcel β) : Int32 × Parcel β :=
  match p.readWord 4 with
  | none => (0, p)
  | some (bytes, q) => ((UInt32.ofNat (le bytes)).toInt32, q)

/-- `nativeReadLong`. -/
def readLong (p : Parcel β) : Int64 × Parcel β :=
  match p.readWord 8 with
  | none => (0, p)
  | some (bytes, q) => ((UInt64.ofNat (le bytes)).toInt64, q)

/-- `nativeReadFloat`, as bits. -/
def readFloat (p : Parcel β) : UInt32 × Parcel β :=
  (p.readInt.1.toUInt32, p.readInt.2)

/-- `nativeReadDouble`, as bits. -/
def readDouble (p : Parcel β) : UInt64 × Parcel β :=
  (p.readLong.1.toUInt64, p.readLong.2)

/-- The position moves on, but not behind the size. -/
def skip (p : Parcel β) (count : ℕ) : Parcel β :=
  { p with pos := if p.pos + count ≤ p.size then p.pos + count else p.size }

/-- `nativeReadString8`; a C string ends at its first NUL. -/
def readString8 (J : Jvm ι) (p : Parcel β) : Option ι × Parcel β :=
  let (len, q) := p.readInt
  if len < 0 then (none, q)
  else if len = 0 then (some (J.newStringUTF []), q.skip 4)
  else
    let count := len.toInt.toNat
    if q.pos + count > q.size then (none, q)
    else if J.malloc (count + 1) then
      (some (J.newStringUTF ((slice q.data q.pos count).takeWhile (· ≠ 0))),
        q.skip (align4 (count + 1)))
    else (none, q)

/-- The UTF-16 units in bytes. -/
def bytesUnits : Bytes → List UInt16
  | b₀ :: b₁ :: bs => UInt16.ofNat (le [b₀, b₁]) :: bytesUnits bs
  | _ => []

/-- `nativeReadString16`. -/
def readString16 (J : Jvm ι) (p : Parcel β) : Option ι × Parcel β :=
  let (len, q) := p.readInt
  if len < 0 then (none, q)
  else if len = 0 then (some (J.newString []), q.skip 4)
  else
    let count := len.toInt.toNat
    if q.pos + count * 2 > q.size then (none, q)
    else
      (some (J.newString (bytesUnits (slice q.data q.pos (count * 2)))),
        q.skip (align4 ((count + 1) * 2)))

/-- `nativeReadStrongBinder`. -/
def readStrongBinder (p : Parcel β) : Option β × Parcel β :=
  let (idx, q) := p.readInt
  (if idx < 0 then none else (q.binders[idx.toInt.toNat]?).join, q)

/-- `nativeEnforceInterface`, which compares nothing. -/
def enforceInterface (J : Jvm ι) (p : Parcel β) : Parcel β :=
  (p.readInt.2.readString16 J).2

end Parcel

/-! ## Sequences of calls -/

/-- A value with the call that writes it; floats and doubles as bits. -/
inductive Value (ι β : Type)
  | int (value : Int32)
  | long (value : Int64)
  | float (bits : UInt32)
  | double (bits : UInt64)
  | string8 (value : Option ι)
  | string16 (value : Option ι)
  | strongBinder (value : Option β)
  deriving DecidableEq

/-- The call that reads a value. -/
inductive Kind
  | int
  | long
  | float
  | double
  | string8
  | string16
  | strongBinder

def Value.kind : Value ι β → Kind
  | .int _ => .int
  | .long _ => .long
  | .float _ => .float
  | .double _ => .double
  | .string8 _ => .string8
  | .string16 _ => .string16
  | .strongBinder _ => .strongBinder

namespace Parcel

def write (J : Jvm ι) (p : Parcel β) : Value ι β → Parcel β
  | .int value => (p.writeInt J value).2
  | .long value => (p.writeLong J value).2
  | .float bits => (p.writeFloat J bits).2
  | .double bits => (p.writeDouble J bits).2
  | .string8 value => p.writeString8 J value
  | .string16 value => p.writeString16 J value
  | .strongBinder value => p.writeStrongBinder J value

def read (J : Jvm ι) (p : Parcel β) : Kind → Value ι β × Parcel β
  | .int => (.int p.readInt.1, p.readInt.2)
  | .long => (.long p.readLong.1, p.readLong.2)
  | .float => (.float p.readFloat.1, p.readFloat.2)
  | .double => (.double p.readDouble.1, p.readDouble.2)
  | .string8 => (.string8 (p.readString8 J).1, (p.readString8 J).2)
  | .string16 => (.string16 (p.readString16 J).1, (p.readString16 J).2)
  | .strongBinder => (.strongBinder p.readStrongBinder.1, p.readStrongBinder.2)

/-- One read after the other. -/
def readAll (J : Jvm ι) (p : Parcel β) : List Kind → List (Value ι β) × Parcel β
  | [] => ([], p)
  | k :: ks =>
    let (value, q) := p.read J k
    let (values, r) := q.readAll J ks
    (value :: values, r)

end Parcel

/-- The calls of a sequence. -/
inductive WriteCall (ι β : Type)
  | value (value : Value ι β)
  | interfaceToken (token : Option ι)

/-- What a call writes, value by value: `nativeWriteInterfaceToken` writes
a zero and then the token. -/
def WriteCall.values : WriteCall ι β → List (Value ι β)
  | .value v => [v]
  | .interfaceToken token => [.int 0, .string16 token]

def Parcel.call (J : Jvm ι) (p : Parcel β) : WriteCall ι β → Parcel β
  | .value v => p.write J v
  | .interfaceToken token => (p.writeInt J 0).2.writeString16 J token

end Shim

end Muplar
