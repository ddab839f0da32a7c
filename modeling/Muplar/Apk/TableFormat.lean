import Muplar.Apk.Resources
import Muplar.Common.JavaText
/-!
# APK — the format of resource tables

A resource table maps resources to values: a package and a type, and in
each configuration of the type the entries that it defines. `Encodes`
says that a file holds a table: a pool of strings, then chunks for the
packages, and in a package's chunk one for each configuration of a type,
with an index of its entries. Chunks of other kinds may stand between
them.

The index of a type chunk has one of three encodings. Two of them are
what `resolve_resource_string` reads, the third has offsets of sixteen
bits and is not known to it.
-/

namespace Muplar

namespace Apk

/-! ## Tables -/

/-- A string of the pool, which is encoded as UTF-8 or UTF-16 as a whole. -/
inductive PoolText
  | utf8 (bytes : Bytes)
  | utf16 (units : JavaString)
  deriving DecidableEq

/-- The string as UTF-8. -/
def PoolText.value : PoolText → Bytes
  | .utf8 bytes => bytes
  | .utf16 units => units.getBytes

/-- What `utf16_length_string` makes of a unit. -/
def renderUnit (u : UInt16) : UInt8 :=
  if u < 0x80 then UInt8.ofNat u.toNat else 63

/-- The string as the pool decoders return it. -/
def PoolText.rendered : PoolText → Bytes
  | .utf8 bytes => bytes
  | .utf16 units => units.map renderUnit

/-- Nothing is lost when the string is rendered. -/
def PoolText.Exact : PoolText → Prop
  | .utf8 _ => True
  | .utf16 units => ∀ u ∈ units, u < 0x80

/-- An entry's value: a string, a value of another type, such as a
reference, or a bag of values. -/
inductive EntryValue
  | text (t : PoolText)
  | other
  | bag
  deriving DecidableEq

/-- One configuration of a type, with the entries that it defines. -/
structure ResourceType where
  id : ℕ
  entry : ℕ → Option EntryValue

structure ResourcePackage where
  id : ℕ
  types : List ResourceType

abbrev ResourceTable := List ResourcePackage

/-- Some configuration defines the resource as this string. -/
def ResourceTable.Defines (T : ResourceTable) (resourceId : ℕ) (t : PoolText) : Prop :=
  ∃ p ∈ T, p.id = resourceId / 2 ^ 24 ∧
    ∃ c ∈ p.types, c.id = resourceId / 2 ^ 16 % 2 ^ 8 ∧
      c.entry (resourceId % 2 ^ 16) = some (.text t)

/-! ## Strings in a file -/

/-- The bytes stand in the file at an offset. -/
def Occurs (data : Bytes) (off : ℕ) (bytes : Bytes) : Prop :=
  slice data off bytes.length = bytes

instance (data : Bytes) (off : ℕ) (bytes : Bytes) : Decidable (Occurs data off bytes) :=
  inferInstanceAs (Decidable (_ = _))

/-- A length of a UTF-16 string. -/
def encodeLen16 (n : ℕ) : Bytes :=
  if n < 0x8000 then encodeLe 2 n else encodeLe 2 (0x8000 + n / 65536) ++ encodeLe 2 (n % 65536)

/-- The string stands at an offset, in the encoding of its pool. A UTF-8
string has its length in characters in front of its length in bytes. -/
def TextAt (data : Bytes) (utf8 : Bool) (pos : ℕ) : PoolText → Prop
  | .utf8 bytes => utf8 = true ∧ bytes.length < 2 ^ 15 ∧
      ∃ chars < 2 ^ 15, Occurs data pos (encodeLen8 chars ++ encodeLen8 bytes.length ++ bytes)
  | .utf16 units => utf8 = false ∧ units.length < 2 ^ 31 ∧
      Occurs data pos (encodeLen16 units.length ++ units.flatMap fun u => encodeLe 2 u.toNat)

/-- The pool at `off` has these strings. -/
structure PoolHolds (data : Bytes) (off : ℕ) (strings : List PoolText) : Prop where
  pool : PoolAt data off
  count : stringCount data off = strings.length
  text : ∀ i (h : i < strings.length), InRange data off i ∧
    TextAt data (isUtf8 (u32 data (off + 16))) (off + entryOffset data off i) (strings.get ⟨i, h⟩)

/-! ## Chunks in a file -/

def headerSize (data : Bytes) (off : ℕ) : ℕ := u16 data (off + 2)

def chunkSize (data : Bytes) (off : ℕ) : ℕ := u32 data (off + 4)

/-- A chunk that ends before `stop`, as its header states it. -/
structure ChunkAt (data : Bytes) (stop off : ℕ) : Prop where
  header : 8 ≤ headerSize data off
  body : headerSize data off ≤ chunkSize data off
  inside : off + chunkSize data off ≤ stop

/-- **Chunks without a gap** from an offset up to `stop`: those of the
list, in its order, and others between them. -/
inductive Tiles {α : Type} (data : Bytes) (IsItem : ℕ → α → Prop) (IsOther : ℕ → Prop)
    (stop : ℕ) : ℕ → List α → Prop
  | done : Tiles data IsItem IsOther stop stop []
  | other {off : ℕ} {items : List α} : ChunkAt data stop off → IsOther off →
      Tiles data IsItem IsOther stop (off + chunkSize data off) items →
      Tiles data IsItem IsOther stop off items
  | item {off : ℕ} {a : α} {items : List α} : ChunkAt data stop off → IsItem off a →
      Tiles data IsItem IsOther stop (off + chunkSize data off) items →
      Tiles data IsItem IsOther stop off (a :: items)

/-! ## Entries in a type chunk -/

/-- How a type chunk states where its entries are. -/
inductive IndexEncoding
  | dense
  | offset16
  | sparse
  deriving DecidableEq

/-- The flags of a type chunk: the first bit is for a sparse index, the
second for offsets of sixteen bits. -/
def IndexEncoding.Flagged : IndexEncoding → ℕ → Prop
  | .dense, flags => flags % 4 = 0
  | .offset16, flags => flags % 4 = 2
  | .sparse, flags => flags % 2 = 1

/-- The size of one item of the index. -/
def IndexEncoding.width : IndexEncoding → ℕ
  | .dense => 4
  | .offset16 => 2
  | .sparse => 4

/-- **Where an entry is**, from the start of the entries of the type chunk
at `child`. An offset of sixteen bits counts words; a sparse index lists
the entries there are, each with its number. -/
def IndexEncoding.offset (data : Bytes) (child e : ℕ) : IndexEncoding → Option ℕ
  | .dense =>
    let o := u32 data (child + headerSize data child + e * 4)
    if e < u32 data (child + 12) ∧ o ≠ noEntry then some o else none
  | .offset16 =>
    let o := u16 data (child + headerSize data child + e * 2)
    if e < u32 data (child + 12) ∧ o ≠ 0xffff then some (o * 4) else none
  | .sparse =>
    let slot := fun i => child + headerSize data child + i * 4
    ((List.range (u32 data (child + 12))).find? fun i => u16 data (slot i) = e).map fun i =>
      u16 data (slot i + 2) * 4

/-- The entry at an offset has this value. A plain entry is followed by
its value, a bag by others; the third flag bit is for compact entries,
which are another format. -/
def EntryAt (data : Bytes) (strings : List PoolText) (limit entry : ℕ) (v : EntryValue) : Prop :=
  let value := entry + u16 data entry
  entry + 8 ≤ limit ∧ match v with
    | .bag => u16 data (entry + 2) % 2 = 1
    | .other => u16 data (entry + 2) % 2 = 0 ∧ u16 data (entry + 2) / 8 % 2 = 0 ∧
        value + 8 ≤ limit ∧ byteAt data (value + 3) ≠ typeString
    | .text t => u16 data (entry + 2) % 2 = 0 ∧ u16 data (entry + 2) / 8 % 2 = 0 ∧
        value + 8 ≤ limit ∧ byteAt data (value + 3) = typeString ∧
        strings[u32 data (value + 4)]? = some t

/-- The type chunk at `child` is a configuration of a type. -/
structure TypeAt (data : Bytes) (strings : List PoolText) (allowed : IndexEncoding → Prop)
    (child : ℕ) (c : ResourceType) : Prop where
  type : u16 data child = resTableTypeType
  header : 20 ≤ headerSize data child
  id : byteAt data (child + 8) = c.id
  entries : ∃ encoding, allowed encoding ∧ encoding.Flagged (byteAt data (child + 9)) ∧
    headerSize data child + u32 data (child + 12) * encoding.width ≤ chunkSize data child ∧
    ∀ e, (encoding.offset data child e = none ∧ c.entry e = none) ∨
      ∃ o v, encoding.offset data child e = some o ∧ c.entry e = some v ∧
        EntryAt data strings (child + chunkSize data child) (child + u32 data (child + 16) + o) v

/-- The chunk at `off` is a package. -/
structure PackageAt (data : Bytes) (strings : List PoolText) (allowed : IndexEncoding → Prop)
    (off : ℕ) (p : ResourcePackage) : Prop where
  type : u16 data off = resTablePackageType
  header : 284 ≤ headerSize data off
  id : u32 data (off + 8) = p.id
  types : Tiles data (TypeAt data strings allowed) (fun child => u16 data child ≠ resTableTypeType)
    (off + chunkSize data off) (off + headerSize data off) p.types

/-- **The file holds the table**, with indices in encodings that are
allowed: the header, the pool of strings, and the packages. -/
structure EncodesWith (data : Bytes) (allowed : IndexEncoding → Prop) (strings : List PoolText)
    (T : ResourceTable) : Prop where
  type : u16 data 0 = resTableType
  header : 12 ≤ headerSize data 0
  body : headerSize data 0 ≤ chunkSize data 0
  room : chunkSize data 0 ≤ data.length
  pool : ChunkAt data (chunkSize data 0) (headerSize data 0)
  texts : PoolHolds data (headerSize data 0) strings
  packages : Tiles data (PackageAt data strings allowed)
    (fun off => u16 data off ≠ resStringPoolType ∧ u16 data off ≠ resTablePackageType)
    (chunkSize data 0) (headerSize data 0 + chunkSize data (headerSize data 0)) T

def Encodes (data : Bytes) (allowed : IndexEncoding → Prop) (T : ResourceTable) : Prop :=
  ∃ strings, EncodesWith data allowed strings T

end Apk

end Muplar
