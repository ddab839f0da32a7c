import Muplar.Apk.StringPool
/-!
# APK — zip archives

`read_zip_entries` and `extract_entry_data`, and the archives they are
meant to read: local headers with their data, a central directory, and
an end record with a comment.

The end record is looked for from the end of the file backwards, by its
signature alone. The comment may hold these four bytes too, and the
length the record states for its comment is not compared with what
follows: the last signature wins.
-/

namespace Muplar

namespace Apk

/-! ## Reading -/

/-- `ZipEntry`. -/
structure ZipEntry where
  name : Bytes
  flags : ℕ
  method : ℕ
  compressedSize : ℕ
  uncompressedSize : ℕ
  localHeaderOffset : ℕ
  deriving DecidableEq

def eocdSig : ℕ := 0x06054b50
def cenSig : ℕ := 0x02014b50
def locSig : ℕ := 0x04034b50

def eocdMinSize : ℕ := 22
def eocdMaxComment : ℕ := 65535

/-- The scan for the end record, downwards from below `off` and not below
`searchStart`. -/
def findEocd (apk : Bytes) (searchStart : ℕ) : (off : ℕ) → Except String (Option ℕ)
  | 0 => return none
  | off + 1 => do
    if searchStart < off + 1 then
      if (← readU32 apk off) = eocdSig then return some off
      else findEocd apk searchStart off
    else return none

/-- The central directory, with `n` entries left from `off` on. -/
def centralEntries (apk : Bytes) : (n off : ℕ) → Except String (List ZipEntry)
  | 0, _ => return []
  | n + 1, off => do
    if apk.length < off + 46 then throw "APK central directory entry is invalid"
    else if (← readU32 apk off) ≠ cenSig then throw "APK central directory entry is invalid"
    else
      let nameLen ← readU16 apk (off + 28)
      let extraLen ← readU16 apk (off + 30)
      let commentLen ← readU16 apk (off + 32)
      if apk.length < off + 46 + nameLen + extraLen + commentLen then
        throw "APK central directory entry is truncated"
      else
        let entry : ZipEntry :=
          { flags := ← readU16 apk (off + 8)
            method := ← readU16 apk (off + 10)
            compressedSize := ← readU32 apk (off + 20)
            uncompressedSize := ← readU32 apk (off + 24)
            localHeaderOffset := ← readU32 apk (off + 42)
            name := slice apk (off + 46) nameLen }
        let rest ← centralEntries apk n (off + 46 + nameLen + extraLen + commentLen)
        return entry :: rest

/-- `read_zip_entries`. -/
def readZipEntries (apk : Bytes) : Except String (List ZipEntry) := do
  if apk.length < eocdMinSize then throw "APK is too small to be a zip file"
  else
    let searchStart :=
      if eocdMinSize + eocdMaxComment < apk.length then apk.length - (eocdMinSize + eocdMaxComment)
      else 0
    match ← findEocd apk searchStart (apk.length - eocdMinSize + 1) with
    | none => throw "APK zip end-of-central-directory not found"
    | some eocd =>
      let entryCount ← readU16 apk (eocd + 10)
      let centralSize ← readU32 apk (eocd + 12)
      let centralOff ← readU32 apk (eocd + 16)
      if centralOff = 0xffffffff ∨ centralSize = 0xffffffff then
        throw "ZIP64 APKs are not supported yet"
      else if apk.length < centralOff + centralSize then
        throw "APK central directory is out of bounds"
      else centralEntries apk entryCount centralOff

/-- The bytes of a name, as text for a message. -/
def text (name : Bytes) : String :=
  String.ofList (name.map fun b => Char.ofNat b.toNat)

/-- `extract_entry_data`. `inflate` is zlib's: the bytes a raw deflate
stream expands to, if it ends and has the size the entry states. -/
def extractEntryData (inflate : Bytes → ℕ → Option Bytes) (apk : Bytes) (entry : ZipEntry) :
    Except String Bytes := do
  let off := entry.localHeaderOffset
  if apk.length < off + 30 then
    throw ("APK local zip header is invalid for " ++ text entry.name)
  else if (← readU32 apk off) ≠ locSig then
    throw ("APK local zip header is invalid for " ++ text entry.name)
  else
    let nameLen ← readU16 apk (off + 26)
    let extraLen ← readU16 apk (off + 28)
    let dataOff := off + 30 + nameLen + extraLen
    if apk.length < dataOff + entry.compressedSize then
      throw ("APK entry data is truncated for " ++ text entry.name)
    else if entry.method = 0 then return slice apk dataOff entry.compressedSize
    else if entry.method ≠ 8 then
      throw ("unsupported APK zip compression method " ++ toString entry.method ++ " for " ++
        text entry.name)
    else match inflate (slice apk dataOff entry.compressedSize) entry.uncompressedSize with
      | some out => return out
      | none => throw ("zlib inflate failed for " ++ text entry.name)

/-! ## Writing -/

/-- A stored member of an archive. The central directory and the local
header name it independently; what neither function reads is whatever the
writer puts there: versions, time and checksum, attributes, the other
fields of the local header, and what follows the data. -/
structure Member where
  name : Bytes
  extra : Bytes
  comment : Bytes
  localName : Bytes
  localExtra : Bytes
  data : Bytes
  flags : ℕ
  versions : Bytes
  stamp : Bytes
  attributes : Bytes
  localFields : Bytes
  trailer : Bytes
  name_lt : name.length < 2 ^ 16
  extra_lt : extra.length < 2 ^ 16
  comment_lt : comment.length < 2 ^ 16
  localName_lt : localName.length < 2 ^ 16
  localExtra_lt : localExtra.length < 2 ^ 16
  flags_lt : flags < 2 ^ 16
  versions_length : versions.length = 4
  stamp_length : stamp.length = 8
  attributes_length : attributes.length = 8
  localFields_length : localFields.length = 22

/-- The member's local header, its data and what follows. -/
def Member.localRecord (m : Member) : List Bytes :=
  [encodeLe 4 locSig, m.localFields, encodeLe 2 m.localName.length,
   encodeLe 2 m.localExtra.length, m.localName, m.localExtra, m.data, m.trailer]

/-- The member's record in the central directory, when its local header is
at `off`. -/
def Member.centralRecord (m : Member) (off : ℕ) : List Bytes :=
  [encodeLe 4 cenSig, m.versions, encodeLe 2 m.flags, encodeLe 2 0, m.stamp,
   encodeLe 4 m.data.length, encodeLe 4 m.data.length, encodeLe 2 m.name.length,
   encodeLe 2 m.extra.length, encodeLe 2 m.comment.length, m.attributes, encodeLe 4 off,
   m.name, m.extra, m.comment]

/-- The entry a reader should get for the member. -/
def Member.entry (m : Member) (off : ℕ) : ZipEntry where
  name := m.name
  flags := m.flags
  method := 0
  compressedSize := m.data.length
  uncompressedSize := m.data.length
  localHeaderOffset := off

def locals : List Member → Bytes
  | [] => []
  | m :: ms => m.localRecord.flatten ++ locals ms

def directory : (off : ℕ) → List Member → Bytes
  | _, [] => []
  | off, m :: ms =>
    (m.centralRecord off).flatten ++ directory (off + m.localRecord.flatten.length) ms

def entriesFrom : (off : ℕ) → List Member → List ZipEntry
  | _, [] => []
  | off, m :: ms => m.entry off :: entriesFrom (off + m.localRecord.flatten.length) ms

def endRecord (count size off : ℕ) (comment : Bytes) : List Bytes :=
  [encodeLe 4 eocdSig, encodeLe 2 0, encodeLe 2 0, encodeLe 2 count, encodeLe 2 count,
   encodeLe 4 size, encodeLe 4 off, encodeLe 2 comment.length, comment]

def layout (members : List Member) (comment : Bytes) : Bytes :=
  locals members ++ (directory 0 members ++
    (endRecord members.length (directory 0 members).length (locals members).length
      comment).flatten)

/-- An archive of the supported format. -/
structure Archive where
  members : List Member
  comment : Bytes
  few : members.length < 65536
  short : comment.length ≤ 65535
  small : (layout members comment).length < 2 ^ 32 - 1

namespace Archive

def bytes (a : Archive) : Bytes := layout a.members a.comment

/-- The central directory's entries, in order. -/
def entries (a : Archive) : List ZipEntry := entriesFrom 0 a.members

/-- Where the end record is. -/
def endOffset (a : Archive) : ℕ := (locals a.members).length + (directory 0 a.members).length

end Archive

end Apk

end Muplar
