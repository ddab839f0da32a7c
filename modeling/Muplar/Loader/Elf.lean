import Muplar.Common.Bytes
import Muplar.Common.Word
/-!
# The direct `.so` loader — reading a file

What `guest_runner.cpp` takes from a shared object before it maps it: the
program headers, the range of addresses they span, and the dynamic
table. Nothing here is trusted; every field is whatever the file says.
-/

namespace Muplar

namespace Loader

/-! ## The file -/

/-- `read_at`: the bytes that were read, and whether they are all that
was asked for. An offset that is negative as a `long` cannot be sought,
and past the end there is nothing to read. -/
def readAt (file : Bytes) (off : UInt64) (len : ℕ) : Bytes × Bool :=
  if 2 ^ 63 ≤ off.toNat then ([], false)
  else
    let bytes := slice file off.toNat len
    (bytes, bytes.length = len)

/-- A field of a structure that was read as bytes. -/
def field (bytes : Bytes) (off width : ℕ) : ℕ :=
  le (slice bytes off width)

def u64Field (bytes : Bytes) (off : ℕ) : UInt64 :=
  UInt64.ofNat (field bytes off 8)

/-- `Elf64_Ehdr`, as far as it is looked at. -/
structure Ehdr where
  ident : Bytes
  machine : ℕ
  phoff : UInt64
  phnum : ℕ
  deriving DecidableEq

def ehdrSize : ℕ := 64

def Ehdr.decode (bytes : Bytes) : Ehdr where
  ident := slice bytes 0 16
  machine := field bytes 18 2
  phoff := u64Field bytes 32
  phnum := field bytes 56 2

/-- `Elf64_Phdr`. -/
structure Phdr where
  type : ℕ
  flags : ℕ
  offset : UInt64
  vaddr : UInt64
  filesz : UInt64
  memsz : UInt64
  deriving DecidableEq

def phdrSize : ℕ := 56

def Phdr.decode (bytes : Bytes) : Phdr where
  type := field bytes 0 4
  flags := field bytes 4 4
  offset := u64Field bytes 8
  vaddr := u64Field bytes 16
  filesz := u64Field bytes 32
  memsz := u64Field bytes 40

def ptLoad : ℕ := 1
def ptDynamic : ℕ := 2
def emAarch64 : ℕ := 183

def elfMagic : Bytes := [0x7f, 0x45, 0x4c, 0x46]

/-- The header is that of a 64-bit AArch64 object. -/
def Ehdr.supported (e : Ehdr) : Bool :=
  slice e.ident 0 4 = elfMagic && slice e.ident 4 1 = [2] && e.machine = emAarch64

/-! ## The dynamic table -/

/-- `DirectSoDyn`. -/
structure DirectSoDyn where
  strtab : UInt64 := 0
  strsz : UInt64 := 0
  symtab : UInt64 := 0
  gnuHash : UInt64 := 0
  rela : UInt64 := 0
  relaSize : UInt64 := 0
  jmprel : UInt64 := 0
  jmprelSize : UInt64 := 0
  relr : UInt64 := 0
  relrSize : UInt64 := 0
  init : UInt64 := 0
  initArray : UInt64 := 0
  initArraySize : UInt64 := 0
  sonameOff : UInt64 := 0
  neededOff : List ℕ := []
  deriving DecidableEq

/-- One entry of the table, by its tag. -/
def DirectSoDyn.note (dyn : DirectSoDyn) (tag : ℕ) (val : UInt64) : DirectSoDyn :=
  match tag with
  | 5 => { dyn with strtab := val }
  | 10 => { dyn with strsz := val }
  | 6 => { dyn with symtab := val }
  | 0x6ffffef5 => { dyn with gnuHash := val }
  | 7 => { dyn with rela := val }
  | 8 => { dyn with relaSize := val }
  | 23 => { dyn with jmprel := val }
  | 2 => { dyn with jmprelSize := val }
  | 12 => { dyn with init := val }
  | 25 => { dyn with initArray := val }
  | 27 => { dyn with initArraySize := val }
  | 0x6fffe000 => { dyn with relr := val }
  | 0x6fffe001 => { dyn with relrSize := val }
  | 14 => { dyn with sonameOff := val }
  | 1 => { dyn with neededOff := dyn.neededOff ++ [val.toNat % 2 ^ 32] }
  | _ => dyn

/-- The loop over the entries: it ends at a short read and at `DT_NULL`. -/
def readDyn (file : Bytes) : (count : ℕ) → (off : UInt64) → DirectSoDyn → DirectSoDyn
  | 0, _, dyn => dyn
  | count + 1, off, dyn =>
    let (bytes, ok) := readAt file off 16
    if !ok then dyn
    else if field bytes 0 8 = 0 then dyn
    else readDyn file count (off + 16) (dyn.note (field bytes 0 8) (u64Field bytes 8))

/-- `vaddr_to_file_offset`. -/
def vaddrToFileOffset (phdrs : List Phdr) (vaddr size : UInt64) : Option UInt64 :=
  phdrs.findSome? fun ph =>
    if ph.type ≠ ptLoad ∨ vaddr < ph.vaddr then none
    else
      let rel := vaddr - ph.vaddr
      if ph.filesz < rel ∨ ph.filesz - rel < size then none else some (ph.offset + rel)

/-- `read_dyn_string`: up to a zero, the end of the string table or the
end of the file. -/
def readDynString (file : Bytes) (phdrs : List Phdr) (dyn : DirectSoDyn) (off : ℕ) : Bytes :=
  if dyn.strtab = 0 ∨ dyn.strsz.toNat ≤ off then []
  else match vaddrToFileOffset phdrs (dyn.strtab + UInt64.ofNat off) 1 with
    | none => []
    | some pos =>
      (readAt file pos (dyn.strsz.toNat - off)).1.takeWhile (· ≠ 0)

/-! ## The object -/

/-- `DirectSoObject`. -/
structure DirectSoObject where
  path : Bytes
  soname : Bytes
  loadBase : UInt64
  loadMin : UInt64
  loadMax : UInt64
  phdrs : List Phdr
  dyn : DirectSoDyn
  deriving DecidableEq

/-- The segments that are loaded. -/
def loads (phdrs : List Phdr) : List Phdr :=
  phdrs.filter fun ph => ph.type = ptLoad

/-- `load_min`: the lowest page a segment starts on. -/
def loadMinOf (phdrs : List Phdr) : UInt64 :=
  (loads phdrs).foldl (fun low ph =>
    let start := alignDownU64 ph.vaddr 0x1000
    if start < low then start else low) (0 - 1)

/-- `load_max`: the highest page end, each end computed with wrap-around. -/
def loadMaxOf (phdrs : List Phdr) : UInt64 :=
  (loads phdrs).foldl (fun high ph =>
    let stop := alignUpU64 (ph.vaddr + ph.memsz) 0x1000
    if high < stop then stop else high) 0

/-- `path_filename`. -/
def pathFilename (path : Bytes) : Bytes :=
  (path.reverse.takeWhile (· ≠ 47)).reverse

/-- `parse_direct_so_metadata`, on the contents of the file at `path`. -/
def parseDirectSoMetadata (path file : Bytes) : Option DirectSoObject :=
  let (ehdrBytes, ok) := readAt file 0 ehdrSize
  let ehdr := Ehdr.decode ehdrBytes
  if !ok || !ehdr.supported then none
  else
    let (table, ok) := readAt file ehdr.phoff (ehdr.phnum * phdrSize)
    if !ok then none
    else
      let phdrs := (List.range ehdr.phnum).map fun i =>
        Phdr.decode (slice table (i * phdrSize) phdrSize)
      if loadMinOf phdrs = 0 - 1 then none
      else
        let dyn := match phdrs.find? fun ph => ph.type = ptDynamic with
          | none => {}
          | some ph => readDyn file (ph.filesz.toNat / 16) ph.offset {}
        let soname :=
          if dyn.sonameOff ≠ 0 then readDynString file phdrs dyn (dyn.sonameOff.toNat % 2 ^ 32)
          else []
        some
          { path, phdrs, dyn
            soname := if soname.isEmpty then pathFilename path else soname
            loadBase := 0
            loadMin := loadMinOf phdrs
            loadMax := loadMaxOf phdrs }

end Loader

end Muplar
