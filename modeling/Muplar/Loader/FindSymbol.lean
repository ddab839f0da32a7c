import Muplar.Loader.Symbols
/-!
# The loader on the host — symbols by section

`JniOnLoad::find_symbol` looks a name up in one library. It goes by the
section headers, which say where the symbol table ends, and takes every
symbol with a name, defined or not.

`same_definition_iff` says when it finds what `lookup_direct_symbol` finds
in the library.
-/

namespace Muplar

namespace Loader

open Linker (Sym)

/-! ## A file that is read from a position -/

/-- `FILE`. -/
structure Stream where
  file : Bytes
  pos : ℕ

/-- `fseek`, which leaves the position where the offset is negative as a
`long`; nobody asks whether it did. -/
def Stream.seek (f : Stream) (off : UInt64) : Stream :=
  if 2 ^ 63 ≤ off.toNat then f else { f with pos := off.toNat }

/-- `fread`: what there is, up to a length. -/
def Stream.read (f : Stream) (len : ℕ) : Bytes × Stream :=
  (slice f.file f.pos len, { f with pos := f.pos + (slice f.file f.pos len).length })

/-! ## Section headers -/

/-- What else is looked at of `Elf64_Ehdr`. -/
structure SectionTable where
  shoff : UInt64
  shentsize : ℕ
  shnum : ℕ

def SectionTable.decode (bytes : Bytes) : SectionTable where
  shoff := u64Field bytes 40
  shentsize := field bytes 58 2
  shnum := field bytes 60 2

/-- `Elf64_Shdr`. -/
structure Shdr where
  type : ℕ
  offset : UInt64
  size : UInt64
  link : ℕ
  deriving DecidableEq

def shdrSize : ℕ := 64

def Shdr.decode (bytes : Bytes) : Shdr where
  type := field bytes 4 4
  offset := u64Field bytes 24
  size := u64Field bytes 32
  link := field bytes 40 4

/-- `SHT_DYNSYM`. -/
def shtDynsym : ℕ := 11

/-- `dynsym_off`, `dynsym_size` and `dynstr_off`. -/
structure Dynsym where
  off : UInt64 := 0
  size : UInt64 := 0
  strOff : UInt64 := 0

/-- The loop over the section headers from index `i` on. -/
def findDynsym (t : SectionTable) : (count i : ℕ) → Stream → Dynsym × Stream
  | 0, _, f => ({}, f)
  | count + 1, i, f =>
    let (bytes, f) := (f.seek (t.shoff + UInt64.ofNat (i * t.shentsize))).read shdrSize
    if bytes.length ≠ shdrSize then ({}, f)
    else
      let shdr := Shdr.decode bytes
      if shdr.type = shtDynsym then
        let (bytes, f) :=
          (f.seek (t.shoff + UInt64.ofNat (shdr.link * t.shentsize % 2 ^ 32))).read shdrSize
        ({ off := shdr.offset, size := shdr.size
           strOff := if bytes.length = shdrSize then (Shdr.decode bytes).offset else 0 }, f)
      else findDynsym t count (i + 1) f

/-! ## Symbols -/

/-- The loop over the symbols from index `i` on. -/
def findInTable (dynstrOff : UInt64) (symbolName : Bytes) :
    (count i : ℕ) → Stream → Option (ℕ × Sym)
  | 0, _, _ => none
  | count + 1, i, f =>
    let (bytes, f) := f.read symSize
    if bytes.length ≠ symSize then none
    else
      let sym := decodeSym bytes
      if sym.name = 0 then findInTable dynstrOff symbolName count (i + 1) f
      else
        let (name, f') :=
          (f.seek (dynstrOff + UInt64.ofNat sym.name)).read (DirectSoObject.bufSize - 1)
        if name.takeWhile (· ≠ 0) = symbolName then some (i, sym)
        else findInTable dynstrOff symbolName count (i + 1) { f' with pos := f.pos }

/-- The symbol that `find_symbol` returns the address of; `files` is what a
path opens. -/
def findDefinition (files : Bytes → Option Bytes) (soPath symbolName : Bytes) : Option (ℕ × Sym) :=
  match files soPath with
  | none => none
  | some file =>
    let (bytes, f) := Stream.read ⟨file, 0⟩ ehdrSize
    if bytes.length ≠ ehdrSize ∨ !(Ehdr.decode bytes).supported then none
    else
      let t := SectionTable.decode bytes
      let (dynsym, f) := findDynsym t t.shnum 0 f
      if dynsym.off = 0 ∨ dynsym.strOff = 0 then none
      else findInTable dynsym.strOff symbolName (dynsym.size.toNat / symSize) 0 (f.seek dynsym.off)

/-- `JniOnLoad::find_symbol`. -/
def findSymbol (files : Bytes → Option Bytes) (soLoadBase : UInt64) (soPath symbolName : Bytes) :
    UInt64 :=
  match findDefinition files soPath symbolName with
  | none => 0
  | some (_, sym) => soLoadBase + sym.value

/-! ## A library with section headers -/

/-- **The section headers agree with the dynamic table**: the first of type
`SHT_DYNSYM` is for the symbol table, and is linked to the one for its
strings. -/
structure HoldsSections (file : Bytes) (table : List Entry) (symOff strOff : UInt64)
    (t : SectionTable) (k : ℕ) (shdr strshdr : Shdr) : Prop where
  header : ehdrSize ≤ file.length
  supported : (Ehdr.decode (slice file 0 ehdrSize)).supported = true
  table_eq : SectionTable.decode (slice file 0 ehdrSize) = t
  room : ∀ i < t.shnum, t.shoff.toNat + i * t.shentsize + shdrSize ≤ file.length
  lt : k < t.shnum
  first : ∀ i < k,
    (Shdr.decode (slice file (t.shoff.toNat + i * t.shentsize) shdrSize)).type ≠ shtDynsym
  shdr_eq : Shdr.decode (slice file (t.shoff.toNat + k * t.shentsize) shdrSize) = shdr
  type : shdr.type = shtDynsym
  offset : shdr.offset = symOff
  offset_ne : symOff ≠ 0
  size : shdr.size.toNat = table.length * symSize
  link : shdr.link < t.shnum
  strshdr_eq : Shdr.decode (slice file (t.shoff.toNat + shdr.link * t.shentsize) shdrSize) = strshdr
  strOffset : strshdr.offset = strOff
  strOffset_ne : strOff ≠ 0

/-- A library: an object that is loaded, with its section headers. -/
structure Library (files : Bytes → Option Bytes) extends Loaded files where
  sections : SectionTable
  index : ℕ
  shdr : Shdr
  strshdr : Shdr
  agrees : HoldsSections file table symOff strOff sections index shdr strshdr

/-- It has a name, which is the name that is asked for as far as 255 bytes
go. -/
def Entry.Named (e : Entry) (name : Bytes) : Prop :=
  e.sym.name ≠ 0 ∧ e.Like name

/-- **Where both find the same.** The first symbol that is named like it is
exported and visible; and what the other accepts is one of those, or
behind one. -/
structure Library.AgreesOn {files : Bytes → Option Bytes} (lib : Library files)
    (name : Bytes) : Prop where
  exported : ∀ j e, lib.table[j]? = some e → e.Named name →
    (∀ k < j, ∀ e', lib.table[k]? = some e' → ¬e'.Named name) → e.Exported ∧ lib.Visible j
  named : ∀ j, lib.Visible j → lib.Accepted name j →
    ∃ k ≤ j, ∃ e, lib.table[k]? = some e ∧ e.Named name

section

variable {files : Bytes → Option Bytes} {file name : Bytes} {table : List Entry}
variable {symOff strOff : UInt64} {t : SectionTable} {k : ℕ} {shdr strshdr : Shdr}

theorem seek_of_lt {f : Stream} {off : UInt64} (h : off.toNat < 2 ^ 63) :
    f.seek off = { f with pos := off.toNat } :=
  if_neg (Nat.not_le.mpr h)

/-- What is read at an offset that is in the file. -/
theorem read_seek {f : Stream} {off : UInt64} {pos len : ℕ} (hf : f.file = file)
    (hpos : off.toNat = pos) (hroom : pos + len ≤ file.length) (hsmall : file.length < 2 ^ 63) :
    (f.seek off).read len = (slice file pos len, ⟨file, pos + len⟩) := by
  rw [seek_of_lt (by omega), Stream.read, hf, hpos, length_slice hroom]

theorem field_lt (bytes : Bytes) (off width : ℕ) : field bytes off width < 256 ^ width := by
  refine Nat.lt_of_lt_of_le (le_lt _) (Nat.pow_le_pow_right (by decide) ?_)
  exact List.length_take_le _ _

/-- Both are fields of 16 bits. -/
theorem HoldsSections.small (h : HoldsSections file table symOff strOff t k shdr strshdr) :
    t.shentsize < 65536 ∧ t.shnum < 65536 := by
  rw [← h.table_eq]
  exact ⟨field_lt _ 58 2, field_lt _ 60 2⟩

/-- The section headers are gone through up to the one that is searched. -/
theorem findDynsym_eq (h : HoldsSections file table symOff strOff t k shdr strshdr)
    (hsmall : file.length < 2 ^ 63) {i : ℕ} (hi : i ≤ k) {f : Stream} (hf : f.file = file) :
    ∃ f', f'.file = file ∧ findDynsym t (t.shnum - i) i f =
      ({ off := symOff, size := shdr.size, strOff := strOff }, f') := by
  have hoff : ∀ j < t.shnum, (t.shoff + UInt64.ofNat (j * t.shentsize)).toNat =
      t.shoff.toNat + j * t.shentsize := fun j hj => by
    have hroom := h.room j hj
    rw [UInt64.toNat_add, UInt64.toNat_ofNat', Nat.mod_eq_of_lt (by omega),
      Nat.mod_eq_of_lt (by omega)]
  have hlt := h.lt
  obtain ⟨n, hn⟩ : ∃ n, t.shnum - i = n + 1 := ⟨t.shnum - i - 1, by omega⟩
  rw [hn, findDynsym, read_seek hf (hoff i (by omega)) (h.room i (by omega)) hsmall]
  dsimp only
  rw [if_neg (not_not.mpr (length_slice (h.room i (by omega))))]
  rcases Nat.eq_or_lt_of_le hi with rfl | hlater
  · -- its strings are where the linked header says
    have hlink := h.link
    have hwrap : UInt64.ofNat (shdr.link * t.shentsize % 2 ^ 32) =
        UInt64.ofNat (shdr.link * t.shentsize) := by
      obtain ⟨hsize, hnum⟩ := h.small
      rw [Nat.mod_eq_of_lt (Nat.lt_of_le_of_lt (Nat.mul_le_mul hlink.le hsize.le) (by omega))]
    rw [h.shdr_eq, if_pos h.type, hwrap, read_seek rfl (hoff _ hlink) (h.room _ hlink) hsmall]
    dsimp only
    rw [if_pos (length_slice (h.room _ hlink)), h.strshdr_eq, h.offset, h.strOffset]
    exact ⟨_, rfl, rfl⟩
  · rw [if_neg (h.first i hlater), show n = t.shnum - (i + 1) by omega]
    exact findDynsym_eq h hsmall hlater rfl
termination_by k - i

variable {o : DirectSoObject} {j : ℕ} {s : Sym}

/-- The symbols are gone through up to the first that is named like it. -/
theorem findInTable_eq_some_iff (h : HoldsTable o file table symOff strOff) {i : ℕ} :
    findInTable strOff name (table.length - i) i ⟨file, symOff.toNat + i * symSize⟩ = some (j, s) ↔
      i ≤ j ∧ (∃ e, table[j]? = some e ∧ e.sym = s ∧ e.Named name) ∧
        ∀ k, i ≤ k → k < j → ∀ e, table[k]? = some e → ¬e.Named name := by
  rcases Nat.lt_or_ge i table.length with hi | hi
  · have he : table[i]? = some table[i] := List.getElem?_eq_getElem hi
    have hmem : table[i] ∈ table := List.getElem_mem hi
    have hinside := h.inside
    have hsmall := h.small
    have hsize : symSize = 24 := rfl
    have hlen : (slice file (symOff.toNat + i * symSize) symSize).length = symSize :=
      length_slice (by rw [hsize] at hinside ⊢; omega)
    have hread : Stream.read ⟨file, symOff.toNat + i * symSize⟩ symSize =
        (slice file (symOff.toNat + i * symSize) symSize,
          ⟨file, symOff.toNat + (i + 1) * symSize⟩) := by
      rw [Stream.read, hlen, Nat.succ_mul, Nat.add_assoc]
    obtain ⟨n, hn⟩ : ∃ n, table.length - i = n + 1 := ⟨table.length - i - 1, by omega⟩
    have hnext : n = table.length - (i + 1) := by omega
    rw [hn, findInTable, hread]
    dsimp only
    rw [if_neg (not_not.mpr hlen), h.entry i _ he]
    -- the search goes on behind a symbol that is not named like it
    have hskip : ¬table[i].Named name →
        (findInTable strOff name n (i + 1) ⟨file, symOff.toNat + (i + 1) * symSize⟩ = some (j, s) ↔
          i ≤ j ∧ (∃ e, table[j]? = some e ∧ e.sym = s ∧ e.Named name) ∧
            ∀ k, i ≤ k → k < j → ∀ e, table[k]? = some e → ¬e.Named name) := by
      intro hnot
      rw [hnext, findInTable_eq_some_iff h]
      constructor
      · rintro ⟨hle, hj, hbefore⟩
        refine ⟨by omega, hj, fun k hk hkj e hek => ?_⟩
        rcases Nat.eq_or_lt_of_le hk with rfl | hlater
        · cases he.symm.trans hek
          exact hnot
        · exact hbefore k hlater hkj e hek
      · rintro ⟨hle, ⟨e, hej, hs, hnamed⟩, hbefore⟩
        have hne : i ≠ j := fun hij => by
          subst hij
          cases he.symm.trans hej
          exact hnot hnamed
        exact ⟨by omega, ⟨e, hej, hs, hnamed⟩, fun k hk => hbefore k (by omega)⟩
    by_cases hzero : table[i].sym.name = 0
    · rw [if_pos hzero, hskip fun hnamed => hnamed.1 hzero]
    rw [if_neg hzero]
    have hslice := h.name _ hmem
    have hoff : (strOff + UInt64.ofNat table[i].sym.name).toNat =
        strOff.toNat + table[i].sym.name := h.toNat_nameOff hmem
    have hlt := h.nameOff_lt hmem
    rw [seek_of_lt (by omega), Stream.read, hoff]
    dsimp only
    rw [takeWhile_slice hslice (h.noNul _ hmem)]
    by_cases hlike : table[i].name.take (DirectSoObject.bufSize - 1) = name
    · rw [if_pos hlike, Option.some.injEq, Prod.mk.injEq]
      constructor
      · rintro ⟨rfl, rfl⟩
        exact ⟨Nat.le_refl _, ⟨_, he, rfl, hzero, hlike⟩, fun k _ _ => by omega⟩
      · rintro ⟨hle, ⟨e, hej, hs, -⟩, hbefore⟩
        rcases Nat.eq_or_lt_of_le hle with rfl | hlater
        · cases he.symm.trans hej
          exact ⟨rfl, hs⟩
        · exact absurd ⟨hzero, hlike⟩ (hbefore i (Nat.le_refl _) hlater _ he)
    · rw [if_neg hlike]
      exact hskip fun hnamed => hlike hnamed.2
  · rw [Nat.sub_eq_zero_of_le hi, findInTable]
    refine ⟨nofun, ?_⟩
    rintro ⟨hle, ⟨e, he, -⟩, -⟩
    have hj := (List.getElem?_eq_some_iff.mp he).1
    omega
termination_by table.length - i

end

/-! ## Both lookups -/

section

variable {files : Bytes → Option Bytes} {lib : Library files} {name : Bytes} {j : ℕ} {s : Sym}

/-- What `find_symbol` finds is the first symbol that is named like it. -/
theorem findDefinition_eq_some_iff : findDefinition files lib.obj.path name = some (j, s) ↔
    (∃ e, lib.table[j]? = some e ∧ e.sym = s ∧ e.Named name) ∧
      ∀ k < j, ∀ e, lib.table[k]? = some e → ¬e.Named name := by
  have ha := lib.agrees
  have hsmall := lib.holds.small
  have hinside := lib.holds.inside
  have hread : Stream.read ⟨lib.file, 0⟩ ehdrSize =
      (slice lib.file 0 ehdrSize, ⟨lib.file, 0 + ehdrSize⟩) := by
    rw [Stream.read, length_slice (by rw [Nat.zero_add]; exact ha.header)]
  have hheader : ¬((slice lib.file 0 ehdrSize).length ≠ ehdrSize ∨
      (!(Ehdr.decode (slice lib.file 0 ehdrSize)).supported) = true) := by
    rw [length_slice (by rw [Nat.zero_add]; exact ha.header), ha.supported]
    simp
  obtain ⟨f, hf, hdynsym⟩ := findDynsym_eq (f := ⟨lib.file, 0 + ehdrSize⟩) ha hsmall
    (Nat.zero_le _) rfl
  rw [Nat.sub_zero] at hdynsym
  have hstart : f.seek lib.symOff = ⟨lib.file, lib.symOff.toNat + 0 * symSize⟩ := by
    rw [seek_of_lt (by omega), hf, Nat.zero_mul, Nat.add_zero]
  have hcount : lib.shdr.size.toNat / symSize = lib.table.length - 0 := by
    rw [ha.size, Nat.mul_div_cancel _ (by decide), Nat.sub_zero]
  rw [findDefinition, lib.opens]
  dsimp only
  rw [hread]
  dsimp only
  rw [if_neg hheader, ha.table_eq, hdynsym]
  dsimp only
  rw [if_neg (fun h => h.elim ha.offset_ne ha.strOffset_ne), hstart, hcount,
    findInTable_eq_some_iff lib.holds]
  simp only [Nat.zero_le, true_and, true_imp_iff]

/-- **Where both find the same symbol.** -/
theorem same_definition_iff (hname : 0 ∉ name) :
    lib.obj.lookup files name = findDefinition files lib.obj.path name ↔ lib.AgreesOn name := by
  constructor
  · intro hsame
    refine ⟨fun j e he hnamed hfirst => ?_, fun j hvisible haccepted => ?_⟩
    · have hfound : findDefinition files lib.obj.path name = some (j, e.sym) :=
        findDefinition_eq_some_iff.mpr ⟨⟨e, he, rfl, hnamed⟩, hfirst⟩
      obtain ⟨-, hvisible, haccepted, -⟩ :=
        Loaded.lookup_eq_some_iff.mp (hsame.trans hfound)
      exact ⟨((Loaded.accepted_iff he hname).mp haccepted).1, hvisible⟩
    · obtain ⟨k, hk, s, hfound⟩ := Loaded.exists_first hvisible haccepted
      obtain ⟨⟨e, he, -, hnamed⟩, -⟩ := findDefinition_eq_some_iff.mp (hsame.symm.trans hfound)
      exact ⟨k, hk, e, he, hnamed⟩
  · rintro ⟨hexported, hnamed⟩
    cases hfound : findDefinition files lib.obj.path name with
    | some found =>
      obtain ⟨j, s⟩ := found
      obtain ⟨⟨e, he, rfl, hlike⟩, hfirst⟩ := findDefinition_eq_some_iff.mp hfound
      obtain ⟨hex, hvisible⟩ := hexported j e he hlike hfirst
      refine Loaded.lookup_eq_some_iff.mpr ⟨lib.holds.entryAt_eq he, hvisible,
        (Loaded.accepted_iff he hname).mpr ⟨hex, hlike.2⟩, fun k hk hv ha => ?_⟩
      obtain ⟨i, hik, e', he', hlike'⟩ := hnamed k hv ha
      exact hfirst i (by omega) e' he' hlike'
    | none =>
      rw [Option.eq_none_iff_forall_ne_some]
      rintro ⟨j, s⟩ hsome
      obtain ⟨-, hvisible, haccepted, -⟩ := Loaded.lookup_eq_some_iff.mp hsome
      obtain ⟨k, -, e, he, hlike⟩ := hnamed j hvisible haccepted
      -- the first that is named like it would be found
      classical
      have hex : ∃ k, ∃ e : Entry, lib.table[k]? = some e ∧ e.Named name := ⟨k, e, he, hlike⟩
      obtain ⟨e', he', hlike'⟩ := Nat.find_spec hex
      have hfirst : findDefinition files lib.obj.path name = some (Nat.find hex, e'.sym) :=
        findDefinition_eq_some_iff.mpr ⟨⟨e', he', rfl, hlike'⟩, fun i hi e'' he'' hl =>
          Nat.find_min hex hi ⟨e'', he'', hl⟩⟩
      cases hfound.symm.trans hfirst

end

/-! ## A library that imports and exports -/

/-- The fields of a structure, each with its width. -/
def layOut (fields : List (ℕ × ℕ)) : Bytes :=
  fields.flatMap fun f => encodeLe f.1 f.2

/-- A library that imports `puts` and exports `f`. -/
def putsFile : Bytes :=
  -- the header, `PT_LOAD` and `PT_DYNAMIC`
  [0x7f, 0x45, 0x4c, 0x46, 2, 1, 1, 0, 0, 0, 0, 0, 0, 0, 0, 0] ++
  layOut [(2, 3), (2, 183), (4, 1), (8, 0), (8, 64), (8, 368), (4, 0), (2, 64), (2, 56), (2, 2),
    (2, 64), (2, 3), (2, 0)] ++
  layOut [(4, 1), (4, 5), (8, 0), (8, 0), (8, 0), (8, 560), (8, 560), (8, 0x1000)] ++
  layOut [(4, 2), (4, 6), (8, 176), (8, 176), (8, 176), (8, 80), (8, 80), (8, 8)] ++
  -- the dynamic table
  layOut [(8, 5), (8, 360), (8, 10), (8, 8), (8, 6), (8, 256), (8, 0x6ffffef5), (8, 328), (8, 0),
    (8, 0)] ++
  -- the symbols, the hash section and the strings
  layOut [(24, 0)] ++
  layOut [(4, 1), (1, 0x12), (1, 0), (2, 0), (8, 0), (8, 0)] ++
  layOut [(4, 6), (1, 0x12), (1, 0), (2, 9), (8, 0x100), (8, 4)] ++
  layOut [(4, 1), (4, 2), (4, 1), (4, 6), (8, 2 ^ 64 - 1), (4, 2), (4, 177675)] ++
  [0] ++ ascii "puts" ++ [0] ++ ascii "f" ++ [0] ++
  -- the section headers
  layOut [(64, 0)] ++
  layOut [(4, 0), (4, 11), (8, 2), (8, 256), (8, 256), (8, 72), (4, 2), (4, 1), (8, 8), (8, 24)] ++
  layOut [(4, 0), (4, 3), (8, 2), (8, 360), (8, 360), (8, 8), (4, 0), (4, 0), (8, 1), (8, 0)]

/-- The object the loader makes of it, mapped at 0x10000. -/
def putsObject : DirectSoObject where
  path := ascii "/libputs.so"
  soname := ascii "libputs.so"
  loadBase := 0x10000
  loadMin := 0
  loadMax := 0x1000
  phdrs := [⟨1, 5, 0, 0, 560, 560⟩, ⟨2, 6, 176, 176, 80, 80⟩]
  dyn := { strtab := 360, strsz := 8, symtab := 256, gnuHash := 328 }

def putsFiles (path : Bytes) : Option Bytes :=
  if path = putsObject.path then some putsFile else none

def putsTable : List Entry :=
  [⟨⟨0, 0, 0, 0⟩, []⟩, ⟨⟨1, 0x12, 0, 0⟩, ascii "puts"⟩, ⟨⟨6, 0x12, 9, 0x100⟩, ascii "f"⟩]

theorem getElem?_putsTable {i : ℕ} {e : Entry} (h : putsTable[i]? = some e) :
    i = 0 ∧ e = ⟨⟨0, 0, 0, 0⟩, []⟩ ∨ i = 1 ∧ e = ⟨⟨1, 0x12, 0, 0⟩, ascii "puts"⟩ ∨
      i = 2 ∧ e = ⟨⟨6, 0x12, 9, 0x100⟩, ascii "f"⟩ := by
  match i, h with
  | 0, h => exact .inl ⟨rfl, (Option.some_inj.mp h).symm⟩
  | 1, h => exact .inr (.inl ⟨rfl, (Option.some_inj.mp h).symm⟩)
  | 2, h => exact .inr (.inr ⟨rfl, (Option.some_inj.mp h).symm⟩)
  | i + 3, h => cases h

theorem putsTable_holds : HoldsTable putsObject putsFile putsTable 256 360 where
  symtab := by decide
  strtab := by decide
  small := by decide +kernel
  symOff_eq := by decide +kernel
  inside := by decide +kernel
  null := ⟨_, rfl, rfl⟩
  entry i e h := by
    obtain ⟨rfl, rfl⟩ | ⟨rfl, rfl⟩ | ⟨rfl, rfl⟩ := getElem?_putsTable h
    all_goals decide +kernel
  strsz := by decide +kernel
  strOff_eq := by decide +kernel
  name := by decide +kernel
  noNul := by decide +kernel

def putsSections : SectionTable where
  shoff := 368
  shentsize := 64
  shnum := 3

theorem putsSections_hold : HoldsSections putsFile putsTable 256 360 putsSections 1
    ⟨11, 256, 72, 2⟩ ⟨3, 360, 8, 0⟩ where
  header := by decide +kernel
  supported := by decide +kernel
  table_eq := rfl
  room := by decide +kernel
  lt := by decide
  first := by decide +kernel
  shdr_eq := by decide +kernel
  type := rfl
  offset := rfl
  offset_ne := by decide
  size := by decide +kernel
  link := by decide
  strshdr_eq := by decide +kernel
  strOffset := rfl
  strOffset_ne := by decide

def putsLibrary : Library putsFiles where
  obj := putsObject
  file := putsFile
  table := putsTable
  symOff := 256
  strOff := 360
  opens := by decide +kernel
  holds := putsTable_holds
  sections := putsSections
  index := 1
  shdr := ⟨11, 256, 72, 2⟩
  strshdr := ⟨3, 360, 8, 0⟩
  agrees := putsSections_hold

theorem visible_puts {j : ℕ} : putsLibrary.Visible j ↔ j = 1 ∨ j = 2 := by
  have hcount : putsObject.symCount putsFile = 3 := by decide +kernel
  have hpass : ∀ k, 1 ≤ k → k < 3 → putsLibrary.Passes k := fun k hk hlt => by
    obtain rfl | rfl : k = 1 ∨ k = 2 := by omega
    · exact ⟨⟨1, 0x12, 0, 0⟩, by decide +kernel, by decide⟩
    · exact ⟨⟨6, 0x12, 9, 0x100⟩, by decide +kernel, by decide⟩
  change 1 ≤ j ∧ j < putsObject.symCount putsFile ∧ _ ↔ _
  rw [hcount]
  refine ⟨fun h => by omega, fun h => ⟨by omega, by omega, fun k hk hkj => hpass k hk (by omega)⟩⟩

end Loader

end Muplar
