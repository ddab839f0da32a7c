import Muplar.Linker.Relr
/-!
# The linker — relocations with addends

An object of the guest linker, and what `apply_rela` does with a table of
its relocations. Where another object's symbol is looked up, and where
code of the guest is called to resolve one, the answer is a parameter.

The tables an object points to are lists here, and its symbols and
strings are what memory has at an index, beyond the end of the table
too: the linker does not know where a symbol table ends.
-/

namespace Muplar

namespace Linker

/-! ## Objects -/

/-- `Elf64_Sym`, as far as it is looked at. -/
structure Sym where
  name : ℕ
  info : UInt8
  shndx : ℕ
  value : UInt64
  deriving DecidableEq

/-- `ELF64_ST_TYPE(info) == STT_GNU_IFUNC`. -/
def Sym.isIfunc (s : Sym) : Bool :=
  s.info &&& 0xf = 10

/-- `ELF64_ST_BIND(info) == STB_WEAK`. -/
def Sym.isWeak (s : Sym) : Bool :=
  s.info >>> 4 = 2

/-- `SHN_UNDEF`. -/
def Sym.isUndef (s : Sym) : Bool :=
  s.shndx = 0

/-- `Elf64_Rela`. -/
structure Rela where
  offset : UInt64
  info : UInt64
  addend : UInt64
  deriving DecidableEq

/-- `ELF64_R_SYM`. -/
def Rela.sym (r : Rela) : ℕ :=
  r.info.toNat / 2 ^ 32

/-- The relocation types that are handled. -/
inductive RelType
  | relative
  | globDat
  | jumpSlot
  | abs64
  | tlsTprel64
  | tlsdesc
  | irelative
  | other
  deriving DecidableEq

/-- `ELF64_R_TYPE`. -/
def Rela.type (r : Rela) : RelType :=
  match r.info.toNat % 2 ^ 32 with
  | 257 => .abs64
  | 1025 => .globDat
  | 1026 => .jumpSlot
  | 1027 => .relative
  | 1030 => .tlsTprel64
  | 1031 => .tlsdesc
  | 1032 => .irelative
  | _ => .other

/-- The symbol table and the string table of an object, where it has
both: what is at an index, and the string at an offset. -/
structure Symbols where
  sym : ℕ → Sym
  string : ℕ → Bytes
  strsz : ℕ

/-- `Object`. The alignment of the TLS segment is kept beside it: the
linker has no field for it. -/
structure Object where
  loadBase : UInt64 := 0
  symbols : Option Symbols := none
  rela : List Rela := []
  jmprel : List Rela := []
  relr : List UInt64 := []
  androidRela : Bytes := []
  needed : List Bytes := []
  path : Bytes := []
  soname : Bytes := []
  tlsOffset : UInt64 := 0
  tlsVaddr : UInt64 := 0
  tlsFilesz : UInt64 := 0
  tlsMemsz : UInt64 := 0
  tlsAlign : UInt64 := 0

/-- What a relocation depends on besides its object: `lookup_symbol`, the
guest's resolvers, the address of `tlsdesc_static_resolver` and the
objects of the process. -/
structure Linkage where
  lookupSymbol : Bytes → UInt64
  resolver : UInt64 → UInt64
  tlsdescStaticResolver : UInt64
  objects : List Object

/-- Nothing is found. -/
def Linkage.empty : Linkage where
  lookupSymbol _ := 0
  resolver a := a
  tlsdescStaticResolver := 0
  objects := []

/-! ## Symbols -/

/-- The value of a symbol; none where it is undefined and not found. -/
def Object.symbolValue (obj : Object) (l : Linkage) (symIdx : ℕ) : Option UInt64 :=
  match obj.symbols with
  | none => some 0
  | some table =>
    if symIdx = 0 then some 0
    else
      let sym := table.sym symIdx
      if !sym.isUndef then
        let value := sym.value + obj.loadBase
        some (if sym.isIfunc then l.resolver value else value)
      else
        let value := l.lookupSymbol (table.string sym.name)
        if value = 0 then none else some value

/-- The scan of a symbol table from index `j` on: it ends at a defined
symbol whose name is not in the string table. -/
def Symbols.scan (table : Symbols) (name : Bytes) : (count j : ℕ) → Option Sym
  | 0, _ => none
  | count + 1, j =>
    let s := table.sym j
    if s.isUndef then table.scan name count (j + 1)
    else if table.strsz ≤ s.name then none
    else if table.string s.name = name then some s
    else table.scan name count (j + 1)

/-- The offset of a thread-local symbol of another object: the first that
is found and not 0. -/
def tlsLookup (name : Bytes) : List Object → UInt64
  | [] => 0
  | target :: targets =>
    match target.symbols.bind fun table => table.scan name 4095 1 with
    | none => tlsLookup name targets
    | some s =>
      if target.tlsOffset + s.value ≠ 0 then target.tlsOffset + s.value
      else tlsLookup name targets

/-- The offset of a thread-local symbol. -/
def Object.tlsValue (obj : Object) (l : Linkage) (symIdx : ℕ) : UInt64 :=
  match obj.symbols with
  | none => obj.tlsOffset
  | some table =>
    if symIdx = 0 then obj.tlsOffset
    else
      let sym := table.sym symIdx
      if !sym.isUndef then obj.tlsOffset + sym.value
      else tlsLookup (table.string sym.name) l.objects

/-! ## Relocations -/

/-- One turn of the loop of `apply_rela`. -/
def Object.applyOne (obj : Object) (l : Linkage) (m : Memory) (r : Rela) : Memory :=
  let slot := r.offset + obj.loadBase
  match r.type with
  | .relative => m.setU64 slot (obj.loadBase + r.addend)
  | .globDat | .jumpSlot | .abs64 =>
    match obj.symbolValue l r.sym with
    | none => m
    | some value => m.setU64 slot (value + r.addend)
  | .tlsTprel64 => m.setU64 slot (obj.tlsValue l r.sym + r.addend)
  | .tlsdesc =>
    (m.setU64 slot l.tlsdescStaticResolver).setU64 (slot + 8) (obj.tlsValue l r.sym + r.addend)
  | .irelative => m.setU64 slot (l.resolver (obj.loadBase + r.addend))
  | .other => m

/-- `apply_rela`. -/
def Object.applyRela (obj : Object) (l : Linkage) (relas : List Rela) (m : Memory) : Memory :=
  relas.foldl (obj.applyOne l) m

end Linker

end Muplar
