import Mathlib.Data.Nat.Find
import Muplar.Common.NameBuffer
import Muplar.Loader.Rela
/-!
# The loader on the host — symbols by name

`lookup_direct_symbol` asks the objects in the order they were loaded. It
reads each symbol table entry by entry, up to an end that is guessed from
the hash section, and compares names through a buffer of 256 bytes.

What the file has is an abstract table of symbols with names of any
length. `lookup_exact_iff` says when the answer is the definition that
the tables have.
-/

namespace Muplar

namespace Loader

open Linker (Sym)

/-! ## The length of the table -/

/-- `read_at`, of a word. -/
def readU32 (file : Bytes) (off : UInt64) : Option UInt32 :=
  let (bytes, ok) := readAt file off 4
  if ok then some (UInt32.ofNat (le bytes)) else none

/-- The loop over the buckets: the highest, as far as they can be read. -/
def maxBucket (file : Bytes) (bucketOff : UInt64) : (count : ℕ) → (b maxSym : UInt32) → UInt32
  | 0, _, maxSym => maxSym
  | count + 1, b, maxSym =>
    match readU32 file (bucketOff + (b * 4).toUInt64) with
    | none => maxSym
    | some bucketVal =>
      maxBucket file bucketOff count (b + 1) (if maxSym < bucketVal then bucketVal else maxSym)

/-- The walk along a chain, to behind its end. -/
def chainEnd (file : Bytes) (chainBaseOff : UInt64) (symndx : UInt32) :
    (count : ℕ) → (sym : UInt32) → UInt32
  | 0, sym => sym
  | count + 1, sym =>
    match readU32 file (chainBaseOff + (sym - symndx).toUInt64 * 4) with
    | none => sym
    | some chainVal =>
      if chainVal &&& 1 ≠ 0 then sym + 1 else chainEnd file chainBaseOff symndx count (sym + 1)

/-- `gnu_hash_sym_count`. -/
def gnuHashSymCount (file : Bytes) (phdrs : List Phdr) (gnuHashVaddr : UInt64) : UInt32 :=
  if gnuHashVaddr = 0 then 0
  else
    match vaddrToFileOffset phdrs gnuHashVaddr 16 with
    | none => 0
    | some off =>
      match readU32 file off, readU32 file (off + 4), readU32 file (off + 8) with
      | some nbuckets, some symndx, some maskwords =>
        let bucketOff := off + 16 + maskwords.toUInt64 * 8
        let maxSym := maxBucket file bucketOff nbuckets.toNat 0 symndx
        chainEnd file (bucketOff + nbuckets.toUInt64 * 4) symndx 65536 maxSym
      | _, _, _ => 0

/-- The hard upper bound. -/
def maxSymCount : ℕ := 131072

namespace DirectSoObject

variable (o : DirectSoObject) (file : Bytes)

/-- `sym_count`. -/
def symCount : ℕ :=
  let count := (gnuHashSymCount file o.phdrs o.dyn.gnuHash).toNat
  if count = 0 ∨ maxSymCount < count then maxSymCount else count

/-! ## The scan -/

/-- `sizeof(buf)`. -/
def bufSize : ℕ := 256

/-- The entry at an index, if it can be read. -/
def entryAt (file : Bytes) (symtabFileOff : UInt64) (i : ℕ) : Option Sym :=
  let (bytes, ok) := readAt file (symtabFileOff + UInt64.ofNat (i * symSize)) symSize
  if ok then some (decodeSym bytes) else none

/-- The entry is defined, has a value, and the name. -/
def accepts (name : Bytes) (sym : Sym) : Bool :=
  sym.name < o.dyn.strsz.toNat && !sym.isUndef && sym.value ≠ 0 &&
    match vaddrToFileOffset o.phdrs (o.dyn.strtab + UInt64.ofNat sym.name) 1 with
    | none => false
    | some strFileOff =>
      let (bytes, ok) := readAt file strFileOff (min (name.length + 1) (bufSize - 1))
      ok && sameName bufSize bytes name

/-- The loop over the entries from index `i` on. -/
def scanSymbols (symtabFileOff : UInt64) (name : Bytes) : (count i : ℕ) → Option (ℕ × Sym)
  | 0, _ => none
  | count + 1, i =>
    match entryAt file symtabFileOff i with
    | none => none
    | some sym =>
      if sym.name = 0 ∧ sym.value = 0 ∧ 1 < i then none
      else if o.accepts file name sym then some (i, sym)
      else scanSymbols symtabFileOff name count (i + 1)

/-- What is found in one object; `files` is what a path opens. -/
def lookup (files : Bytes → Option Bytes) (name : Bytes) : Option (ℕ × Sym) :=
  if o.dyn.symtab = 0 ∨ o.dyn.strtab = 0 ∨ o.dyn.strsz = 0 then none
  else
    match files o.path with
    | none => none
    | some file =>
      match vaddrToFileOffset o.phdrs o.dyn.symtab 24 with
      | none => none
      | some symtabFileOff => o.scanSymbols file symtabFileOff name (o.symCount file - 1) 1

end DirectSoObject

/-- A symbol of a loaded object, by its indices, and its address. -/
structure HostDefinition where
  object : ℕ
  index : ℕ
  address : UInt64

/-- The same, with one object more in front. -/
def HostDefinition.next (d : HostDefinition) : HostDefinition :=
  { d with object := d.object + 1 }

/-- The definition that `lookup_direct_symbol` returns the address of. -/
def lookupDirectDefinition (files : Bytes → Option Bytes) (name : Bytes) :
    List DirectSoObject → Option HostDefinition
  | [] => none
  | o :: objects =>
    match o.lookup files name with
    | some (i, sym) => some ⟨0, i, o.loadBase + sym.value⟩
    | none => (lookupDirectDefinition files name objects).map HostDefinition.next

/-- `lookup_direct_symbol`. -/
def lookupDirectSymbol (files : Bytes → Option Bytes) (objects : List DirectSoObject)
    (name : Bytes) : UInt64 :=
  match lookupDirectDefinition files name objects with
  | none => 0
  | some d => d.address

/-! ## What a file has -/

/-- A symbol and its name. -/
structure Entry where
  sym : Sym
  name : Bytes
  deriving DecidableEq

namespace Entry

variable (e : Entry)

/-- It is defined, and not at 0. -/
def Exported : Prop :=
  e.sym.isUndef = false ∧ e.sym.value ≠ 0

/-- Its name is the name that is asked for, as far as 255 bytes go. -/
def Like (name : Bytes) : Prop :=
  e.name.take (DirectSoObject.bufSize - 1) = name

instance : Decidable e.Exported :=
  inferInstanceAs (Decidable (_ ∧ _))

instance (name : Bytes) : Decidable (e.Like name) :=
  inferInstanceAs (Decidable (_ = _))

end Entry

/-- **The table of an object.** It is in the file where the dynamic table
says, begins with the null symbol, and each name is in the string table
and ends in a NUL. -/
structure HoldsTable (o : DirectSoObject) (file : Bytes) (table : List Entry)
    (symOff strOff : UInt64) : Prop where
  symtab : o.dyn.symtab ≠ 0
  strtab : o.dyn.strtab ≠ 0
  small : file.length < 2 ^ 63
  symOff_eq : vaddrToFileOffset o.phdrs o.dyn.symtab 24 = some symOff
  inside : symOff.toNat + table.length * symSize ≤ file.length
  null : ∃ e, table[0]? = some e ∧ e.sym = ⟨0, 0, 0, 0⟩
  entry : ∀ i e, table[i]? = some e →
    decodeSym (slice file (symOff.toNat + i * symSize) symSize) = e.sym
  strsz : ∀ e ∈ table, e.sym.name < o.dyn.strsz.toNat
  strOff_eq : ∀ e ∈ table, vaddrToFileOffset o.phdrs (o.dyn.strtab + UInt64.ofNat e.sym.name) 1 =
    some (strOff + UInt64.ofNat e.sym.name)
  name : ∀ e ∈ table, slice file (strOff.toNat + e.sym.name) (e.name.length + 1) = e.name ++ [0]
  noNul : ∀ e ∈ table, 0 ∉ e.name

/-- An object that is loaded, its file and its table. -/
structure Loaded (files : Bytes → Option Bytes) where
  obj : DirectSoObject
  file : Bytes
  table : List Entry
  symOff : UInt64
  strOff : UInt64
  opens : files obj.path = some file
  holds : HoldsTable obj file table symOff strOff

namespace Loaded

variable {files : Bytes → Option Bytes} (o : Loaded files) (name : Bytes)

/-- The symbol at the index is a definition of the name. -/
def DefinedAt (j : ℕ) : Prop :=
  ∃ e, o.table[j]? = some e ∧ e.sym.isUndef = false ∧ e.name = name

def Defines : Prop :=
  ∃ j, o.DefinedAt name j

/-- The loop goes on at the entry: it can be read, and is not an entry of
name and value 0 behind the first two. -/
def Passes (k : ℕ) : Prop :=
  ∃ s, DirectSoObject.entryAt o.file o.symOff k = some s ∧
    ¬(s.name = 0 ∧ s.value = 0 ∧ 1 < k)

/-- The loop comes to the entry. -/
def Visible (j : ℕ) : Prop :=
  1 ≤ j ∧ j < o.obj.symCount o.file ∧ ∀ k, 1 ≤ k → k ≤ j → o.Passes k

/-- The entry is accepted. -/
def Accepted (j : ℕ) : Prop :=
  ∃ s, DirectSoObject.entryAt o.file o.symOff j = some s ∧ o.obj.accepts o.file name s = true

/-- **The definition is seen**: the name has no more than 255 bytes, one of
its definitions is visible and not at 0, and each symbol before it that is
like it in 255 bytes is a definition of it too. -/
def Sees : Prop :=
  name.length < DirectSoObject.bufSize ∧
    ∃ j e, o.table[j]? = some e ∧ o.Visible j ∧ e.Exported ∧ e.name = name ∧
      ∀ k < j, ∀ e', o.table[k]? = some e' → e'.Exported → e'.Like name → e'.name = name

/-- **Nothing is taken for it**: no symbol that is visible is like it in
255 bytes, and none of what is read behind the table is accepted. -/
def Quiet : Prop :=
  (∀ j e, o.table[j]? = some e → o.Visible j → e.Exported → ¬e.Like name) ∧
    ∀ j, o.table.length ≤ j → o.Visible j → ¬o.Accepted name j

end Loaded

/-- Every object up to the first that defines the name: that one is seen
to, and those before it are quiet. -/
def SeenUpTo {files : Bytes → Option Bytes} (name : Bytes) : List (Loaded files) → Prop
  | [] => True
  | o :: objects =>
    (o.Defines name → o.Sees name) ∧
      (¬o.Defines name → o.Quiet name ∧ SeenUpTo name objects)

/-! ## One object -/

namespace DirectSoObject

variable {o : DirectSoObject} {file name : Bytes} {off : UInt64} {s : Sym}

/-- What the loop finds: the first entry that is accepted, if it goes on
until there. -/
theorem scanSymbols_eq_some_iff {count i j : ℕ} :
    o.scanSymbols file off name count i = some (j, s) ↔
      i ≤ j ∧ j < i + count ∧ entryAt file off j = some s ∧ o.accepts file name s = true ∧
        (∀ k, i ≤ k → k ≤ j → ∃ s, entryAt file off k = some s ∧
          ¬(s.name = 0 ∧ s.value = 0 ∧ 1 < k)) ∧
        ∀ k, i ≤ k → k < j → ∀ s, entryAt file off k = some s → o.accepts file name s = false := by
  induction count generalizing i with
  | zero =>
    refine ⟨nofun, ?_⟩
    rintro ⟨hle, hlt, -⟩
    omega
  | succ count ih =>
    rw [scanSymbols]
    cases hentry : entryAt file off i with
    | none =>
      refine ⟨nofun, ?_⟩
      rintro ⟨hle, -, -, -, hpass, -⟩
      obtain ⟨s', hs', -⟩ := hpass i (Nat.le_refl _) hle
      cases hentry.symm.trans hs'
    | some sym =>
      dsimp only
      by_cases hend : sym.name = 0 ∧ sym.value = 0 ∧ 1 < i
      · rw [if_pos hend]
        refine ⟨nofun, ?_⟩
        rintro ⟨hle, -, -, -, hpass, -⟩
        obtain ⟨s', hs', hgoes⟩ := hpass i (Nat.le_refl _) hle
        cases hentry.symm.trans hs'
        exact absurd hend hgoes
      rw [if_neg hend]
      by_cases haccept : o.accepts file name sym = true
      · rw [if_pos haccept, Option.some.injEq, Prod.mk.injEq]
        constructor
        · rintro ⟨rfl, rfl⟩
          refine ⟨Nat.le_refl _, by omega, hentry, haccept, fun k hk hki => ?_, fun k _ _ => by omega⟩
          obtain rfl : k = i := Nat.le_antisymm hki hk
          exact ⟨sym, hentry, hend⟩
        · rintro ⟨hle, -, hj, -, -, hbefore⟩
          rcases Nat.eq_or_lt_of_le hle with rfl | hlt
          · exact ⟨rfl, Option.some_inj.mp (hentry.symm.trans hj)⟩
          · have hfalse := hbefore i (Nat.le_refl _) hlt sym hentry
            exact absurd (haccept.symm.trans hfalse) (by decide)
      · -- the entry is passed over
        rw [if_neg haccept, ih]
        constructor
        · rintro ⟨hle, hlt, hj, haccepted, hpass, hbefore⟩
          refine ⟨by omega, by omega, hj, haccepted, fun k hk hkj => ?_, fun k hk hkj s' hs' => ?_⟩
          · rcases Nat.eq_or_lt_of_le hk with rfl | hlater
            · exact ⟨sym, hentry, hend⟩
            · exact hpass k hlater hkj
          · rcases Nat.eq_or_lt_of_le hk with rfl | hlater
            · cases hentry.symm.trans hs'
              exact Bool.eq_false_iff.mpr haccept
            · exact hbefore k hlater hkj s' hs'
        · rintro ⟨hle, hlt, hj, haccepted, hpass, hbefore⟩
          have hne : i ≠ j := fun h => by
            subst h
            cases hentry.symm.trans hj
            exact haccept haccepted
          exact ⟨by omega, by omega, hj, haccepted, fun k hk => hpass k (by omega),
            fun k hk => hbefore k (by omega)⟩

end DirectSoObject

namespace HoldsTable

variable {o : DirectSoObject} {file name : Bytes} {table : List Entry} {symOff strOff : UInt64}
variable {i : ℕ} {e : Entry}

/-- An entry of the table is read as it is. -/
theorem entryAt_eq (h : HoldsTable o file table symOff strOff) (he : table[i]? = some e) :
    DirectSoObject.entryAt file symOff i = some e.sym := by
  have hi : i < table.length := (List.getElem?_eq_some_iff.mp he).1
  have hinside := h.inside
  have hsmall := h.small
  have hsize : symSize = 24 := rfl
  rw [hsize] at hinside
  have hoff : (symOff + UInt64.ofNat (i * symSize)).toNat = symOff.toNat + i * symSize := by
    rw [UInt64.toNat_add, UInt64.toNat_ofNat', hsize, Nat.mod_eq_of_lt (by omega),
      Nat.mod_eq_of_lt (by omega)]
  have hlen : (slice file (symOff.toNat + i * symSize) symSize).length = symSize :=
    length_slice (by rw [hsize]; omega)
  have hentry := h.entry i e he
  rw [DirectSoObject.entryAt, readAt, hoff, if_neg (by rw [hsize]; omega)]
  simp only [hlen, hentry, decide_true, if_true]

theorem nameOff_lt (h : HoldsTable o file table symOff strOff) (he : e ∈ table) :
    strOff.toNat + e.sym.name < file.length := by
  have hlen := congrArg List.length (h.name e he)
  rw [slice, List.length_take, List.length_drop, List.length_append] at hlen
  simp only [List.length_cons, List.length_nil] at hlen
  omega

theorem toNat_nameOff (h : HoldsTable o file table symOff strOff) (he : e ∈ table) :
    (strOff + UInt64.ofNat e.sym.name).toNat = strOff.toNat + e.sym.name := by
  have hlt := h.nameOff_lt he
  have hsmall := h.small
  rw [UInt64.toNat_add, UInt64.toNat_ofNat', Nat.mod_eq_of_lt (by omega),
    Nat.mod_eq_of_lt (by omega)]

/-- A name is compared as far as 255 bytes go. -/
theorem accepts_iff (h : HoldsTable o file table symOff strOff) (he : e ∈ table)
    (hname : 0 ∉ name) :
    o.accepts file name e.sym = true ↔ e.Exported ∧ e.Like name := by
  have hlt := h.nameOff_lt he
  have hsmall := h.small
  have hlike := @sameName_iff file e.name name _ DirectSoObject.bufSize (by decide) (h.name e he)
    (h.noNul e he) hname _ rfl
  rw [DirectSoObject.accepts, h.strOff_eq e he]
  dsimp only
  rw [readAt, h.toNat_nameOff he, if_neg (by omega)]
  simp only [Bool.and_eq_true, decide_eq_true_eq, Bool.not_eq_true', h.strsz e he, true_and, hlike]
  rfl

end HoldsTable

namespace Loaded

variable {files : Bytes → Option Bytes} {o : Loaded files} {name : Bytes} {i j : ℕ} {s : Sym}
variable {e : Entry}

theorem accepted_iff (he : o.table[j]? = some e) (hname : 0 ∉ name) :
    o.Accepted name j ↔ e.Exported ∧ e.Like name := by
  rw [← o.holds.accepts_iff (List.mem_of_getElem? he) hname, Accepted, o.holds.entryAt_eq he]
  simp

/-- The first entry that is visible and accepted is what is found. -/
theorem lookup_eq_some_iff : o.obj.lookup files name = some (j, s) ↔
    DirectSoObject.entryAt o.file o.symOff j = some s ∧ o.Visible j ∧ o.Accepted name j ∧
      ∀ k < j, o.Visible k → ¬o.Accepted name k := by
  obtain ⟨null, hnull, hzero⟩ := o.holds.null
  have hstrsz : o.obj.dyn.strsz ≠ 0 := fun h => by
    have hlt := o.holds.strsz null (List.mem_of_getElem? hnull)
    rw [h] at hlt
    exact absurd hlt (Nat.not_lt_zero _)
  have htables : ¬(o.obj.dyn.symtab = 0 ∨ o.obj.dyn.strtab = 0 ∨ o.obj.dyn.strsz = 0) :=
    fun h => h.elim o.holds.symtab fun h => h.elim o.holds.strtab hstrsz
  rw [DirectSoObject.lookup, if_neg htables, o.opens]
  dsimp only
  rw [o.holds.symOff_eq]
  dsimp only
  rw [DirectSoObject.scanSymbols_eq_some_iff]
  constructor
  · rintro ⟨hle, hlt, hentry, haccept, hpass, hbefore⟩
    refine ⟨hentry, ⟨hle, by omega, hpass⟩, ⟨s, hentry, haccept⟩, fun k hk hvisible => ?_⟩
    rintro ⟨s', hs', haccept'⟩
    exact absurd (haccept'.symm.trans (hbefore k hvisible.1 hk s' hs')) (by decide)
  · rintro ⟨hentry, ⟨hle, hlt, hpass⟩, ⟨s', hs', haccept⟩, hbefore⟩
    cases hentry.symm.trans hs'
    refine ⟨hle, by omega, hentry, haccept, hpass, fun k hk hkj s' hs' => ?_⟩
    have hvisible : o.Visible k := ⟨hk, by omega, fun i hi hik => hpass i hi (by omega)⟩
    exact Bool.eq_false_iff.mpr fun h => hbefore k hkj hvisible ⟨s', hs', h⟩

/-- Where one entry is accepted there is a first. -/
theorem exists_first (hvisible : o.Visible j) (haccepted : o.Accepted name j) :
    ∃ i ≤ j, ∃ s, o.obj.lookup files name = some (i, s) := by
  classical
  have hex : ∃ i, o.Visible i ∧ o.Accepted name i := ⟨j, hvisible, haccepted⟩
  obtain ⟨hseen, s, hs, haccept⟩ := Nat.find_spec hex
  refine ⟨Nat.find hex, Nat.find_min' hex ⟨hvisible, haccepted⟩, s, ?_⟩
  exact lookup_eq_some_iff.mpr ⟨hs, hseen, ⟨s, hs, haccept⟩, fun k hk hv ha =>
    Nat.find_min hex hk ⟨hv, ha⟩⟩

/-- The null symbol is no definition. -/
theorem not_exported_null (he : o.table[0]? = some e) : ¬e.Exported := by
  obtain ⟨null, hnull, hzero⟩ := o.holds.null
  cases hnull.symm.trans he
  rintro ⟨-, hvalue⟩
  exact hvalue (by rw [hzero])

/-- What is found is a definition of the name, if the object's definition is
seen. -/
theorem found_iff_sees (hname : 0 ∉ name) :
    (∃ i s, o.obj.lookup files name = some (i, s) ∧ o.DefinedAt name i) ↔ o.Sees name := by
  constructor
  · rintro ⟨i, s, hfound, e, he, -, hsame⟩
    obtain ⟨-, hvisible, haccepted, hbefore⟩ := lookup_eq_some_iff.mp hfound
    obtain ⟨hexported, hlike⟩ := (accepted_iff he hname).mp haccepted
    have hshort : name.length < DirectSoObject.bufSize := by
      rw [← hlike]
      exact Nat.lt_of_le_of_lt (List.length_take_le _ _) (by decide)
    refine ⟨hshort, i, e, he, hvisible, hexported, hsame, fun k hk e' he' hex hlike' => ?_⟩
    have hpos : k ≠ 0 := fun h => not_exported_null (h ▸ he') hex
    have hseen : o.Visible k :=
      ⟨by omega, Nat.lt_trans hk hvisible.2.1, fun i hi hik => hvisible.2.2 i hi (by omega)⟩
    exact absurd ((accepted_iff he' hname).mpr ⟨hex, hlike'⟩) (hbefore k hk hseen)
  · rintro ⟨hshort, j, e, he, hvisible, hexported, hsame, hbefore⟩
    have hlike : e.Like name := by
      rw [Entry.Like, hsame, List.take_of_length_le]
      exact Nat.le_sub_one_of_lt hshort
    obtain ⟨i, hij, s, hfound⟩ := exists_first hvisible ((accepted_iff he hname).mpr
      ⟨hexported, hlike⟩)
    obtain ⟨-, -, haccepted, -⟩ := lookup_eq_some_iff.mp hfound
    rcases Nat.eq_or_lt_of_le hij with rfl | hlt
    · exact ⟨i, s, hfound, e, he, hexported.1, hsame⟩
    · -- an entry before it is like it, and so a definition too
      have hi : i < o.table.length :=
        Nat.lt_trans hlt (List.getElem?_eq_some_iff.mp he).1
      have he' : o.table[i]? = some o.table[i] := List.getElem?_eq_getElem hi
      obtain ⟨hexported', hlike'⟩ := (accepted_iff he' hname).mp haccepted
      exact ⟨i, s, hfound, _, he', hexported'.1, hbefore i hlt _ he' hexported' hlike'⟩

theorem lookup_eq_none_iff (hname : 0 ∉ name) :
    o.obj.lookup files name = none ↔ o.Quiet name := by
  constructor
  · intro hnone
    have hnot : ∀ j, o.Visible j → ¬o.Accepted name j := fun j hvisible haccepted => by
      obtain ⟨i, -, s, hfound⟩ := exists_first hvisible haccepted
      cases hnone.symm.trans hfound
    exact ⟨fun j e he hvisible hexported hlike =>
      hnot j hvisible ((accepted_iff he hname).mpr ⟨hexported, hlike⟩), fun j _ => hnot j⟩
  · rintro ⟨htable, hstray⟩
    rw [Option.eq_none_iff_forall_ne_some]
    rintro ⟨j, s⟩ hfound
    obtain ⟨-, hvisible, haccepted, -⟩ := lookup_eq_some_iff.mp hfound
    rcases Nat.lt_or_ge j o.table.length with hlt | hge
    · have he : o.table[j]? = some o.table[j] := List.getElem?_eq_getElem hlt
      obtain ⟨hexported, hlike⟩ := (accepted_iff he hname).mp haccepted
      exact htable j _ he hvisible hexported hlike
    · exact hstray j hge hvisible haccepted

/-- The address of what is found. -/
theorem entry_of_lookup (hfound : o.obj.lookup files name = some (i, s))
    (he : o.table[i]? = some e) : e.sym = s :=
  Option.some_inj.mp ((o.holds.entryAt_eq he).symm.trans (lookup_eq_some_iff.mp hfound).1)

end Loaded

/-! ## All objects -/

section

variable {files : Bytes → Option Bytes} {objects : List (Loaded files)} {name : Bytes}

/-- **The answer is exact**: it is in the first object that defines the
name, and there a definition of the name; there is none where no object
defines it. -/
def ExactIn (objects : List (Loaded files)) (name : Bytes) : Option HostDefinition → Prop
  | none => ∀ o ∈ objects, ¬o.Defines name
  | some d => ∃ before o after e, objects = before ++ o :: after ∧ before.length = d.object ∧
      (∀ p ∈ before, ¬p.Defines name) ∧ o.table[d.index]? = some e ∧ e.sym.isUndef = false ∧
      e.name = name ∧ d.address = o.obj.loadBase + e.sym.value

theorem exactIn_next {o : Loaded files} (hnot : ¬o.Defines name) {found : Option HostDefinition} :
    ExactIn (o :: objects) name (found.map HostDefinition.next) ↔ ExactIn objects name found := by
  cases found with
  | none =>
    change (∀ p ∈ o :: objects, ¬p.Defines name) ↔ _
    rw [List.forall_mem_cons, and_iff_right hnot]
    rfl
  | some d =>
    constructor
    · rintro ⟨before, p, after, e, hsplit, hlen, hbefore, hrest⟩
      cases before with
      | nil => cases hlen
      | cons p' before =>
        cases hsplit
        exact ⟨before, p, after, e, rfl, Nat.succ.inj hlen,
          fun q hq => hbefore q (List.mem_cons_of_mem _ hq), hrest⟩
    · rintro ⟨before, p, after, e, rfl, hlen, hbefore, hrest⟩
      exact ⟨o :: before, p, after, e, rfl, congrArg (· + 1) hlen,
        List.forall_mem_cons.mpr ⟨hnot, hbefore⟩, hrest⟩

/-- **Where the lookup is exact.** -/
theorem exactIn_iff (hname : 0 ∉ name) :
    ExactIn objects name (lookupDirectDefinition files name (objects.map Loaded.obj)) ↔
      SeenUpTo name objects := by
  induction objects with
  | nil => exact iff_of_true (fun _ h => nomatch h) trivial
  | cons o objects ih =>
    rw [List.map_cons, lookupDirectDefinition, SeenUpTo]
    cases hfound : o.obj.lookup files name with
    | none =>
      have hquiet := (Loaded.lookup_eq_none_iff hname).mp hfound
      have hblind : ¬o.Sees name := fun h => by
        obtain ⟨i, s, hsome, -⟩ := (Loaded.found_iff_sees hname).mpr h
        cases hfound.symm.trans hsome
      dsimp only
      by_cases hdefines : o.Defines name
      · -- the object is passed over
        refine iff_of_false (fun h => ?_) fun h => hblind (h.1 hdefines)
        cases hrest : lookupDirectDefinition files name (objects.map Loaded.obj) with
        | none =>
          rw [hrest] at h
          exact h o List.mem_cons_self hdefines
        | some d =>
          rw [hrest] at h
          obtain ⟨before, p, after, e, hsplit, hlen, hbefore, -⟩ := h
          cases before with
          | nil => cases hlen
          | cons p' before =>
            cases hsplit
            exact hbefore o List.mem_cons_self hdefines
      · rw [exactIn_next hdefines, ih]
        exact ⟨fun h => ⟨fun hd => absurd hd hdefines, fun _ => ⟨hquiet, h⟩⟩, fun h =>
          (h.2 hdefines).2⟩
    | some found =>
      obtain ⟨i, s⟩ := found
      have hloud : ¬o.Quiet name := fun h => by
        cases ((Loaded.lookup_eq_none_iff hname).mpr h).symm.trans hfound
      dsimp only
      constructor
      · rintro ⟨before, p, after, e, hsplit, hlen, hbefore, he, hdefined, hsame, -⟩
        obtain rfl : before = [] := List.eq_nil_of_length_eq_zero hlen
        cases hsplit
        exact ⟨fun _ => (Loaded.found_iff_sees hname).mp ⟨i, s, hfound, e, he, hdefined, hsame⟩,
          fun h => absurd ⟨i, e, he, hdefined, hsame⟩ h⟩
      · rintro ⟨hsees, hrest⟩
        have hdefines : o.Defines name := by
          by_contra hnot
          exact hloud (hrest hnot).1
        obtain ⟨i', s', hfound', e, he, hdefined, hsame⟩ :=
          (Loaded.found_iff_sees hname).mpr (hsees hdefines)
        cases hfound.symm.trans hfound'
        refine ⟨[], o, objects, e, rfl, rfl, List.forall_mem_nil _, he, hdefined, hsame, ?_⟩
        rw [Loaded.entry_of_lookup hfound he]

end

end Loader

end Muplar
