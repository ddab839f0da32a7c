import Mathlib.Data.List.Pairwise
import Muplar.Common.Run
import Muplar.Linker.Rela
/-!
# The loader on the host — relocations with addends

`apply_direct_so_rela` reads its table, its symbols and their names from
the file of the object, and writes through `guest_write`. It relocates
the same objects as the linker in the guest, in another launch mode, so
the two should leave the same memory.

They do not treat every entry alike. An entry without a symbol is
skipped here and written there; a weak symbol that is not found is
written here and skipped there; a strong one has a trap installed here;
and only the linker calls the resolver of a symbol of the object's own.
-/

namespace Muplar

namespace Loader

open Linker (Rela RelType Sym)

/-! ## The relocator -/

/-- The tables of the runtime a symbol is looked up in:
`resolve_android_symbol`, `lookup_direct_symbol` over the loaded objects,
and `unsupported_import_stub`. -/
structure HostSymbols where
  resolveAndroidSymbol : Bytes → UInt64
  lookupDirectSymbol : Bytes → UInt64
  unsupportedImportStub : Bytes → UInt64

/-- The address of a symbol, or 0. -/
def HostSymbols.lookup (host : HostSymbols) (name : Bytes) : UInt64 :=
  if host.resolveAndroidSymbol name ≠ 0 then host.resolveAndroidSymbol name
  else host.lookupDirectSymbol name

def symSize : ℕ := 24

def decodeSym (bytes : Bytes) : Sym where
  name := field bytes 0 4
  info := UInt8.ofNat (field bytes 4 1)
  shndx := field bytes 6 2
  value := u64Field bytes 8

/-- The entry of the symbol table, as the file has it. -/
def DirectSoObject.readSym (so : DirectSoObject) (file : Bytes) (symIdx : ℕ) : Option Sym :=
  match vaddrToFileOffset so.phdrs (so.dyn.symtab + UInt64.ofNat (symIdx * symSize)) 24 with
  | none => none
  | some off =>
    let (bytes, ok) := readAt file off symSize
    if ok then some (decodeSym bytes) else none

/-- What a relocation comes to: the value to write, if any, and whether
its symbol counts as unresolved. -/
structure Resolved where
  value : Option UInt64
  unresolved : Bool := false

/-- The value of a symbolic relocation. -/
def DirectSoObject.resolve (so : DirectSoObject) (host : HostSymbols) (file : Bytes) (r : Rela) :
    Resolved :=
  if r.sym = 0 ∨ so.dyn.symtab = 0 then { value := none }
  else match so.readSym file r.sym with
    | none => { value := none }
    | some sym =>
      if !sym.isUndef then { value := some (so.loadBase + sym.value + r.addend) }
      else
        let name := readDynString file so.phdrs so.dyn sym.name
        if host.lookup name = 0 then
          if sym.isWeak then { value := some r.addend }
          else if host.unsupportedImportStub name = 0 then { value := none, unresolved := true }
          else { value := some (host.unsupportedImportStub name + r.addend), unresolved := true }
        else { value := some (host.lookup name + r.addend) }

def DirectSoObject.relocate (so : DirectSoObject) (host : HostSymbols) (file : Bytes) (r : Rela) :
    Resolved :=
  match r.type with
  | .relative => { value := some (so.loadBase + r.addend) }
  | .globDat | .jumpSlot | .abs64 => so.resolve host file r
  | _ => { value := none }

/-- The memory, and the two counts. -/
structure Applied where
  memory : Memory
  applied : ℕ := 0
  unresolved : ℕ := 0

/-- One turn of the loop. -/
def DirectSoObject.applyOne (so : DirectSoObject) (access : GuestAccess) (host : HostSymbols)
    (file : Bytes) (state : Applied) (r : Rela) : Applied :=
  let out := so.relocate host file r
  let unresolved := if out.unresolved then state.unresolved + 1 else state.unresolved
  match out.value with
  | none => { state with unresolved }
  | some value =>
    { memory := access.writeU64 state.memory (so.loadBase + r.offset) value
      applied := state.applied + 1
      unresolved }

def relaSize : ℕ := 24

def decodeRela (bytes : Bytes) : Rela where
  offset := u64Field bytes 0
  info := u64Field bytes 8
  addend := u64Field bytes 16

/-- The entries that can be read, and whether all of them can. -/
def readRelas (file : Bytes) : (count : ℕ) → (off : UInt64) → List Rela × Bool
  | 0, _ => ([], true)
  | count + 1, off =>
    let (bytes, ok) := readAt file off relaSize
    if !ok then ([], false)
    else
      let (rest, ok) := readRelas file count (off + 24)
      (decodeRela bytes :: rest, ok)

/-- The table of relocations at an address of the object. -/
def DirectSoObject.relaTable (so : DirectSoObject) (file : Bytes) (relaVaddr size : UInt64) :
    List Rela × Bool :=
  if relaVaddr = 0 ∨ size = 0 then ([], true)
  else match vaddrToFileOffset so.phdrs relaVaddr size with
    | none => ([], false)
    | some off => readRelas file (size.toNat / relaSize) off

/-- `apply_direct_so_rela`, with what it returns. -/
def DirectSoObject.applyDirectSoRela (so : DirectSoObject) (access : GuestAccess)
    (host : HostSymbols) (file : Bytes) (relaVaddr size : UInt64) (m : Memory) : Applied × Bool :=
  let (relas, ok) := so.relaTable file relaVaddr size
  (relas.foldl (so.applyOne access host file) { memory := m }, ok)

/-! ## Tables that are written slot by slot -/

/-- A slot is written, or left. -/
def put (m : Memory) (slot : UInt64) : Option UInt64 → Memory
  | none => m
  | some value => m.setU64 slot value

section Put

variable {E : Type*} {slot : E → UInt64} {a b : E → Option UInt64} {m : Memory} {es : List E}

/-- Leaving a slot is writing what it has. -/
theorem put_eq {s : UInt64} (h : m.Mapped s.toNat 8) (v : Option UInt64) :
    put m s v = m.setU64 s (v.getD (m.u64 s)) := by
  cases v with
  | none => exact (Memory.setU64_u64 h).symm
  | some v => rfl

theorem mapped_put {q n : ℕ} {s : UInt64} {v : Option UInt64} :
    (put m s v).Mapped q n ↔ m.Mapped q n := by
  cases v with
  | none => rfl
  | some v => exact Memory.mapped_setU64

/-- The two tables would leave the same in this slot. -/
def Same (slot : E → UInt64) (a b : E → Option UInt64) (m : Memory) (e : E) : Prop :=
  (a e).getD (m.u64 (slot e)) = (b e).getD (m.u64 (slot e))

theorem foldl_put_of_meets (hmapped : ∀ e ∈ es, m.Mapped (slot e).toNat 8)
    (h : Machine.Meets (fun m e => put m (slot e) (a e)) (Same slot a b) m es) :
    es.foldl (fun m e => put m (slot e) (b e)) m = es.foldl (fun m e => put m (slot e) (a e)) m := by
  induction es generalizing m with
  | nil => rfl
  | cons e es ih =>
    have hhere := hmapped e List.mem_cons_self
    have hsame : put m (slot e) (b e) = put m (slot e) (a e) := by
      rw [put_eq hhere, put_eq hhere, h.1]
    rw [List.foldl_cons, List.foldl_cons, hsame]
    exact ih (fun f hf => mapped_put.mpr (hmapped f (List.mem_cons_of_mem e hf))) h.2

theorem u64_put_of_apart {s q : UInt64} {v : Option UInt64} (h : Memory.Apart s q) :
    (put m s v).u64 q = m.u64 q := by
  cases v with
  | none => rfl
  | some v => exact Memory.u64_setU64_of_apart h

theorem u64_foldl_put_of_apart {q : UInt64} (h : ∀ e ∈ es, Memory.Apart (slot e) q) :
    (es.foldl (fun m e => put m (slot e) (a e)) m).u64 q = m.u64 q := by
  induction es generalizing m with
  | nil => rfl
  | cons e es ih =>
    rw [List.foldl_cons, ih fun f hf => h f (List.mem_cons_of_mem e hf),
      u64_put_of_apart (h e List.mem_cons_self)]

/-- Where no two slots overlap, a slot ends with what its own entry
leaves. -/
theorem u64_foldl_put (hmapped : ∀ e ∈ es, m.Mapped (slot e).toNat 8)
    (hapart : es.Pairwise fun e f => Memory.Apart (slot e) (slot f)) {e : E} (he : e ∈ es) :
    (es.foldl (fun m e => put m (slot e) (a e)) m).u64 (slot e) =
      (a e).getD (m.u64 (slot e)) := by
  induction es generalizing m with
  | nil => cases he
  | cons f es ih =>
    rw [List.pairwise_cons] at hapart
    rw [List.foldl_cons]
    rcases List.mem_cons.mp he with rfl | hlater
    · have hhere := hmapped e List.mem_cons_self
      rw [u64_foldl_put_of_apart fun g hg => (hapart.1 g hg).symm, put_eq hhere,
        Memory.u64_setU64 hhere]
    · have hmapped' : ∀ g ∈ es, (put m (slot f) (a f)).Mapped (slot g).toNat 8 :=
        fun g hg => mapped_put.mpr (hmapped g (List.mem_cons_of_mem f hg))
      rw [ih hmapped' hapart.2 hlater, u64_put_of_apart (hapart.1 e hlater)]

/-- **Where two tables agree.** They leave the same memory if every entry
leaves the same where it comes; and if no two slots overlap, they leave
the same in every slot just when every entry does at the start. -/
theorem foldl_put_agree (slot : E → UInt64) (a b : E → Option UInt64)
    (hmapped : ∀ e ∈ es, m.Mapped (slot e).toNat 8) :
    (Machine.Meets (fun m e => put m (slot e) (a e)) (Same slot a b) m es →
        es.foldl (fun m e => put m (slot e) (b e)) m =
          es.foldl (fun m e => put m (slot e) (a e)) m) ∧
      (es.Pairwise (fun e f => Memory.Apart (slot e) (slot f)) →
        ((∀ e ∈ es, (es.foldl (fun m e => put m (slot e) (b e)) m).u64 (slot e) =
            (es.foldl (fun m e => put m (slot e) (a e)) m).u64 (slot e)) ↔
          ∀ e ∈ es, Same slot a b m e)) := by
  refine ⟨foldl_put_of_meets hmapped, fun hapart => forall₂_congr fun e he => ?_⟩
  rw [u64_foldl_put hmapped hapart he, u64_foldl_put hmapped hapart he]
  exact eq_comm

end Put

/-! ## One object in both programs -/

/-- The entry is of a type that both relocate. -/
def Plain (r : Rela) : Prop :=
  r.type = .relative ∨ r.type = .abs64 ∨ r.type = .globDat ∨ r.type = .jumpSlot

instance (r : Rela) : Decidable (Plain r) :=
  inferInstanceAs (Decidable (r.type = .relative ∨ _))

/-- **The same object.** The two programs have it at the same base, with
the same symbols for the entries of a table, and find the same addresses
for the same names. -/
structure SameObject (l : Linker.Linkage) (host : HostSymbols) (obj : Linker.Object) (file : Bytes)
    (so : DirectSoObject) (relas : List Rela) : Prop where
  base : obj.loadBase = so.loadBase
  table : obj.symbols = none ↔ so.dyn.symtab = 0
  sym : ∀ t, obj.symbols = some t → ∀ r ∈ relas, r.sym ≠ 0 →
    so.readSym file r.sym = some (t.sym r.sym)
  string : ∀ t, obj.symbols = some t → ∀ r ∈ relas, r.sym ≠ 0 → (t.sym r.sym).isUndef →
    readDynString file so.phdrs so.dyn (t.sym r.sym).name = t.string (t.sym r.sym).name
  lookup : ∀ name, l.lookupSymbol name = host.lookup name

/-- **Where the two relocators do the same.** The slot of an entry without
a symbol, or with a weak one that is not found, has the addend already; a
symbol of the object itself is no `ifunc`, or one that resolves to
itself; and a strong symbol that is not found gets no trap, or the slot
has the trap already. -/
def Agrees (l : Linker.Linkage) (host : HostSymbols) (obj : Linker.Object) (m : Memory) (r : Rela) :
    Prop :=
  let there := m.u64 (r.offset + obj.loadBase)
  r.type = .relative ∨
    match obj.symbols with
    | none => there = r.addend
    | some t =>
      let sym := t.sym r.sym
      if r.sym = 0 then there = r.addend
      else if !sym.isUndef then
        sym.isIfunc → l.resolver (sym.value + obj.loadBase) = sym.value + obj.loadBase
      else
        l.lookupSymbol (t.string sym.name) = 0 →
          if sym.isWeak then there = r.addend
          else
            host.unsupportedImportStub (t.string sym.name) ≠ 0 →
              there = host.unsupportedImportStub (t.string sym.name) + r.addend

section Agree

variable {l : Linker.Linkage} {host : HostSymbols} {obj : Linker.Object} {file : Bytes}
  {so : DirectSoObject} {relas : List Rela} {m : Memory} {r : Rela}

/-- What the linker writes. -/
def written (obj : Linker.Object) (l : Linker.Linkage) (r : Rela) : Option UInt64 :=
  if r.type = .relative then some (obj.loadBase + r.addend)
  else (obj.symbolValue l r.sym).map (· + r.addend)

theorem linker_applyOne_eq (hr : Plain r) :
    obj.applyOne l m r = put m (r.offset + obj.loadBase) (written obj l r) := by
  rw [Linker.Object.applyOne, written]
  rcases hr with h | h | h | h
  · rw [h, if_pos rfl]
    rfl
  all_goals
    rw [h, if_neg (by decide)]
    simp only
    cases obj.symbolValue l r.sym <;> rfl

theorem relocate_eq_resolve (hr : Plain r) (hne : r.type ≠ .relative) :
    so.relocate host file r = so.resolve host file r := by
  rw [DirectSoObject.relocate]
  rcases hr with h | h | h | h
  · exact absurd h hne
  all_goals rw [h]

theorem memory_applyOne_eq {access : GuestAccess} (haccess : access.Documented)
    (host : HostSymbols) (file : Bytes) {state : Applied}
    (hmapped : state.memory.Mapped (so.loadBase + r.offset).toNat 8) :
    (so.applyOne access host file state r).memory =
      put state.memory (so.loadBase + r.offset) (so.relocate host file r).value := by
  rw [DirectSoObject.applyOne]
  cases (so.relocate host file r).value with
  | none => rfl
  | some value => exact haccess.write _ _ _ (by rw [length_encodeLe]; exact hmapped)

/-- Writing `x` in one program and `y` in the other, with one addend. -/
theorem getD_add_iff {there addend x y : UInt64} :
    ((some x).map (· + addend)).getD there = (some (y + addend)).getD there ↔ x = y :=
  UInt64.add_left_inj addend

/-- **One entry.** -/
theorem agrees_iff (hsame : SameObject l host obj file so relas) (hr : r ∈ relas)
    (hplain : Plain r) :
    Agrees l host obj m r ↔
      (written obj l r).getD (m.u64 (r.offset + obj.loadBase)) =
        (so.relocate host file r).value.getD (m.u64 (r.offset + obj.loadBase)) := by
  generalize hthere : m.u64 (r.offset + obj.loadBase) = there
  by_cases hrel : r.type = .relative
  · rw [Agrees, written, if_pos hrel, DirectSoObject.relocate, hrel, hsame.base]
    simp
  rw [Agrees, or_iff_right hrel, hthere, written, if_neg hrel, relocate_eq_resolve hplain hrel,
    Linker.Object.symbolValue, DirectSoObject.resolve]
  cases htable : obj.symbols with
  | none =>
    rw [if_pos (Or.inr (hsame.table.mp htable))]
    simp only [Option.map_some, Option.getD_some, Option.getD_none, UInt64.zero_add]
    exact eq_comm
  | some t =>
    have hsymtab : so.dyn.symtab ≠ 0 := by
      intro h
      rw [hsame.table.mpr h] at htable
      cases htable
    simp only
    by_cases hzero : r.sym = 0
    · rw [if_pos hzero, if_pos hzero, if_pos (Or.inl hzero)]
      simp only [Option.map_some, Option.getD_some, Option.getD_none, UInt64.zero_add]
      exact eq_comm
    rw [if_neg hzero, if_neg hzero, if_neg (not_or.mpr ⟨hzero, hsymtab⟩),
      hsame.sym t htable r hr hzero]
    simp only
    generalize hsym : t.sym r.sym = sym
    by_cases hdefined : (!sym.isUndef) = true
    · -- a symbol of the object's own
      rw [if_pos hdefined, if_pos hdefined, if_pos hdefined, UInt64.add_comm so.loadBase,
        ← hsame.base, getD_add_iff]
      by_cases hifunc : sym.isIfunc = true
      · simp [hifunc]
      · simp [hifunc]
    · have hundef : sym.isUndef = true := by simpa using hdefined
      have hstring := hsame.string t htable r hr hzero (by rw [hsym]; exact hundef)
      rw [hsym] at hstring
      rw [if_neg hdefined, if_neg hdefined, if_neg hdefined, hstring, ← hsame.lookup]
      generalize t.string sym.name = name
      by_cases hfound : l.lookupSymbol name = 0
      · rw [if_pos hfound, if_pos hfound]
        by_cases hweak : sym.isWeak = true
        · simp [hfound, hweak]
        · by_cases htrap : host.unsupportedImportStub name = 0
          · simp [hweak, htrap]
          · simp [hfound, hweak, htrap]
      · rw [if_neg hfound, if_neg hfound, getD_add_iff]
        simp [hfound]

/-- The slots of a table do not overlap. -/
def ApartSlots (base : UInt64) (relas : List Rela) : Prop :=
  relas.Pairwise fun r s => Memory.Apart (r.offset + base) (s.offset + base)

theorem linker_foldl_eq (hplain : ∀ r ∈ relas, Plain r) :
    obj.applyRela l relas m =
      relas.foldl (fun m r => put m (r.offset + obj.loadBase) (written obj l r)) m := by
  rw [Linker.Object.applyRela]
  induction relas generalizing m with
  | nil => rfl
  | cons r relas ih =>
    rw [List.foldl_cons, List.foldl_cons, linker_applyOne_eq (hplain r List.mem_cons_self)]
    exact ih fun s hs => hplain s (List.mem_cons_of_mem r hs)

theorem host_foldl_eq {access : GuestAccess} (haccess : access.Documented) {state : Applied}
    (hmapped : ∀ r ∈ relas, state.memory.Mapped (so.loadBase + r.offset).toNat 8) :
    (relas.foldl (so.applyOne access host file) state).memory =
      relas.foldl (fun m r => put m (so.loadBase + r.offset) (so.relocate host file r).value)
        state.memory := by
  induction relas generalizing state with
  | nil => rfl
  | cons r relas ih =>
    have hhere := memory_applyOne_eq haccess host file (hmapped r List.mem_cons_self)
    rw [List.foldl_cons, List.foldl_cons, ← hhere]
    refine ih fun s hs => ?_
    rw [hhere, mapped_put]
    exact hmapped s (List.mem_cons_of_mem r hs)

theorem meets_iff (hsame : SameObject l host obj file so relas) (hplain : ∀ r ∈ relas, Plain r)
    {entries : List Rela} (hentries : ∀ r ∈ entries, r ∈ relas) :
    Machine.Meets (obj.applyOne l) (Agrees l host obj) m entries ↔
      Machine.Meets (fun m r => put m (r.offset + obj.loadBase) (written obj l r))
        (Same (fun r => r.offset + obj.loadBase) (written obj l)
          fun r => (so.relocate host file r).value) m entries := by
  induction entries generalizing m with
  | nil => rfl
  | cons r entries ih =>
    have hr := hentries r List.mem_cons_self
    have hhere : Agrees l host obj m r ↔ Same (fun r => r.offset + obj.loadBase) (written obj l)
        (fun r => (so.relocate host file r).value) m r := agrees_iff hsame hr (hplain r hr)
    have hlater := ih (m := put m (r.offset + obj.loadBase) (written obj l r))
      fun s hs => hentries s (List.mem_cons_of_mem r hs)
    rw [← linker_applyOne_eq (hplain r hr)] at hlater
    refine (and_congr hhere hlater).trans (Iff.of_eq ?_)
    rw [linker_applyOne_eq (hplain r hr)]
    rfl

end Agree

/-! ## An object of two symbols -/

/-- A file with two relocations at `0x1000`, and a symbol table after
them. -/
def twoRelas (first second : Rela) : Bytes :=
  [first, second].flatMap (fun r =>
      encodeLe 8 r.offset.toNat ++ encodeLe 8 r.info.toNat ++ encodeLe 8 r.addend.toNat) ++
    List.replicate 24 0 ++ encodeLe 4 0 ++ [0x12, 0] ++ encodeLe 2 1 ++ encodeLe 8 0x40 ++
    encodeLe 8 0

def twoSymbols : Linker.Symbols where
  sym i := if i = 1 then ⟨0, 0x12, 1, 0x40⟩ else ⟨0, 0, 0, 0⟩
  string _ := []
  strsz := 0

def twoObject : Linker.Object :=
  { loadBase := 0x10000, symbols := some twoSymbols }

def twoSo : DirectSoObject where
  path := []
  soname := []
  loadBase := 0x10000
  loadMin := 0x1000
  loadMax := 0x2000
  phdrs := [⟨ptLoad, 4, 0, 0x1000, 0x60, 0x60⟩]
  dyn := { symtab := 0x1030 }

/-- The host finds nothing. -/
def emptyHost : HostSymbols where
  resolveAndroidSymbol _ := 0
  lookupDirectSymbol _ := 0
  unsupportedImportStub _ := 0

/-- The two slots. -/
def twoSlots : Memory :=
  .ofBytes 0x10100 (List.replicate 16 0) (by decide)

theorem sameObject_two (first second : Rela)
    (hsym : ∀ r ∈ [first, second], r.sym ≠ 0 →
      twoSo.readSym (twoRelas first second) r.sym = some (twoSymbols.sym r.sym) ∧
        (twoSymbols.sym r.sym).isUndef = false) :
    SameObject .empty emptyHost twoObject (twoRelas first second) twoSo [first, second] where
  base := rfl
  table := by decide
  sym t ht r hr hne := by
    cases ht
    exact (hsym r hr hne).1
  string t ht r hr hne hundef := by
    cases ht
    rw [(hsym r hr hne).2] at hundef
    cases hundef
  lookup _ := rfl

theorem mapped_two {r : Rela} (hr : r.offset = 0x100 ∨ r.offset = 0x108) :
    twoSlots.Mapped (r.offset + twoObject.loadBase).toNat 8 := by
  have hmemory : twoSlots.Mapped 0x10100 16 := (Memory.reads_ofBytes (by decide)).mapped
  rcases hr with hr | hr
  · rw [hr]
    exact hmemory.within (q := 0x10100) (by omega) (by omega)
  · rw [hr]
    exact hmemory.within (q := 0x10108) (by omega) (by omega)

theorem plainAccess_documented : plainAccess.Documented :=
  ⟨fun _ _ _ _ => rfl, fun _ _ _ _ => rfl⟩

end Loader

end Muplar
