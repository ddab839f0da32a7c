import Muplar.Linker.GnuHash
/-!
# The linker — thread-local symbols by name

`lookup_symbol` asks the objects one after the other, each through its
hash section, and the first that has the name answers. The relocations
against thread-local symbols do not call it: they scan 4095 entries of
each symbol table, and go on where what they found comes to 0.

`tls_definition_iff` says when the two come to the same object.
-/

namespace Muplar

namespace Linker

/-- `Object`, with `gnu_hash`. -/
structure HashedObject extends Object where
  gnuHash : Option GnuHash := none

/-- A symbol of an object, and the object's place in `g_objects`. -/
structure Definition where
  index : ℕ
  obj : HashedObject
  sym : Sym

namespace Definition

/-- The same, with one object more in front. -/
def next (d : Definition) : Definition :=
  { d with index := d.index + 1 }

/-- What `lookup_symbol` returns. -/
def address (d : Definition) (resolver : UInt64 → UInt64) : UInt64 :=
  let value := d.sym.value + d.obj.loadBase
  if d.sym.isIfunc then resolver value else value

/-- What a thread-local relocation takes. -/
def place (d : Definition) : UInt64 :=
  d.obj.tlsOffset + d.sym.value

@[simp] theorem next_index (d : Definition) : d.next.index = d.index + 1 := rfl
@[simp] theorem next_obj (d : Definition) : d.next.obj = d.obj := rfl
@[simp] theorem next_sym (d : Definition) : d.next.sym = d.sym := rfl
@[simp] theorem next_place (d : Definition) : d.next.place = d.place := rfl

end Definition

/-! ## lookup_symbol -/

/-- The names that the linker has functions of its own for. -/
def ownNames : List Bytes :=
  [ascii "__libc_init", ascii "__loader_shared_globals", ascii "dlopen", ascii "dlsym",
    ascii "dlclose", ascii "dlerror", ascii "dl_iterate_phdr"]

/-- The scan of one object's symbol table. -/
def HashedObject.scan (obj : HashedObject) (name : Bytes) : Option Sym :=
  obj.symbols.bind fun table => table.scan name 4095 1

/-- One turn of the loop of `lookup_symbol`. -/
def HashedObject.lookup (obj : HashedObject) (name : Bytes) : Option Sym :=
  match obj.gnuHash with
  | some g => obj.symbols.bind fun table => (lookupGnuHash g table name).map table.sym
  | none => obj.scan name

/-- The loop of `lookup_symbol`. -/
def lookupObjects (name : Bytes) : List HashedObject → Option Definition
  | [] => none
  | obj :: objects =>
    match obj.lookup name with
    | some s => some ⟨0, obj, s⟩
    | none => (lookupObjects name objects).map Definition.next

/-- The definition that `lookup_symbol` finds in the objects. -/
def lookupDefinition (name : Bytes) (objects : List HashedObject) : Option Definition :=
  if name ∈ ownNames then none else lookupObjects name objects

/-- `lookup_symbol`, where `own` is where the linker's functions are. -/
def lookupSymbol (own : Bytes → UInt64) (resolver : UInt64 → UInt64)
    (objects : List HashedObject) (name : Bytes) : UInt64 :=
  if name ∈ ownNames then own name
  else
    match lookupObjects name objects with
    | none => 0
    | some d => d.address resolver

/-! ## Thread-local relocations -/

/-- The definition that `sym_val` is from when the scans are over: the
first that does not come to 0, or else the last that does. -/
def scanObjects (name : Bytes) : List HashedObject → Option Definition
  | [] => none
  | obj :: objects =>
    let later := (scanObjects name objects).map Definition.next
    match obj.scan name with
    | none => later
    | some s =>
      if obj.tlsOffset + s.value ≠ 0 then some ⟨0, obj, s⟩
      else later.or (some ⟨0, obj, s⟩)

/-- The definition that a thread-local relocation of the object at `n`
uses: the object's own, if it has one, and the object itself where no
symbol is named. -/
def HashedObject.tlsDefinition (obj : HashedObject) (n symIdx : ℕ)
    (objects : List HashedObject) : Option Definition :=
  match obj.symbols with
  | none => some ⟨n, obj, ⟨0, 0, 0, 0⟩⟩
  | some table =>
    if symIdx = 0 then some ⟨n, obj, ⟨0, 0, 0, 0⟩⟩
    else if !(table.sym symIdx).isUndef then some ⟨n, obj, table.sym symIdx⟩
    else scanObjects (table.nameAt symIdx) objects

section

variable {objects before after : List HashedObject} {obj : HashedObject} {table : Symbols}
variable {name : Bytes} {n symIdx : ℕ} {d : Definition}

/-- The address of the definition is what `lookup_symbol` returns. -/
theorem lookupSymbol_of_definition {own : Bytes → UInt64} {resolver : UInt64 → UInt64}
    (h : lookupDefinition name objects = some d) :
    lookupSymbol own resolver objects name = d.address resolver := by
  unfold lookupDefinition at h
  rw [lookupSymbol]
  split_ifs at h ⊢ with hown
  rw [h]

/-- `sym_val` is the place of that definition. -/
theorem tlsLookup_eq_place : tlsLookup name (objects.map HashedObject.toObject) =
    ((scanObjects name objects).map Definition.place).getD 0 := by
  induction objects with
  | nil => rfl
  | cons obj objects ih =>
    have hlater : (((scanObjects name objects).map Definition.next).map Definition.place).getD 0 =
        tlsLookup name (objects.map HashedObject.toObject) := by
      rw [ih, Option.map_map]
      rfl
    rw [List.map_cons, tlsLookup, scanObjects]
    change (match obj.scan name with | none => _ | some s => _) = _
    cases hscan : obj.scan name with
    | none => exact hlater.symm
    | some s =>
      dsimp only
      by_cases hzero : obj.tlsOffset + s.value ≠ 0
      · rw [if_pos hzero, if_pos hzero]
        rfl
      · rw [if_neg hzero, if_neg hzero, ← hlater]
        -- what the scan found is 0, as is what is left where no other finds any
        cases scanObjects name objects with
        | none => exact (not_not.mp hzero).symm
        | some d => rfl

/-- **What a thread-local relocation takes** is the place of the definition
it uses. -/
theorem tlsValue_eq_place {l : Linkage} (hl : l.objects = objects.map HashedObject.toObject) :
    obj.toObject.tlsValue l symIdx =
      ((obj.tlsDefinition n symIdx objects).map Definition.place).getD 0 := by
  rw [Object.tlsValue, HashedObject.tlsDefinition]
  cases obj.symbols with
  | none => exact (UInt64.add_zero _).symm
  | some table =>
    dsimp only
    split_ifs
    · exact (UInt64.add_zero _).symm
    · rfl
    · rw [hl]
      exact tlsLookup_eq_place

/-! ## What a scan finds -/

/-- A scan from the first symbol on finds the name at an index: the
defined symbols before it have other names, and names in the string
table. -/
structure Symbols.ScannedAt (table : Symbols) (name : Bytes) (j : ℕ) : Prop where
  pos : 1 ≤ j
  short : j < 4096
  defined : (table.sym j).isUndef = false
  inside : (table.sym j).name < table.strsz
  named : table.nameAt j = name
  before : ∀ k, 1 ≤ k → k < j → (table.sym k).isUndef = false →
    (table.sym k).name < table.strsz ∧ table.nameAt k ≠ name

/-- The same, of a scan from an index on. -/
theorem scan_eq_some_iff {s : Sym} {count j : ℕ} : table.scan name count j = some s ↔
    ∃ i, j ≤ i ∧ i < j + count ∧ (table.sym i).isUndef = false ∧
      (table.sym i).name < table.strsz ∧ table.nameAt i = name ∧
      (∀ k, j ≤ k → k < i → (table.sym k).isUndef = false →
        (table.sym k).name < table.strsz ∧ table.nameAt k ≠ name) ∧ table.sym i = s := by
  induction count generalizing j with
  | zero =>
    refine ⟨nofun, ?_⟩
    rintro ⟨i, hle, hlt, -⟩
    omega
  | succ count ih =>
    -- the search goes on behind a symbol that is passed over
    have hskip : ∀ {p : Prop}, ((table.sym j).isUndef = false →
        (table.sym j).name < table.strsz ∧ table.nameAt j ≠ name) →
        (table.scan name count (j + 1) = some s ↔ p) →
        ((∃ i, j ≤ i ∧ i < j + (count + 1) ∧ (table.sym i).isUndef = false ∧
          (table.sym i).name < table.strsz ∧ table.nameAt i = name ∧
          (∀ k, j ≤ k → k < i → (table.sym k).isUndef = false →
            (table.sym k).name < table.strsz ∧ table.nameAt k ≠ name) ∧
          table.sym i = s) ↔ p) := by
      intro p hpass hp
      rw [← hp, ih]
      constructor
      · rintro ⟨i, hle, hlt, hdef, hin, hname, hbefore, hs⟩
        have hne : i ≠ j := fun h => (hpass (h ▸ hdef)).2 (h ▸ hname)
        exact ⟨i, by omega, by omega, hdef, hin, hname, fun k hk => hbefore k (by omega), hs⟩
      · rintro ⟨i, hle, hlt, hdef, hin, hname, hbefore, hs⟩
        refine ⟨i, by omega, by omega, hdef, hin, hname, fun k hk hki hd => ?_, hs⟩
        rcases Nat.eq_or_lt_of_le hk with rfl | hlater
        · exact hpass hd
        · exact hbefore k hlater hki hd
    rw [Symbols.scan]
    by_cases hundef : (table.sym j).isUndef = true
    · rw [if_pos hundef]
      exact (hskip (fun h => absurd (hundef.symm.trans h) (by decide)) Iff.rfl).symm
    have hdef : (table.sym j).isUndef = false := Bool.eq_false_iff.mpr hundef
    rw [if_neg hundef]
    by_cases hout : table.strsz ≤ (table.sym j).name
    · -- a defined symbol without a name ends the scan
      rw [if_pos hout]
      refine ⟨nofun, ?_⟩
      rintro ⟨i, hle, -, -, hin, -, hbefore, -⟩
      rcases Nat.eq_or_lt_of_le hle with rfl | hlt
      · omega
      · have hj := (hbefore j (Nat.le_refl _) hlt hdef).1
        omega
    rw [if_neg hout]
    by_cases hname : table.string (table.sym j).name = name
    · rw [if_pos hname, Option.some.injEq]
      constructor
      · intro hs
        exact ⟨j, Nat.le_refl _, by omega, hdef, by omega, hname, fun k _ _ => by omega, hs⟩
      · rintro ⟨i, hle, -, -, -, -, hbefore, hs⟩
        rcases Nat.eq_or_lt_of_le hle with rfl | hlt
        · exact hs
        · exact absurd hname (hbefore j (Nat.le_refl _) hlt hdef).2
    · rw [if_neg hname]
      exact (hskip (fun _ => ⟨by omega, hname⟩) Iff.rfl).symm

theorem scan_eq_some_iff_scannedAt {s : Sym} :
    table.scan name 4095 1 = some s ↔ ∃ j, table.ScannedAt name j ∧ table.sym j = s := by
  rw [scan_eq_some_iff]
  constructor
  · rintro ⟨j, hle, hlt, hdef, hin, hname, hbefore, hs⟩
    exact ⟨j, ⟨hle, hlt, hdef, hin, hname, hbefore⟩, hs⟩
  · rintro ⟨j, ⟨hle, hlt, hdef, hin, hname, hbefore⟩, hs⟩
    exact ⟨j, hle, hlt, hdef, hin, hname, hbefore, hs⟩

/-! ## Agreement -/

/-- The scan of the object's table finds a symbol. -/
def HashedObject.Scans (obj : HashedObject) (name : Bytes) (s : Sym) : Prop :=
  ∃ table j, obj.symbols = some table ∧ table.ScannedAt name j ∧ table.sym j = s

/-- The object's hash section has the name; its scan, if it has none. -/
def HashedObject.Defines (obj : HashedObject) (name : Bytes) : Prop :=
  match obj.gnuHash with
  | some g => ∃ table, obj.symbols = some table ∧ (lookupGnuHash g table name).isSome
  | none => ∃ s, obj.Scans name s

/-- **Where the scans come to the first object that defines a name.** The
scan of that object finds a symbol; whatever those before it find comes to
0; and if its own symbol comes to 0 too, the scans behind it find none. -/
def ScansFollow (name : Bytes) (objects : List HashedObject) : Prop :=
  ∀ before obj after, objects = before ++ obj :: after → obj.Defines name →
    (∀ o ∈ before, ¬o.Defines name) →
      (∃ s, obj.Scans name s) ∧
      (∀ o ∈ before, ∀ s, o.Scans name s → o.tlsOffset + s.value = 0) ∧
      ∀ s, obj.Scans name s → obj.tlsOffset + s.value = 0 → ∀ o ∈ after, ∀ s', ¬o.Scans name s'

theorem scan_eq_some_iff_scans {s : Sym} : obj.scan name = some s ↔ obj.Scans name s := by
  unfold HashedObject.scan HashedObject.Scans
  rw [Option.bind_eq_some_iff]
  constructor
  · rintro ⟨table, htable, hscan⟩
    obtain ⟨j, hj, hs⟩ := scan_eq_some_iff_scannedAt.mp hscan
    exact ⟨table, j, htable, hj, hs⟩
  · rintro ⟨table, j, htable, hj, hs⟩
    exact ⟨table, htable, scan_eq_some_iff_scannedAt.mpr ⟨j, hj, hs⟩⟩

theorem scan_eq_none_iff : obj.scan name = none ↔ ∀ s, ¬obj.Scans name s := by
  rw [Option.eq_none_iff_forall_ne_some]
  exact forall_congr' fun s => not_congr scan_eq_some_iff_scans

theorem defines_iff : obj.Defines name ↔ (obj.lookup name).isSome := by
  rw [HashedObject.Defines, HashedObject.lookup]
  cases obj.gnuHash with
  | none =>
    rw [Option.isSome_iff_exists]
    exact exists_congr fun s => scan_eq_some_iff_scans.symm
  | some g =>
    cases obj.symbols with
    | none => simp
    | some table => simp

theorem not_defines_iff : ¬obj.Defines name ↔ obj.lookup name = none := by
  rw [defines_iff, Option.not_isSome_iff_eq_none]

/-- The loop of `lookup_symbol` ends at the first object that defines the
name. -/
theorem lookupObjects_eq_some_iff : lookupObjects name objects = some d ↔
    ∃ before after, objects = before ++ d.obj :: after ∧ d.index = before.length ∧
      d.obj.lookup name = some d.sym ∧ ∀ o ∈ before, ¬o.Defines name := by
  induction objects generalizing d with
  | nil =>
    refine ⟨nofun, ?_⟩
    rintro ⟨before, after, h, -⟩
    exact absurd h (by simp)
  | cons obj objects ih =>
    rw [lookupObjects]
    cases hlookup : obj.lookup name with
    | some s =>
      dsimp only
      constructor
      · intro h
        cases h
        exact ⟨[], objects, rfl, rfl, hlookup, nofun⟩
      · rintro ⟨before, after, h, hindex, hs, hbefore⟩
        cases before with
        | nil =>
          obtain ⟨i, o, s'⟩ := d
          cases h
          rw [hlookup] at hs
          cases hs
          cases hindex
          rfl
        | cons o before =>
          cases h
          have hnone := not_defines_iff.mp (hbefore obj List.mem_cons_self)
          exact nomatch hnone.symm.trans hlookup
    | none =>
      dsimp only
      rw [Option.map_eq_some_iff]
      constructor
      · rintro ⟨d', hd', rfl⟩
        obtain ⟨before, after, h, hindex, hs, hbefore⟩ := ih.mp hd'
        refine ⟨obj :: before, after, congrArg (obj :: ·) h, congrArg (· + 1) hindex, hs, ?_⟩
        intro o ho
        rcases List.mem_cons.mp ho with rfl | ho
        · exact not_defines_iff.mpr hlookup
        · exact hbefore o ho
      · rintro ⟨before, after, h, hindex, hs, hbefore⟩
        cases before with
        | nil =>
          cases h
          exact nomatch hs.symm.trans hlookup
        | cons o before =>
          cases h
          refine ⟨⟨before.length, d.obj, d.sym⟩, ih.mpr ⟨before, after, rfl, rfl, hs, ?_⟩, ?_⟩
          · exact fun o ho => hbefore o (List.mem_cons_of_mem _ ho)
          · obtain ⟨i, o', s'⟩ := d
            cases hindex
            rfl

theorem scanObjects_eq_none_iff :
    scanObjects name objects = none ↔ ∀ o ∈ objects, ∀ s, ¬o.Scans name s := by
  induction objects with
  | nil => exact iff_of_true rfl nofun
  | cons obj objects ih =>
    rw [List.forall_mem_cons, ← ih, ← scan_eq_none_iff, scanObjects]
    cases hscan : obj.scan name with
    | none =>
      dsimp only
      rw [Option.map_eq_none_iff, eq_self_iff_true, true_and]
    | some s =>
      refine iff_of_false ?_ (fun h => nomatch h.1)
      dsimp only
      split_ifs
      · nofun
      · rw [Option.or_eq_none_iff]
        exact fun h => nomatch h.2

theorem exists_next_iff {found : Option Definition} {k : ℕ} :
    (∃ d, found.map Definition.next = some d ∧ d.index = k + 1) ↔
      ∃ d, found = some d ∧ d.index = k := by
  cases found with
  | none => exact iff_of_false (fun ⟨d, h, _⟩ => nomatch h) (fun ⟨d, h, _⟩ => nomatch h)
  | some found =>
    simp only [Option.map_some, Option.some.injEq, exists_eq_left', Definition.next_index,
      Nat.add_right_cancel_iff]

/-- The object in front is not the one that is counted behind it. -/
theorem exists_or_iff {found : Option Definition} {s : Sym} {k : ℕ} :
    (∃ d, (found.map Definition.next).or (some ⟨0, obj, s⟩) = some d ∧ d.index = k + 1) ↔
      ∃ d, found = some d ∧ d.index = k := by
  refine Iff.trans ?_ exists_next_iff
  cases found with
  | none =>
    refine iff_of_false ?_ (fun ⟨d, h, _⟩ => nomatch h)
    rintro ⟨d, h, hindex⟩
    cases h
    cases hindex
  | some found => exact Iff.rfl

/-- The scans of thread-local relocations end at an object. -/
theorem scanObjects_index_iff :
    (∃ d, scanObjects name (before ++ obj :: after) = some d ∧ d.index = before.length) ↔
      (∃ s, obj.Scans name s) ∧
      (∀ o ∈ before, ∀ s, o.Scans name s → o.tlsOffset + s.value = 0) ∧
      ∀ s, obj.Scans name s → obj.tlsOffset + s.value = 0 →
        ∀ o ∈ after, ∀ s', ¬o.Scans name s' := by
  induction before with
  | nil =>
    rw [List.nil_append, scanObjects]
    cases hscan : obj.scan name with
    | none =>
      refine iff_of_false ?_ fun ⟨⟨s, hs⟩, _⟩ => scan_eq_none_iff.mp hscan s hs
      rintro ⟨d, hd, hindex⟩
      obtain ⟨d', -, rfl⟩ := Option.map_eq_some_iff.mp hd
      cases hindex
    | some s =>
      have hs := scan_eq_some_iff_scans.mp hscan
      have honly : ∀ {s'}, obj.Scans name s' → s' = s := fun h =>
        Option.some_inj.mp ((scan_eq_some_iff_scans.mpr h).symm.trans hscan)
      dsimp only
      by_cases hzero : obj.tlsOffset + s.value = 0
      · rw [if_neg (not_not.mpr hzero)]
        constructor
        · rintro ⟨d, hd, hindex⟩
          refine ⟨⟨s, hs⟩, nofun, fun _ _ _ => scanObjects_eq_none_iff.mp ?_⟩
          -- one found behind would be counted from 1
          cases hafter : scanObjects name after with
          | none => rfl
          | some d' =>
            rw [hafter] at hd
            cases hd
            cases hindex
        · rintro ⟨-, -, hnone⟩
          rw [scanObjects_eq_none_iff.mpr (hnone s hs hzero)]
          exact ⟨_, rfl, rfl⟩
      · rw [if_pos hzero]
        refine iff_of_true ⟨_, rfl, rfl⟩ ⟨⟨s, hs⟩, nofun, fun s' hs' h => ?_⟩
        exact absurd (honly hs' ▸ h) hzero
  | cons o before ih =>
    rw [List.cons_append, scanObjects, List.forall_mem_cons, List.length_cons]
    cases hscan : o.scan name with
    | none =>
      have hnone : ∀ s, o.Scans name s → o.tlsOffset + s.value = 0 := fun s hs =>
        absurd hs (scan_eq_none_iff.mp hscan s)
      dsimp only
      rw [exists_next_iff, ih, and_iff_right hnone]
    | some s =>
      have hs := scan_eq_some_iff_scans.mp hscan
      dsimp only
      by_cases hzero : o.tlsOffset + s.value = 0
      · have hall : ∀ s, o.Scans name s → o.tlsOffset + s.value = 0 := fun s' hs' => by
          rw [← Option.some_inj.mp (hscan.symm.trans (scan_eq_some_iff_scans.mpr hs'))]
          exact hzero
        rw [if_neg (not_not.mpr hzero), exists_or_iff, ih, and_iff_right hall]
      · rw [if_pos hzero]
        refine iff_of_false ?_ fun h => hzero (h.2.1.1 s hs)
        rintro ⟨d, hd, hindex⟩
        cases hd
        cases hindex

/-- The definition that is used for a symbol the object has none of is
that of `lookup_symbol`, where the scans follow. -/
theorem scanObjects_agrees_iff :
    (∀ d, lookupObjects name objects = some d →
      ∃ d', scanObjects name objects = some d' ∧ d'.index = d.index) ↔
    ScansFollow name objects := by
  constructor
  · rintro h before obj after rfl hdefines hbefore
    obtain ⟨s, hs⟩ := Option.isSome_iff_exists.mp (defines_iff.mp hdefines)
    exact scanObjects_index_iff.mp
      (h ⟨before.length, obj, s⟩ (lookupObjects_eq_some_iff.mpr
        ⟨before, after, rfl, rfl, hs, hbefore⟩))
  · intro h d hd
    obtain ⟨before, after, hobjects, hindex, hs, hbefore⟩ := lookupObjects_eq_some_iff.mp hd
    rw [hobjects, hindex]
    have hdefines : d.obj.Defines name := defines_iff.mpr (Option.isSome_iff_exists.mpr ⟨_, hs⟩)
    exact scanObjects_index_iff.mpr (h before d.obj after hobjects hdefines hbefore)

theorem lookupObjects_eq_none_iff :
    lookupObjects name objects = none ↔ ∀ o ∈ objects, ¬o.Defines name := by
  induction objects with
  | nil => exact iff_of_true rfl nofun
  | cons obj objects ih =>
    rw [List.forall_mem_cons, ← ih, not_defines_iff, lookupObjects]
    cases obj.lookup name with
    | none =>
      dsimp only
      rw [Option.map_eq_none_iff, eq_self_iff_true, true_and]
    | some s => exact iff_of_false nofun fun h => nomatch h.1

/-- And for a symbol of its own, where the object has the name and none
before it has, if any has. -/
theorem own_agrees_iff (hobj : objects[n]? = some obj) :
    (∀ d, lookupObjects name objects = some d → n = d.index) ↔
      (∀ o ∈ objects, ¬o.Defines name) ∨
        obj.Defines name ∧ ∀ o ∈ objects.take n, ¬o.Defines name := by
  cases hlookup : lookupObjects name objects with
  | none => exact iff_of_true nofun (.inl (lookupObjects_eq_none_iff.mp hlookup))
  | some d =>
    obtain ⟨before, after, hobjects, hindex, hs, hbefore⟩ := lookupObjects_eq_some_iff.mp hlookup
    have hdefines : d.obj.Defines name := defines_iff.mpr (Option.isSome_iff_exists.mpr ⟨_, hs⟩)
    have hmem : d.obj ∈ objects := by
      rw [hobjects]
      exact List.mem_append_right _ List.mem_cons_self
    rw [or_iff_right fun h => h d.obj hmem hdefines]
    constructor
    · intro h
      have hn : n = before.length := (h d rfl).trans hindex
      rw [hobjects, hn, List.getElem?_append_right (Nat.le_refl _), Nat.sub_self] at hobj
      cases hobj
      rw [hobjects, hn, List.take_left]
      exact ⟨hdefines, hbefore⟩
    · rintro ⟨hown, hnone⟩ d' hd'
      cases hd'
      rw [hindex]
      -- neither of the two that define the name is before the other
      rcases Nat.lt_trichotomy n before.length with hlt | heq | hgt
      · rw [hobjects, List.getElem?_append_left hlt] at hobj
        exact absurd hown (hbefore obj (List.mem_of_getElem? hobj))
      · exact heq
      · refine absurd hdefines (hnone d.obj ?_)
        rw [hobjects, List.take_append, List.take_cons (by omega)]
        exact List.mem_append_right _ List.mem_cons_self

/-- **Where thread-local symbols resolve like others.** A relocation of the
object at `n` names a symbol of its table. What `lookup_symbol` finds of
that name in the objects is in the object whose definition the relocation
uses, if and only if the name is one of the linker's own, or: the object
leaves the symbol to others, and the scans follow; or it has a definition
of its own, and has the name first if any object has it. -/
theorem tls_definition_iff (hobj : objects[n]? = some obj) (htable : obj.symbols = some table)
    {r : Rela} (hsym : r.sym ≠ 0) :
    (∀ d, lookupDefinition (table.nameAt r.sym) objects = some d →
      ∃ d', obj.tlsDefinition n r.sym objects = some d' ∧ d'.index = d.index) ↔
    (table.nameAt r.sym ∈ ownNames ∨
      (table.sym r.sym).isUndef = true ∧ ScansFollow (table.nameAt r.sym) objects ∨
      (table.sym r.sym).isUndef = false ∧
        ((∀ o ∈ objects, ¬o.Defines (table.nameAt r.sym)) ∨
          obj.Defines (table.nameAt r.sym) ∧
            ∀ o ∈ objects.take n, ¬o.Defines (table.nameAt r.sym))) := by
  rw [lookupDefinition, HashedObject.tlsDefinition, htable]
  dsimp only
  rw [if_neg hsym]
  by_cases hown : table.nameAt r.sym ∈ ownNames
  · rw [if_pos hown]
    exact iff_of_true nofun (.inl hown)
  rw [if_neg hown, or_iff_right hown]
  cases hundef : (table.sym r.sym).isUndef with
  | true =>
    rw [if_neg (by decide), scanObjects_agrees_iff]
    simp
  | false =>
    rw [if_pos (by decide), ← own_agrees_iff hobj]
    simp

end

/-! ## Near and far -/

/-- A table that leaves `tls` to others. -/
def tlsImport : Symbols where
  sym i := ⟨if i = 1 then 1 else 0, 0x16, 0, 0⟩
  string := fun | 1 => ascii "tls" | _ => []
  strsz := 5

/-- A table with `tls` at an index, and only symbols from elsewhere in
front of it. -/
def tlsExport (i : ℕ) : Symbols where
  sym j := ⟨if j = i then 1 else 0, 0x16, if j = i then 9 else 0, if j = i then 8 else 0⟩
  string := fun | 1 => ascii "tls" | _ => []
  strsz := 5

/-- An executable that needs `tls`. -/
def tlsUser : HashedObject where
  symbols := some tlsImport

/-- A library with `tls` as its first symbol. -/
def nearLibrary : HashedObject where
  symbols := some (tlsExport 1)
  tlsOffset := 256

/-- A hash section of one bucket, with `tls` at 5000. -/
def tlsHash : GnuHash where
  word
    | 0 => 1
    | 1 => 5000
    | 2 => 1
    | 3 => 6
    | 4 => 0xffffffff
    | 5 => 0xffffffff
    | 6 => 5000
    | 7 => gnuHash (ascii "tls") ||| 1
    | _ => 0

/-- One with 4,999 symbols from elsewhere before it, and that section. -/
def farLibrary : HashedObject where
  symbols := some (tlsExport 5000)
  gnuHash := some tlsHash
  tlsOffset := 256

/-- `R_AARCH64_TLS_TPREL64` against the executable's `tls`. -/
def tlsReloc : Rela where
  offset := 0x1000
  info := 0x100000406
  addend := 0

theorem not_scans_of_undef {obj : HashedObject} {table : Symbols} {name : Bytes} {s : Sym}
    (htable : obj.symbols = some table) (h : ∀ j < 4096, (table.sym j).isUndef = true) :
    ¬obj.Scans name s := by
  rintro ⟨table', j, htable', hj, -⟩
  cases htable.symm.trans htable'
  exact absurd ((h j hj.short).symm.trans hj.defined) (by decide)

theorem tlsUser_not_scans {name : Bytes} {s : Sym} : ¬tlsUser.Scans name s :=
  not_scans_of_undef rfl fun _ _ => rfl

theorem tlsReloc_sym : tlsReloc.sym = 1 := by decide

/-- The definition in the first library is found both ways. -/
theorem tls_definition_iff_near :
    tlsReloc.type = .tlsTprel64 ∧
      ∀ d, lookupDefinition (tlsImport.nameAt tlsReloc.sym) [tlsUser, nearLibrary] = some d →
        ∃ d', tlsUser.tlsDefinition 0 tlsReloc.sym [tlsUser, nearLibrary] = some d' ∧
          d'.index = d.index := by
  have hfollow : ScansFollow (tlsImport.nameAt tlsReloc.sym) [tlsUser, nearLibrary] := by
    intro before obj after h hdefines hbefore
    have hnear : nearLibrary.Scans (tlsImport.nameAt tlsReloc.sym) ⟨1, 0x16, 9, 8⟩ := by
      rw [tlsReloc_sym]
      exact ⟨_, 1, rfl, ⟨by decide, by decide, rfl, by decide, rfl, fun k _ _ => by omega⟩, rfl⟩
    match before, h with
    | [], h =>
      cases h
      exact absurd hdefines fun ⟨s, hs⟩ => tlsUser_not_scans hs
    | [_], h =>
      cases h
      refine ⟨⟨_, hnear⟩, fun o ho s hs => ?_, fun _ _ _ _ ho => nomatch ho⟩
      cases List.mem_singleton.mp ho
      exact absurd hs tlsUser_not_scans
    | _ :: _ :: _, h => simp at h
  have hsym : tlsReloc.sym ≠ 0 := by
    rw [tlsReloc_sym]
    decide
  have hundef : (tlsImport.sym tlsReloc.sym).isUndef = true := rfl
  exact ⟨by decide, (@tls_definition_iff [tlsUser, nearLibrary] tlsUser tlsImport 0 rfl rfl
    tlsReloc hsym).mpr (.inr (.inl ⟨hundef, hfollow⟩))⟩

/-- That in the second is found by `lookup_symbol` alone. -/
theorem far_symbol_not_scanned :
    tlsReloc.type = .tlsTprel64 ∧ tlsImport.nameAt tlsReloc.sym = ascii "tls" ∧
      (∃ d, lookupDefinition (ascii "tls") [tlsUser, farLibrary] = some d ∧ d.index = 1) ∧
      tlsUser.tlsDefinition 0 tlsReloc.sym [tlsUser, farLibrary] = none := by
  have huser : tlsUser.lookup (ascii "tls") = none :=
    scan_eq_none_iff.mpr fun s => tlsUser_not_scans
  have hlookup : farLibrary.lookup (ascii "tls") = some ⟨1, 0x16, 9, 8⟩ := by decide
  have hundef : ∀ j < 4096, ((tlsExport 5000).sym j).isUndef = true := fun j hj => by
    have hne : j ≠ 5000 := by omega
    simp only [tlsExport, Sym.isUndef, if_neg hne, decide_true]
  have hnone : scanObjects (ascii "tls") [tlsUser, farLibrary] = none := by
    refine scanObjects_eq_none_iff.mpr fun o ho s => ?_
    rcases List.mem_cons.mp ho with rfl | ho
    · exact tlsUser_not_scans
    · cases List.mem_singleton.mp ho
      exact not_scans_of_undef rfl hundef
  rw [tlsReloc_sym]
  refine ⟨by decide, rfl, ⟨⟨1, farLibrary, ⟨1, 0x16, 9, 8⟩⟩, ?_, rfl⟩, ?_⟩
  · rw [lookupDefinition, if_neg (by decide), lookupObjects, huser, lookupObjects, hlookup]
    rfl
  · have hsymbols : tlsUser.symbols = some tlsImport := rfl
    have hname : tlsImport.nameAt 1 = ascii "tls" := rfl
    rw [HashedObject.tlsDefinition, hsymbols]
    dsimp only
    rw [if_neg (by decide), if_neg (by decide), hname, hnone]

end Linker

end Muplar
