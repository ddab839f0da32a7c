import Muplar.Linker.Closure
/-!
# The linker — places in the TLS block

`linker_main` gives each object with thread-local data a place in one
block of fixed size, after the 256 bytes that are kept for the thread
itself. The loop rounds to 16 bytes, whatever the segment asks for, and
does not look at the end of the block; and an object that is loaded later
comes to no loop at all, so its place is where the kept bytes are.
-/

namespace Muplar

namespace Linker

/-- The bytes kept for the thread. -/
def tlsReserved : ℕ := 256

/-- `sizeof(g_tls_block)`. -/
def tlsBlockSize : ℕ := 16384

/-! ## Places -/

/-- A multiple of the alignment; 0 and 1 ask for none. -/
def AlignedTo (align place : ℕ) : Prop :=
  align ≤ 1 ∨ align ∣ place

/-- An object with thread-local data. -/
def Object.HasTls (obj : Object) : Prop :=
  0 < obj.tlsMemsz

instance (obj : Object) : Decidable obj.HasTls :=
  inferInstanceAs (Decidable (0 < obj.tlsMemsz))

/-- The object's place is in the block, behind the kept bytes and where
its segment may be. -/
structure Object.Placed (obj : Object) : Prop where
  reserved : tlsReserved ≤ obj.tlsOffset.toNat
  aligned : AlignedTo obj.tlsAlign.toNat obj.tlsOffset.toNat
  inside : obj.tlsOffset.toNat + obj.tlsMemsz.toNat ≤ tlsBlockSize

/-- The one place ends before the other. -/
def Object.Before (a b : Object) : Prop :=
  a.tlsOffset.toNat + a.tlsMemsz.toNat ≤ b.tlsOffset.toNat

/-- **Every object has its own place.** -/
structure TlsSound (objects : List Object) : Prop where
  placed : ∀ obj ∈ objects, obj.HasTls → obj.Placed
  apart : objects.Pairwise fun a b => a.HasTls → b.HasTls → a.Before b ∨ b.Before a

/-- The next multiple of 16. -/
def roundUp16 (n : ℕ) : ℕ :=
  (n + 15) / 16 * 16

/-- The segments fit behind each other from a place on: each place is
aligned for its segment, and no segment goes over the end of the block. -/
def FitFrom : (place : ℕ) → List Object → Prop
  | _, [] => True
  | place, obj :: objects =>
    (obj.HasTls → AlignedTo obj.tlsAlign.toNat place ∧ place + obj.tlsMemsz.toNat ≤ tlsBlockSize) ∧
      FitFrom (place + roundUp16 obj.tlsMemsz.toNat) objects

section Layout

variable {objects later : List Object} {obj : Object} {current : UInt64} {place : ℕ}

theorem not_hasTls_iff : ¬obj.HasTls ↔ obj.tlsMemsz.toNat = 0 := by
  rw [Object.HasTls, UInt64.lt_iff_toNat_lt]
  show ¬0 < _ ↔ _
  omega

/-- Where the loop is, rounded up. -/
structure At (current : UInt64) (place : ℕ) : Prop where
  le : current.toNat ≤ place
  lt : place < current.toNat + 16
  dvd : 16 ∣ place
  room : place ≤ tlsBlockSize

theorem At.toNat_eq (h : At current place) : ((current + 15) &&& ~~~15).toNat = place := by
  have hround := toNat_alignUpU64 (k := 4) (by omega) (a := 16) rfl current
  have heq : (current + 15) &&& ~~~15 = alignUpU64 current 16 := by
    have hsub : current + 16 - 1 = current + 15 := by
      rw [UInt64.sub_eq_add_neg, UInt64.add_assoc]
      rfl
    rw [alignUpU64, hsub]
    rfl
  obtain ⟨hle, hlt, ⟨c, rfl⟩, hroom⟩ := h
  rw [tlsBlockSize] at hroom
  rw [heq, hround, Nat.mod_eq_of_lt (by omega)]
  omega

/-- Behind a segment that fits, the loop is at the next place. -/
theorem At.next (h : At current place) (hfits : place + obj.tlsMemsz.toNat ≤ tlsBlockSize) :
    At (((current + 15) &&& ~~~15) + obj.tlsMemsz) (place + roundUp16 obj.tlsMemsz.toNat) := by
  have hplace := h.toNat_eq
  obtain ⟨hle, hlt, ⟨c, rfl⟩, hroom⟩ := h
  rw [tlsBlockSize] at hfits
  have hsum : (((current + 15) &&& ~~~15) + obj.tlsMemsz).toNat = 16 * c + obj.tlsMemsz.toNat := by
    rw [UInt64.toNat_add, hplace, Nat.mod_eq_of_lt (by omega)]
  rw [roundUp16]
  refine ⟨by omega, by omega, by omega, ?_⟩
  rw [tlsBlockSize]
  omega

theorem At.skip (h : At current place) (hnone : ¬obj.HasTls) :
    At current (place + roundUp16 obj.tlsMemsz.toNat) := by
  rw [not_hasTls_iff.mp hnone]
  exact h

theorem assignTls_cons (hobj : obj.HasTls) :
    assignTls current (obj :: objects) =
      { obj with tlsOffset := (current + 15) &&& ~~~15 } ::
        assignTls (((current + 15) &&& ~~~15) + obj.tlsMemsz) objects := by
  rw [assignTls, if_pos (show 0 < obj.tlsMemsz from hobj)]

theorem assignTls_skip (hobj : ¬obj.HasTls) :
    assignTls current (obj :: objects) = obj :: assignTls current objects := by
  rw [assignTls, if_neg (show ¬0 < obj.tlsMemsz from hobj)]

/-- No place is before where the loop starts. -/
theorem le_of_mem_assignTls (hat : At current place) (hfits : FitFrom place objects)
    (hmem : obj ∈ assignTls current objects) (hobj : obj.HasTls) : place ≤ obj.tlsOffset.toNat := by
  induction objects generalizing current place with
  | nil => cases hmem
  | cons o objects ih =>
    by_cases ho : o.HasTls
    · rw [assignTls_cons ho] at hmem
      rcases List.mem_cons.mp hmem with rfl | hmem
      · exact Nat.le_of_eq hat.toNat_eq.symm
      · exact Nat.le_trans (Nat.le_add_right _ _) (ih (hat.next (hfits.1 ho).2) hfits.2 hmem)
    · rw [assignTls_skip ho] at hmem
      rcases List.mem_cons.mp hmem with rfl | hmem
      · exact absurd hobj ho
      · exact Nat.le_trans (Nat.le_add_right _ _) (ih (hat.skip ho) hfits.2 hmem)

/-- Segments that fit are placed, one behind the other. -/
theorem assignTls_sound (hat : At current place) (hreserved : tlsReserved ≤ place)
    (hfits : FitFrom place objects) : TlsSound (assignTls current objects) := by
  induction objects generalizing current place with
  | nil => exact ⟨fun _ h => absurd h List.not_mem_nil, List.Pairwise.nil⟩
  | cons o objects ih =>
    have hreserved' : tlsReserved ≤ place + roundUp16 o.tlsMemsz.toNat := by omega
    by_cases ho : o.HasTls
    · obtain ⟨haligned, hinside⟩ := hfits.1 ho
      have hnext := hat.next hinside
      have hrest := ih hnext hreserved' hfits.2
      rw [assignTls_cons ho]
      refine ⟨fun obj hmem hobj => ?_, List.pairwise_cons.mpr ⟨fun obj hmem _ hobj => ?_, hrest.apart⟩⟩
      · rcases List.mem_cons.mp hmem with rfl | hmem
        · refine ⟨?_, ?_, ?_⟩
          all_goals
            simp only [hat.toNat_eq]
            assumption
        · exact hrest.placed obj hmem hobj
      · have hle := le_of_mem_assignTls hnext hfits.2 hmem hobj
        refine Or.inl ?_
        show ((current + 15) &&& ~~~15).toNat + o.tlsMemsz.toNat ≤ _
        rw [hat.toNat_eq]
        rw [roundUp16] at hle
        omega
    · have hrest := ih (hat.skip ho) hreserved' hfits.2
      rw [assignTls_skip ho]
      refine ⟨fun obj hmem hobj => ?_, List.pairwise_cons.mpr ⟨fun _ _ h => absurd h ho, hrest.apart⟩⟩
      rcases List.mem_cons.mp hmem with rfl | hmem
      · exact absurd hobj ho
      · exact hrest.placed obj hmem hobj

/-- Objects that are placed had segments that fit. -/
theorem fitFrom_of_placed (hat : At current place)
    (hplaced : ∀ obj ∈ assignTls current objects, obj.HasTls → obj.Placed) :
    FitFrom place objects := by
  induction objects generalizing current place with
  | nil => trivial
  | cons o objects ih =>
    by_cases ho : o.HasTls
    · rw [assignTls_cons ho] at hplaced
      obtain ⟨-, haligned, hinside⟩ := hplaced _ List.mem_cons_self ho
      simp only [hat.toNat_eq] at haligned hinside
      exact ⟨fun _ => ⟨haligned, hinside⟩, ih (hat.next hinside) fun obj hmem =>
        hplaced obj (List.mem_cons_of_mem _ hmem)⟩
    · rw [assignTls_skip ho] at hplaced
      exact ⟨fun h => absurd h ho, ih (hat.skip ho) fun obj hmem =>
        hplaced obj (List.mem_cons_of_mem _ hmem)⟩

/-- Where an object is does not change whether its segment fits. -/
theorem fitFrom_assignTls : FitFrom place (assignTls current objects) ↔ FitFrom place objects := by
  induction objects generalizing current place with
  | nil => rfl
  | cons o objects ih =>
    by_cases ho : o.HasTls
    · rw [assignTls_cons ho]
      exact and_congr Iff.rfl ih
    · rw [assignTls_skip ho]
      exact and_congr Iff.rfl ih

/-- **The loop, exactly.** -/
theorem tlsSound_assignTls_iff : TlsSound (assignTls 256 objects) ↔ FitFrom tlsReserved objects := by
  have hat : At 256 tlsReserved := ⟨by decide, by decide, by decide, by decide⟩
  exact ⟨fun h => fitFrom_of_placed hat h.placed, assignTls_sound hat (Nat.le_refl _)⟩

/-- An object that is loaded later is where the kept bytes are. -/
theorem not_placed_of_zero (h : obj.tlsOffset = 0) : ¬obj.Placed := by
  rintro ⟨hreserved, -, -⟩
  rw [h] at hreserved
  exact absurd hreserved (by decide)

theorem tlsSound_append_iff (hlater : ∀ obj ∈ later, obj.tlsOffset = 0) :
    TlsSound (objects ++ later) ↔ TlsSound objects ∧ ∀ obj ∈ later, ¬obj.HasTls := by
  constructor
  · rintro ⟨hplaced, hapart⟩
    refine ⟨⟨fun obj hobj => hplaced obj (List.mem_append_left _ hobj),
      (List.pairwise_append.mp hapart).1⟩, fun obj hobj htls => ?_⟩
    exact not_placed_of_zero (hlater obj hobj) (hplaced obj (List.mem_append_right _ hobj) htls)
  · rintro ⟨⟨hplaced, hapart⟩, hnone⟩
    refine ⟨fun obj hobj htls => ?_, List.pairwise_append.mpr ⟨hapart, ?_, ?_⟩⟩
    · rcases List.mem_append.mp hobj with hobj | hobj
      · exact hplaced obj hobj htls
      · exact absurd htls (hnone obj hobj)
    · exact List.pairwise_of_forall_mem_list fun a ha _ _ htls => absurd htls (hnone a ha)
    · exact fun _ _ b hb _ htls => absurd htls (hnone b hb)

end Layout

/-! ## Relocations -/

/-- Where `tlsLookup` finds a symbol, and the symbol's value there. -/
def tlsLookupTarget (name : Bytes) : List Object → Option (Object × UInt64)
  | [] => none
  | target :: targets =>
    match target.symbols.bind fun table => table.scan name 4095 1 with
    | none => tlsLookupTarget name targets
    | some s =>
      if target.tlsOffset + s.value ≠ 0 then some (target, s.value)
      else tlsLookupTarget name targets

/-- The object a thread-local symbol is in, and its value there. -/
def Object.tlsTarget (obj : Object) (l : Linkage) (symIdx : ℕ) : Option (Object × UInt64) :=
  match obj.symbols with
  | none => some (obj, 0)
  | some table =>
    if symIdx = 0 then some (obj, 0)
    else
      let sym := table.sym symIdx
      if !sym.isUndef then some (obj, sym.value)
      else tlsLookupTarget (table.string sym.name) l.objects

theorem tlsLookup_eq {name : Bytes} {objects : List Object} {target : Object} {value : UInt64}
    (h : tlsLookupTarget name objects = some (target, value)) :
    target ∈ objects ∧ tlsLookup name objects = target.tlsOffset + value := by
  induction objects with
  | nil => cases h
  | cons o objects ih =>
    rw [tlsLookupTarget] at h
    rw [tlsLookup]
    cases hscan : o.symbols.bind fun table => table.scan name 4095 1 with
    | none =>
      rw [hscan] at h
      exact ⟨List.mem_cons_of_mem o (ih h).1, (ih h).2⟩
    | some s =>
      rw [hscan] at h
      simp only at h ⊢
      by_cases hzero : o.tlsOffset + s.value ≠ 0
      · rw [if_pos hzero] at h ⊢
        cases h
        exact ⟨List.mem_cons_self, rfl⟩
      · rw [if_neg hzero] at h ⊢
        exact ⟨List.mem_cons_of_mem o (ih h).1, (ih h).2⟩

theorem tlsValue_eq {obj target : Object} {l : Linkage} {symIdx : ℕ} {value : UInt64}
    (hobj : obj ∈ l.objects) (h : obj.tlsTarget l symIdx = some (target, value)) :
    target ∈ l.objects ∧ obj.tlsValue l symIdx = target.tlsOffset + value := by
  rw [Object.tlsTarget] at h
  rw [Object.tlsValue]
  cases htable : obj.symbols with
  | none =>
    rw [htable] at h
    cases h
    exact ⟨hobj, (UInt64.add_zero _).symm⟩
  | some table =>
    rw [htable] at h
    simp only at h ⊢
    split at h
    · next hzero =>
      cases h
      rw [if_pos hzero]
      exact ⟨hobj, (UInt64.add_zero _).symm⟩
    next hzero =>
    rw [if_neg hzero]
    split at h
    · next hdefined =>
      cases h
      rw [if_pos hdefined]
      exact ⟨hobj, rfl⟩
    · next hundef =>
      rw [if_neg hundef]
      exact tlsLookup_eq h

/-- **Relocations stay in the object's place.** What a relocation writes
for a byte of an object's segment is the place of that byte, and it is
inside the object's place. -/
def TlsResolves (l : Linkage) : Prop :=
  ∀ obj ∈ l.objects, ∀ (r : Rela) target value, obj.tlsTarget l r.sym = some (target, value) →
    target.HasTls → (value + r.addend).toNat < target.tlsMemsz.toNat →
    target.tlsOffset.toNat ≤ (obj.tlsValue l r.sym + r.addend).toNat ∧
      (obj.tlsValue l r.sym + r.addend).toNat < target.tlsOffset.toNat + target.tlsMemsz.toNat

theorem TlsSound.resolves {l : Linkage} (h : TlsSound l.objects) : TlsResolves l := by
  intro obj hobj r target value htarget htls hbyte
  obtain ⟨hmem, heq⟩ := tlsValue_eq hobj htarget
  obtain ⟨-, -, hinside⟩ := h.placed target hmem htls
  rw [tlsBlockSize] at hinside
  rw [heq, UInt64.add_assoc, UInt64.toNat_add, Nat.mod_eq_of_lt (by omega)]
  omega

/-! ## Whole runs -/

/-- **Where every object has its place.** After start-up and any calls of
`lnk_dlopen`, it has if and only if the segments of start-up fit behind
each other as the loop puts them, and no library that was loaded since
has thread-local data. -/
theorem tls_layout_iff (env : Environment) (exe : Executable) {p q : Process}
    (hp : Loop.Yields (linkerMain env exe) (.ok p)) {filenames : List (Option Bytes)}
    (hq : Loop.Yields (dlopenAll env filenames p) (.ok q)) {l : Linkage}
    (hl : l.objects = q.objects) :
    TlsSound q.objects ∧ TlsResolves l ↔
      FitFrom tlsReserved p.objects ∧
        ∀ obj ∈ q.objects.drop p.objects.length, obj.tlsMemsz = 0 := by
  obtain ⟨fuel, hp⟩ := hp
  obtain ⟨fuel', hq⟩ := hq
  obtain ⟨-, added, hadded, horigin⟩ := dlopenAll_sound (linkerMain_sound hp) hq
  obtain ⟨objects, hobjects⟩ : ∃ objects, p.objects = assignTls 256 objects := by
    rw [linkerMain] at hp
    split at hp
    · cases hp
    rcases Loop.run_bind_cases hp with ⟨e, -, he⟩ | ⟨objects, -, hp⟩
    · cases he
    cases hp
    exact ⟨objects, rfl⟩
  have hzero : ∀ obj ∈ added, obj.tlsOffset = 0 := by
    intro obj hobj
    cases horigin obj hobj <;> rfl
  have hnone : (∀ obj ∈ added, ¬obj.HasTls) ↔ ∀ obj ∈ added, obj.tlsMemsz = 0 := by
    refine forall₂_congr fun obj _ => ?_
    rw [not_hasTls_iff, ← UInt64.toNat_inj]
    rfl
  have hdrop : q.objects.drop p.objects.length = added := by
    rw [hadded]
    exact List.drop_left
  have hsound : TlsSound q.objects ↔
      FitFrom tlsReserved p.objects ∧ ∀ obj ∈ added, obj.tlsMemsz = 0 := by
    rw [hadded, tlsSound_append_iff hzero, hnone, hobjects, tlsSound_assignTls_iff, fitFrom_assignTls]
  rw [hdrop, ← hsound]
  exact and_iff_left_of_imp fun h => TlsSound.resolves (hl ▸ h)

/-- A library with eight bytes of thread-local data. -/
def tlsDisk : Environment :=
  disk [(ascii "/system/lib64/libtls.so", { tls := some ⟨0x1000, 0, 8, 8⟩ })]

theorem tls_layout_needed :
    ∃ p, Loop.Yields (linkerMain tlsDisk (app [ascii "libtls.so"])) (.ok p) ∧ TlsSound p.objects := by
  let p := Process.start [(app [ascii "libtls.so"]).object,
    Library.object { tls := some ⟨0x1000, 0, 8, 8⟩ } 0x10000 (ascii "libtls.so")
      (ascii "/system/lib64/libtls.so")]
  have hp : Loop.Yields (linkerMain tlsDisk (app [ascii "libtls.so"])) (.ok p) := ⟨2, rfl⟩
  have hq : Loop.Yields (dlopenAll tlsDisk [] p) (.ok p) := ⟨0, rfl⟩
  have hfits : FitFrom tlsReserved p.objects := by
    refine ⟨fun h => absurd h (by decide), fun _ => ⟨Or.inr ?_, ?_⟩, trivial⟩
    · show 8 ∣ 256
      decide
    · show 256 + 8 ≤ 16384
      decide
  have hlater : ∀ obj ∈ p.objects.drop p.objects.length, obj.tlsMemsz = 0 := by
    rw [List.drop_length]
    exact fun _ h => absurd h List.not_mem_nil
  have hiff := tls_layout_iff tlsDisk (app [ascii "libtls.so"]) hp hq
    (l := { Linkage.empty with objects := p.objects }) rfl
  exact ⟨p, hp, (hiff.mpr ⟨hfits, hlater⟩).1⟩

/-- **A library that is opened later has no place.** Its eight bytes are
the first of the block, where the thread's own are. -/
theorem tls_of_dlopen :
    ∃ p q, Loop.Yields (linkerMain tlsDisk (app [])) (.ok p) ∧
      Loop.Yields (dlopenAll tlsDisk [some (ascii "libtls.so")] p) (.ok q) ∧
      (∃ obj ∈ q.objects, obj.tlsMemsz = 8 ∧ obj.tlsOffset = 0) ∧ ¬TlsSound q.objects := by
  let lib := Library.object { tls := some ⟨0x1000, 0, 8, 8⟩ } 0x10000 (ascii "libtls.so")
    (ascii "/system/lib64/libtls.so")
  have hmem : lib ∈ [(app []).object, lib] := by simp
  refine ⟨.start [(app []).object], ⟨[(app []).object, lib], [0, 1]⟩, ⟨0, rfl⟩, ⟨2, rfl⟩,
    ⟨lib, hmem, rfl, rfl⟩, fun h => ?_⟩
  exact not_placed_of_zero rfl (h.placed lib hmem (by decide))

end Linker

end Muplar
