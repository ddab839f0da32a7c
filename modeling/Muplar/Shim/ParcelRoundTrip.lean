import Mathlib.Data.List.TakeWhile
import Mathlib.Order.Nat
import Muplar.Common.Run
import Muplar.Shim.Parcel
/-!
# The Java Parcel store — the round trip

A write that is granted its memory lays one field (`Laid`): the bytes of
the value at the next multiple of four, and nothing outside up to where
the position comes to stand. Wherever these bytes are found again the
reader gives the value back and stops where the write did (`Wrote`), and
what is written later lies behind them.

So after any sequence of writes the reads from where it began give the
values in order and end where the writes ended, and the rest of the store
is as it was (`parcel_round_trip`).
-/

namespace Muplar

namespace Shim

open Machine

variable {ι β : Type} {J : Jvm ι} {p q r : Parcel β} {lo stop n : ℕ} {bs cs : Bytes}

/-! ## Memory that is granted -/

/-- The memory for a word at the position. -/
def Parcel.WordGranted (J : Jvm ι) (p : Parcel β) (width : ℕ) : Prop :=
  (p.grow J (align4 p.pos + width)).isSome

/-- The memory for so many bytes from the position on. -/
def Parcel.CharsGranted (J : Jvm ι) (p : Parcel β) (count : ℕ) : Prop :=
  (p.grow J (p.pos + align4 count)).isSome

/-- **The allocations of a write succeed**, and the one its read makes. -/
def Parcel.Granted (J : Jvm ι) (p : Parcel β) : Value ι β → Prop
  | .int _ | .float _ | .string8 none | .string16 none | .strongBinder none => p.WordGranted J 4
  | .long _ | .double _ => p.WordGranted J 8
  | .string8 (some s) =>
    let count := (J.getStringUTFChars s).length
    J.charsGranted s ∧ p.WordGranted J 4 ∧
      (p.writeInt J (J.getStringUTFLength s)).2.CharsGranted J (count + 1) ∧
      (count ≠ 0 → J.malloc (count + 1))
  | .string16 (some s) =>
    let count := (J.getStringChars s).length
    J.charsGranted s ∧ p.WordGranted J 4 ∧
      (p.writeInt J (J.getStringLength s)).2.CharsGranted J ((count + 1) * 2)
  | .strongBinder (some _) =>
    (p.growBinders J).isSome ∧ J.newGlobalRef p.binders.length ∧ p.WordGranted J 4

/-- The same of a call. -/
def Parcel.CallGranted (J : Jvm ι) (p : Parcel β) : WriteCall ι β → Prop
  | .value v => p.Granted J v
  | .interfaceToken token =>
    p.WordGranted J 4 ∧ (p.writeInt J 0).2.Granted J (.string16 token : Value ι β)

instance (p : Parcel β) (width : ℕ) : Decidable (p.WordGranted J width) :=
  inferInstanceAs (Decidable (_ = true))

instance (p : Parcel β) (count : ℕ) : Decidable (p.CharsGranted J count) :=
  inferInstanceAs (Decidable (_ = true))

instance decidableGranted (p : Parcel β) : (v : Value ι β) → Decidable (p.Granted J v)
  | .int _ | .float _ | .string8 none | .string16 none | .strongBinder none =>
    inferInstanceAs (Decidable (p.WordGranted J 4))
  | .long _ | .double _ => inferInstanceAs (Decidable (p.WordGranted J 8))
  | .string8 (some _) => inferInstanceAs (Decidable (_ ∧ _ ∧ _ ∧ (_ → _)))
  | .string16 (some _) => inferInstanceAs (Decidable (_ ∧ _ ∧ _))
  | .strongBinder (some _) => inferInstanceAs (Decidable (_ ∧ _ ∧ _))

instance (p : Parcel β) : (c : WriteCall ι β) → Decidable (p.CallGranted J c)
  | .value v => decidableGranted p v
  | .interfaceToken token =>
    have : Decidable ((p.writeInt J 0).2.Granted J (.string16 token : Value ι β)) :=
      decidableGranted _ _
    inferInstanceAs (Decidable (_ ∧ _))

theorem le_align4 (n : ℕ) : n ≤ align4 n := by
  rw [align4]
  omega

theorem align4_add (n : ℕ) (h : 4 ∣ stop) : align4 (align4 n + stop) = align4 n + stop := by
  rw [align4, align4]
  omega

theorem dvd_align4 (n : ℕ) : 4 ∣ align4 n :=
  ⟨(n + 3) / 4, Nat.mul_comm _ _⟩

theorem le_doubleUntil {needed cap : ℕ} (h : 0 < cap) : needed ≤ doubleUntil needed cap := by
  fun_induction doubleUntil needed cap with
  | case1 cap hcap ih => exact ih (by omega)
  | case2 cap hcap => omega

/-- What `grow` does: zeroes are put behind the buffer. -/
theorem grow_spec (h : p.grow J n = some q) :
    n ≤ q.data.length ∧ ∃ zeros, q = { p with data := p.data ++ zeros } := by
  rw [Parcel.grow] at h
  by_cases hle : n ≤ p.data.length
  · rw [if_pos hle] at h
    cases h
    exact ⟨hle, [], by rw [List.append_nil]⟩
  · rw [if_neg hle] at h
    obtain ⟨-, h⟩ := Option.ite_none_right_eq_some.mp h
    cases h
    have hcap : 0 < if p.data.length = 0 then 128 else p.data.length * 2 := by split <;> omega
    have henough : n ≤ doubleUntil n _ := le_doubleUntil hcap
    refine ⟨?_, _, rfl⟩
    rw [List.length_append, List.length_replicate]
    omega

/-- Whether memory is granted is asked of the buffer alone. -/
theorem isSome_grow (J : Jvm ι) (p : Parcel β) (n : ℕ) :
    (p.grow J n).isSome ↔ n ≤ p.data.length ∨
      J.realloc (doubleUntil n (if p.data.length = 0 then 128 else p.data.length * 2)) = true := by
  rw [Parcel.grow]
  by_cases hle : n ≤ p.data.length
  · rw [if_pos hle]
    exact iff_of_true rfl (.inl hle)
  · rw [if_neg hle, Option.isSome_ite, or_iff_right hle]

/-! ## Laying a field -/

/-- Bytes were laid at `lo`, the position moved to `stop`, and nothing
outside the two was touched. -/
structure Laid (p q : Parcel β) (lo : ℕ) (bs : Bytes) (stop : ℕ) : Prop where
  fits : lo + bs.length ≤ stop
  pos : q.pos = stop
  size : q.size = max p.size stop
  binders : q.binders = p.binders
  room : stop ≤ q.data.length
  grows : p.data.length ≤ q.data.length
  frame : ∀ i < p.data.length, i < lo ∨ stop ≤ i → q.data[i]? = p.data[i]?
  bytes : slice q.data lo bs.length = bs

theorem laid_lay (hgrow : p.grow J stop = some q) (h : lo + bs.length ≤ stop) :
    Laid p (q.lay lo bs stop) lo bs stop := by
  obtain ⟨hroom, zeros, rfl⟩ := grow_spec hgrow
  dsimp only at hroom
  have hfits : lo + bs.length ≤ (p.data ++ zeros).length := h.trans hroom
  have hlen : (overwrite (p.data ++ zeros) lo bs).length = (p.data ++ zeros).length :=
    length_overwrite hfits
  have hlo : lo ≤ (p.data ++ zeros).length := (Nat.le_add_right ..).trans hfits
  refine ⟨h, rfl, rfl, rfl, hroom.trans hlen.ge, ?_, ?_, slice_overwrite hlo⟩
  · refine Nat.le_trans ?_ hlen.ge
    rw [List.length_append]
    exact Nat.le_add_right _ _
  · intro i hi hout
    have hi' : i < lo ∨ lo + bs.length ≤ i := by omega
    exact (getElem?_overwrite hfits hi').trans (List.getElem?_append_left hi)

/-- A second field behind the first. -/
theorem Laid.append (h : Laid p q lo bs (lo + bs.length))
    (h' : Laid q r (lo + bs.length) cs stop) : Laid p r lo (bs ++ cs) stop where
  fits := by
    have hfits := h'.fits
    rw [List.length_append]
    omega
  pos := h'.pos
  size := by
    have hfits := h'.fits
    rw [h'.size, h.size]
    omega
  binders := h'.binders.trans h.binders
  room := h'.room
  grows := h.grows.trans h'.grows
  frame := by
    intro i hi hout
    have hfits := h'.fits
    rw [h'.frame i (Nat.lt_of_lt_of_le hi h.grows) (by omega), h.frame i hi (by omega)]
  bytes := by
    have hfirst : AgreeOn lo (lo + bs.length) r.data q.data := by
      intro i hlo hhi
      exact h'.frame i (Nat.lt_of_lt_of_le hhi h.room) (.inl hhi)
    rw [List.length_append, slice_add, h'.bytes, hfirst.slice_eq le_rfl le_rfl, h.bytes]

theorem laid_writeWord (word : Bytes) (h : p.WordGranted J word.length) :
    Laid p (p.writeWord J word).2 (align4 p.pos) word (align4 p.pos + word.length) := by
  obtain ⟨q, hq⟩ := Option.isSome_iff_exists.mp h
  rw [Parcel.writeWord, hq]
  exact laid_lay hq le_rfl

theorem laid_writeInt (h : p.WordGranted J 4) (value : Int32) :
    Laid p (p.writeInt J value).2 (align4 p.pos) (encodeLe 4 value.toUInt32.toNat)
      (align4 p.pos + 4) := by
  have hlaid := laid_writeWord (J := J) (p := p) (encodeLe 4 value.toUInt32.toNat)
    (by rwa [length_encodeLe])
  rwa [length_encodeLe] at hlaid

theorem laid_writeChars {terminator : Bytes}
    (h : p.CharsGranted J (bs.length + terminator.length)) :
    Laid p (p.writeChars J bs terminator) p.pos (bs ++ terminator)
      (p.pos + align4 (bs.length + terminator.length)) := by
  obtain ⟨q, hq⟩ := Option.isSome_iff_exists.mp h
  rw [Parcel.writeChars, hq]
  refine laid_lay hq ?_
  rw [List.length_append]
  exact Nat.add_le_add_left (le_align4 _) _

/-! ## Reading it again -/

/-- **What a write leaves for its read.** Wherever its bytes are found from
the same position on, with the binders it knew, the value is read and the
position is where the write left it. -/
structure Wrote (J : Jvm ι) (p q : Parcel β) (v : Value ι β) : Prop where
  pos : align4 p.pos ≤ q.pos
  aligned : align4 q.pos = q.pos
  within : q.pos ≤ q.size
  size : p.size ≤ q.size
  room : q.pos ≤ q.data.length
  grows : p.data.length ≤ q.data.length
  frame : ∀ i < p.data.length, i < align4 p.pos ∨ q.pos ≤ i → q.data[i]? = p.data[i]?
  binders : p.binders <+: q.binders
  reads : ∀ r : Parcel β, r.pos = p.pos → q.pos ≤ r.size →
    AgreeOn (align4 p.pos) q.pos r.data q.data → q.binders <+: r.binders →
      r.read J v.kind = (v, { r with pos := q.pos })

/-- A field that is laid is written, if it is read where it is found. -/
theorem Wrote.of_laid {v : Value ι β} (h : Laid p q (align4 p.pos) bs stop)
    (hstop : align4 stop = stop)
    (hread : ∀ r : Parcel β, r.pos = p.pos → stop ≤ r.size →
      slice r.data (align4 r.pos) bs.length = bs → p.binders <+: r.binders →
        r.read J v.kind = (v, { r with pos := stop })) :
    Wrote J p q v where
  pos := by
    have hfits := h.fits
    rw [h.pos]
    omega
  aligned := by rw [h.pos, hstop]
  within := by
    rw [h.pos, h.size]
    exact Nat.le_max_right _ _
  size := by
    rw [h.size]
    exact Nat.le_max_left _ _
  room := by
    rw [h.pos]
    exact h.room
  grows := h.grows
  frame := by
    rw [h.pos]
    exact h.frame
  binders := h.binders ▸ List.prefix_rfl
  reads := by
    intro r hpos hsize hagree hbinders
    rw [h.pos] at hsize hagree ⊢
    rw [h.binders] at hbinders
    refine hread r hpos hsize ?_ hbinders
    rw [hpos, hagree.slice_eq le_rfl h.fits, h.bytes]

theorem readWord_eq (word : Bytes) (hsize : align4 r.pos + word.length ≤ r.size)
    (hbytes : slice r.data (align4 r.pos) word.length = word) :
    r.readWord word.length = some (word, { r with pos := align4 r.pos + word.length }) := by
  rw [Parcel.readWord, if_neg (by omega), hbytes]

theorem readInt_eq {value : Int32} (hsize : align4 r.pos + 4 ≤ r.size)
    (hbytes : slice r.data (align4 r.pos) 4 = encodeLe 4 value.toUInt32.toNat) :
    r.readInt = (value, { r with pos := align4 r.pos + 4 }) := by
  have hword := readWord_eq (r := r) (encodeLe 4 value.toUInt32.toNat)
    (by rwa [length_encodeLe]) (by rwa [length_encodeLe])
  rw [length_encodeLe] at hword
  rw [Parcel.readInt, hword]
  dsimp only
  rw [le_encodeLe value.toUInt32.toNat_lt, UInt32.ofNat_toNat, Int32.toInt32_toUInt32]

theorem readLong_eq {value : Int64} (hsize : align4 r.pos + 8 ≤ r.size)
    (hbytes : slice r.data (align4 r.pos) 8 = encodeLe 8 value.toUInt64.toNat) :
    r.readLong = (value, { r with pos := align4 r.pos + 8 }) := by
  have hword := readWord_eq (r := r) (encodeLe 8 value.toUInt64.toNat)
    (by rwa [length_encodeLe]) (by rwa [length_encodeLe])
  rw [length_encodeLe] at hword
  rw [Parcel.readLong, hword]
  dsimp only
  rw [le_encodeLe value.toUInt64.toNat_lt, UInt64.ofNat_toNat, Int64.toInt64_toUInt64]

/-! ## Words -/

/-- A value that is written as an `int`. -/
theorem wrote_int {v : Value ι β} (h : p.WordGranted J 4) (value : Int32)
    (hread : ∀ r : Parcel β, r.readInt = (value, { r with pos := align4 r.pos + 4 }) →
      p.binders <+: r.binders → r.read J v.kind = (v, { r with pos := align4 r.pos + 4 })) :
    Wrote J p (p.writeInt J value).2 v := by
  refine .of_laid (laid_writeInt h value) (align4_add _ ⟨1, rfl⟩) ?_
  intro r hpos hsize hbytes hbinders
  rw [← hpos] at hsize ⊢
  rw [length_encodeLe] at hbytes
  exact hread r (readInt_eq hsize hbytes) hbinders

/-- A value that is written as a `long`. -/
theorem wrote_long {v : Value ι β} (h : p.WordGranted J 8) (value : Int64)
    (hread : ∀ r : Parcel β, r.readLong = (value, { r with pos := align4 r.pos + 8 }) →
      r.read J v.kind = (v, { r with pos := align4 r.pos + 8 })) :
    Wrote J p (p.writeLong J value).2 v := by
  have hlaid := laid_writeWord (J := J) (p := p) (encodeLe 8 value.toUInt64.toNat)
    (by rwa [length_encodeLe])
  rw [length_encodeLe] at hlaid
  refine .of_laid hlaid (align4_add _ ⟨2, rfl⟩) ?_
  intro r hpos hsize hbytes _
  rw [← hpos] at hsize ⊢
  rw [length_encodeLe] at hbytes
  exact hread r (readLong_eq hsize hbytes)

/-- A null is written as minus one. -/
theorem wrote_null {v : Value ι β} (h : p.WordGranted J 4)
    (hread : ∀ r : Parcel β, r.readInt = (-1, { r with pos := align4 r.pos + 4 }) →
      r.read J v.kind = (v, { r with pos := align4 r.pos + 4 })) :
    Wrote J p (p.writeInt J (-1)).2 v :=
  wrote_int h (-1) fun r hr _ => hread r hr

/-! ## Strings -/

/-- A length is read as the number it is. -/
theorem length_cases {len : Int32} (h : len.toInt = (n : ℤ)) :
    ¬len < 0 ∧ len.toInt.toNat = n ∧ (len = 0 ↔ n = 0) := by
  have hzero : (0 : Int32).toInt = 0 := rfl
  refine ⟨?_, by omega, ?_⟩
  · rw [Int32.lt_iff_toInt_lt, h, hzero]
    omega
  · rw [← Int32.toInt_inj, h, hzero]
    omega

/-- The length, the characters and the terminator of a string, in a row. -/
theorem laid_string {len : Int32} {terminator : Bytes} (hword : p.WordGranted J 4)
    (hchars : (p.writeInt J len).2.CharsGranted J (bs.length + terminator.length)) :
    Laid p ((p.writeInt J len).2.writeChars J bs terminator) (align4 p.pos)
      (encodeLe 4 len.toUInt32.toNat ++ (bs ++ terminator))
      (align4 p.pos + 4 + align4 (bs.length + terminator.length)) := by
  have hlen := laid_writeInt hword len
  have hrest := laid_writeChars hchars
  rw [hlen.pos] at hrest
  have hwidth : (encodeLe 4 len.toUInt32.toNat).length = 4 := length_encodeLe _ _
  rw [← hwidth] at hlen hrest ⊢
  exact hlen.append hrest

/-- A string is written, if it is read where its length and its characters
are found. -/
theorem wrote_string {v : Value ι β} {len : Int32} {terminator : Bytes}
    (hword : p.WordGranted J 4)
    (hchars : (p.writeInt J len).2.CharsGranted J (bs.length + terminator.length))
    (hread : ∀ r : Parcel β, r.readInt = (len, { r with pos := align4 r.pos + 4 }) →
      align4 r.pos + 4 + align4 (bs.length + terminator.length) ≤ r.size →
      slice r.data (align4 r.pos + 4) bs.length = bs →
        r.read J v.kind =
          (v, { r with pos := align4 r.pos + 4 + align4 (bs.length + terminator.length) })) :
    Wrote J p ((p.writeInt J len).2.writeChars J bs terminator) v := by
  have hstop : align4 (align4 p.pos + 4 + align4 (bs.length + terminator.length)) =
      align4 p.pos + 4 + align4 (bs.length + terminator.length) := by
    rw [Nat.add_assoc]
    exact align4_add _ (Nat.dvd_add ⟨1, rfl⟩ (dvd_align4 _))
  refine .of_laid (laid_string hword hchars) hstop ?_
  intro r hpos hsize hbytes _
  rw [← hpos] at hsize ⊢
  obtain ⟨hlen, hrest⟩ := slice_eq_append_iff.mp hbytes
  rw [length_encodeLe] at hlen hrest
  exact hread r (readInt_eq (by omega) hlen) hsize (slice_eq_append_iff.mp hrest).1

theorem skip_eq (h : p.pos + n ≤ p.size) : p.skip n = { p with pos := p.pos + n } := by
  rw [Parcel.skip, if_pos h]

theorem readString8_eq (hJ : J.Lawful) {s : ι}
    (hmalloc : (J.getStringUTFChars s).length ≠ 0 →
      J.malloc ((J.getStringUTFChars s).length + 1))
    (hint : r.readInt = (J.getStringUTFLength s, { r with pos := lo }))
    (hsize : lo + align4 ((J.getStringUTFChars s).length + 1) ≤ r.size)
    (hchars : slice r.data lo (J.getStringUTFChars s).length = J.getStringUTFChars s) :
    r.readString8 J =
      (some s, { r with pos := lo + align4 ((J.getStringUTFChars s).length + 1) }) := by
  obtain ⟨hneg, hcount, hzero⟩ := length_cases (hJ.utfLength s)
  have hpad := le_align4 ((J.getStringUTFChars s).length + 1)
  rw [Parcel.readString8, hint]
  dsimp only
  rw [if_neg hneg]
  by_cases hempty : (J.getStringUTFChars s).length = 0
  · have hsome : J.newStringUTF [] = s := by
      rw [← List.length_eq_zero_iff.mp hempty]
      exact hJ.newStringUTF s
    rw [hempty] at hsize ⊢
    rw [if_pos (hzero.mpr hempty), skip_eq hsize, hsome]
    rfl
  · have hall : (J.getStringUTFChars s).takeWhile (· ≠ 0) = J.getStringUTFChars s :=
      List.takeWhile_eq_self_iff.mpr fun b hb => decide_eq_true (hJ.utf_ne_zero s b hb)
    rw [if_neg (mt hzero.mp hempty), hcount, if_neg (by omega), if_pos (hmalloc hempty),
      hchars, hall, hJ.newStringUTF, skip_eq hsize]

theorem length_unitBytes (units : List UInt16) :
    (Parcel.unitBytes units).length = units.length * 2 := by
  induction units with
  | nil => rfl
  | cons u units ih =>
    have hcons : Parcel.unitBytes (u :: units) = encodeLe 2 u.toNat ++ Parcel.unitBytes units := rfl
    rw [hcons, List.length_append, length_encodeLe, ih, List.length_cons]
    omega

/-- Units are read from the bytes they are written as. -/
theorem bytesUnits_unitBytes (units : List UInt16) :
    Parcel.bytesUnits (Parcel.unitBytes units) = units := by
  induction units with
  | nil => rfl
  | cons u units ih =>
    have hunit : UInt16.ofNat (le (encodeLe 2 u.toNat)) = u := by
      rw [le_encodeLe u.toNat_lt, UInt16.ofNat_toNat]
    exact congrArg₂ _ hunit ih

theorem readString16_eq (hJ : J.Lawful) {s : ι}
    (hint : r.readInt = (J.getStringLength s, { r with pos := lo }))
    (hsize : lo + align4 (((J.getStringChars s).length + 1) * 2) ≤ r.size)
    (hchars : slice r.data lo ((J.getStringChars s).length * 2) =
      Parcel.unitBytes (J.getStringChars s)) :
    r.readString16 J =
      (some s, { r with pos := lo + align4 (((J.getStringChars s).length + 1) * 2) }) := by
  obtain ⟨hneg, hcount, hzero⟩ := length_cases (hJ.length s)
  have hpad := le_align4 (((J.getStringChars s).length + 1) * 2)
  rw [Parcel.readString16, hint]
  dsimp only
  rw [if_neg hneg]
  by_cases hempty : (J.getStringChars s).length = 0
  · have hsome : J.newString [] = s := by
      rw [← List.length_eq_zero_iff.mp hempty]
      exact hJ.newString s
    rw [hempty] at hsize ⊢
    rw [if_pos (hzero.mpr hempty), skip_eq hsize, hsome]
    rfl
  · rw [if_neg (mt hzero.mp hempty), hcount, if_neg (by omega), hchars,
      bytesUnits_unitBytes, hJ.newString, skip_eq hsize]

/-! ## One write -/

/-- A null reads as nothing. -/
theorem readString8_null (h : r.readInt = (-1, q)) : r.readString8 J = (none, q) := by
  rw [Parcel.readString8, h]
  rfl

theorem readString16_null (h : r.readInt = (-1, q)) : r.readString16 J = (none, q) := by
  rw [Parcel.readString16, h]
  rfl

theorem readStrongBinder_null (h : r.readInt = (-1, q)) : r.readStrongBinder = (none, q) := by
  rw [Parcel.readStrongBinder, h]
  rfl

theorem wrote_string8 (hJ : J.Lawful) (s : ι)
    (h : p.Granted J (.string8 (some s) : Value ι β)) :
    Wrote J p (p.writeString8 J (some s)) (.string8 (some s)) := by
  obtain ⟨hgranted, hword, hchars, hmalloc⟩ := h
  obtain ⟨-, hcount, -⟩ := length_cases (hJ.utfLength s)
  rw [Parcel.writeString8, if_pos hgranted]
  dsimp only
  rw [hcount, List.take_length]
  refine wrote_string hword hchars fun r hint hsize hbytes => ?_
  rw [Value.kind, Parcel.read, readString8_eq hJ hmalloc hint hsize hbytes]
  rfl

theorem wrote_string16 (hJ : J.Lawful) (s : ι)
    (h : p.Granted J (.string16 (some s) : Value ι β)) :
    Wrote J p (p.writeString16 J (some s)) (.string16 (some s)) := by
  obtain ⟨hgranted, hword, hchars⟩ := h
  obtain ⟨-, hcount, -⟩ := length_cases (hJ.length s)
  have hlen : (Parcel.unitBytes (J.getStringChars s)).length + 2 =
      ((J.getStringChars s).length + 1) * 2 := by
    rw [length_unitBytes]
    omega
  rw [Parcel.writeString16, if_pos hgranted]
  dsimp only
  rw [hcount, List.take_length]
  rw [← hlen] at hchars
  refine wrote_string hword hchars fun r hint hsize hbytes => ?_
  rw [length_unitBytes] at hbytes
  rw [List.length_cons, List.length_cons, List.length_nil] at hsize ⊢
  rw [hlen] at hsize ⊢
  rw [Value.kind, Parcel.read, readString16_eq hJ hint hsize hbytes]

theorem growBinders_spec (h : p.growBinders J = some q) :
    ∃ cap, q = { p with binderCap := cap } := by
  rw [Parcel.growBinders] at h
  by_cases hfull : p.binderCap ≤ p.binders.length
  · rw [if_pos hfull] at h
    obtain ⟨-, h⟩ := Option.ite_none_right_eq_some.mp h
    cases h
    exact ⟨_, rfl⟩
  · rw [if_neg hfull] at h
    cases h
    exact ⟨p.binderCap, rfl⟩

/-- The index of a binder that is in the table. -/
theorem wrote_index {b : β} (hword : p.WordGranted J 4) (hn : n < 2 ^ 31)
    (hb : p.binders[n]? = some (some b)) :
    Wrote J p (p.writeInt J (Int32.ofNat n)).2 (.strongBinder (some b)) := by
  have hindex : (Int32.ofNat n).toInt = (n : ℤ) := Int32.toInt_ofNat_of_lt hn
  obtain ⟨hneg, hnat, -⟩ := length_cases hindex
  refine wrote_int hword (Int32.ofNat n) fun r hint hr => ?_
  have hfound : r.binders[n]? = some (some b) := by
    obtain ⟨more, hmore⟩ := hr
    rw [← hmore, List.getElem?_append_left (List.getElem?_eq_some_iff.mp hb).1, hb]
  rw [Value.kind, Parcel.read, Parcel.readStrongBinder, hint]
  dsimp only
  rw [if_neg hneg, hnat, hfound]
  rfl

/-- A binder is put behind the others, and its index is written. -/
theorem wrote_strongBinder (hJ : J.Lawful) (b : β)
    (h : p.Granted J (.strongBinder (some b) : Value ι β)) :
    Wrote J p (p.writeStrongBinder J (some b)) (.strongBinder (some b)) := by
  obtain ⟨hgrow, hgref, hword⟩ := h
  obtain ⟨q, hq⟩ := Option.isSome_iff_exists.mp hgrow
  obtain ⟨cap, rfl⟩ := growBinders_spec hq
  have hword' : { p with binders := p.binders ++ [some b], binderCap := cap }.WordGranted J 4 :=
    (isSome_grow J _ _).mpr ((isSome_grow J p _).mp hword)
  have hwrote := wrote_index hword' (hJ.globalRefs _ hgref) List.getElem?_concat_length
  rw [Parcel.writeStrongBinder, hq]
  dsimp only
  rw [if_pos hgref]
  exact { hwrote with binders := (List.prefix_append ..).trans hwrote.binders }

/-- **One write.** -/
theorem wrote_write (hJ : J.Lawful) (v : Value ι β) (h : p.Granted J v) :
    Wrote J p (p.write J v) v := by
  cases v with
  | int value =>
    refine wrote_int h value fun r hr _ => ?_
    rw [Value.kind, Parcel.read, hr]
  | long value =>
    refine wrote_long h value fun r hr => ?_
    rw [Value.kind, Parcel.read, hr]
  | float bits =>
    refine wrote_int h bits.toInt32 fun r hr _ => ?_
    rw [Value.kind, Parcel.read, Parcel.readFloat, hr, UInt32.toUInt32_toInt32]
  | double bits =>
    refine wrote_long h bits.toInt64 fun r hr => ?_
    rw [Value.kind, Parcel.read, Parcel.readDouble, hr, UInt64.toUInt64_toInt64]
  | string8 value =>
    cases value with
    | none =>
      refine wrote_null h fun r hr => ?_
      rw [Value.kind, Parcel.read, readString8_null hr]
    | some s => exact wrote_string8 hJ s h
  | string16 value =>
    cases value with
    | none =>
      refine wrote_null h fun r hr => ?_
      rw [Value.kind, Parcel.read, readString16_null hr]
    | some s => exact wrote_string16 hJ s h
  | strongBinder value =>
    cases value with
    | none =>
      refine wrote_null h fun r hr => ?_
      rw [Value.kind, Parcel.read, readStrongBinder_null hr]
    | some b => exact wrote_strongBinder hJ b h

/-! ## A sequence -/

/-- The same as `Wrote`, of a sequence. -/
structure WroteAll (J : Jvm ι) (p q : Parcel β) (vs : List (Value ι β)) : Prop where
  pos : p.pos ≤ q.pos
  within : p.pos ≤ p.size → q.pos ≤ q.size
  size : p.size ≤ q.size
  frame : ∀ i < p.data.length, i < align4 p.pos ∨ q.pos ≤ i → q.data[i]? = p.data[i]?
  binders : p.binders <+: q.binders
  reads : ∀ r : Parcel β, r.pos = p.pos → q.pos ≤ r.size →
    AgreeOn (align4 p.pos) q.pos r.data q.data → q.binders <+: r.binders →
      r.readAll J (vs.map Value.kind) = (vs, { r with pos := q.pos })

/-- What is written later lies behind. -/
theorem Wrote.cons {m : Parcel β} {v : Value ι β} {vs : List (Value ι β)} (h : Wrote J p m v)
    (h' : WroteAll J m q vs) : WroteAll J p q (v :: vs) where
  pos := (le_align4 _).trans (h.pos.trans h'.pos)
  within := fun _ => h'.within h.within
  size := h.size.trans h'.size
  frame := by
    intro i hi hout
    have hpos := h.pos
    have hpos' := h'.pos
    have haligned := h.aligned
    rw [h'.frame i (Nat.lt_of_lt_of_le hi h.grows) (by omega), h.frame i hi (by omega)]
  binders := h.binders.trans h'.binders
  reads := by
    intro r hpos hsize hagree hbinders
    -- the field of the first value is where it was laid
    have hfirst : AgreeOn (align4 p.pos) m.pos q.data m.data := by
      intro i _ hi
      exact h'.frame i (Nat.lt_of_lt_of_le hi h.room) (.inl (h.aligned.symm ▸ hi))
    have hread := h.reads r hpos (h'.pos.trans hsize)
      ((hagree.mono le_rfl h'.pos).trans hfirst) (h'.binders.trans hbinders)
    have hrest := h'.reads { r with pos := m.pos } rfl hsize
      (hagree.mono (h.pos.trans (le_align4 _)) le_rfl) hbinders
    rw [List.map_cons, Parcel.readAll, hread]
    dsimp only
    rw [hrest]

theorem wroteAll_run (hJ : J.Lawful) (vs : List (Value ι β))
    (h : Meets (Parcel.write J) (Parcel.Granted J) p vs) :
    WroteAll J p (run (Parcel.write J) p vs) vs := by
  induction vs generalizing p with
  | nil => exact ⟨le_rfl, id, le_rfl, fun _ _ _ => rfl, List.prefix_rfl, fun r hpos _ _ _ => by
      rw [List.map_nil, Parcel.readAll, run_nil, ← hpos]⟩
  | cons v vs ih => exact (wrote_write hJ v h.1).cons (ih h.2)

/-! ## Calls -/

theorem run_calls (p : Parcel β) (calls : List (WriteCall ι β)) :
    run (Parcel.call J) p calls = run (Parcel.write J) p (calls.flatMap WriteCall.values) := by
  induction calls generalizing p with
  | nil => rfl
  | cons c calls ih => cases c <;> exact ih _

theorem meets_calls {calls : List (WriteCall ι β)}
    (h : Meets (Parcel.call J) (Parcel.CallGranted J) p calls) :
    Meets (Parcel.write J) (Parcel.Granted J) p (calls.flatMap WriteCall.values) := by
  induction calls generalizing p with
  | nil => trivial
  | cons c calls ih =>
    cases c with
    | value v => exact ⟨h.1, ih h.2⟩
    | interfaceToken token => exact ⟨h.1.1, h.1.2, ih h.2⟩

/-- After a write the position is within the store. -/
theorem pos_le_size_run (hJ : J.Lawful) {v : Value ι β} {vs : List (Value ι β)}
    (h : Meets (Parcel.write J) (Parcel.Granted J) p (v :: vs)) :
    (run (Parcel.write J) p (v :: vs)).pos ≤ (run (Parcel.write J) p (v :: vs)).size :=
  (wroteAll_run hJ vs h.2).within (wrote_write hJ v h.1).within

/-- **The store round-trips**: from any parcel and any data position, after
any sequence of writes whose allocations succeed, the reads from where it
began give the values in order and leave the parcel as the writes did,
the position included. Outside what was written the bytes are as they
were, the store has not shrunk, and every binder has the index it had. -/
theorem parcel_round_trip (hJ : J.Lawful) (p : Parcel β) (start : Int32) (hstart : 0 ≤ start)
    (calls : List (WriteCall ι β))
    (h : Meets (Parcel.call J) (Parcel.CallGranted J) (p.setDataPosition start) calls) :
    let q := run (Parcel.call J) (p.setDataPosition start) calls
    let values := calls.flatMap WriteCall.values
    (q.setDataPosition start).readAll J (values.map Value.kind) = (values, q) ∧
      (∀ i < p.data.length, i < align4 start.toInt.toNat ∨ q.pos ≤ i →
        q.data[i]? = p.data[i]?) ∧
      p.size ≤ q.size ∧ p.binders <+: q.binders := by
  intro q values
  have hset : ∀ r : Parcel β, r.setDataPosition start = { r with pos := start.toInt.toNat } :=
    fun r => if_neg (Int32.not_lt.mpr hstart)
  have hgranted := meets_calls h
  have hq : q = run (Parcel.write J) (p.setDataPosition start) values := run_calls _ _
  have hwrote : WroteAll J (p.setDataPosition start) q values := by
    rw [hq]
    exact wroteAll_run hJ values hgranted
  have hframe := hwrote.frame
  have hsize := hwrote.size
  have hbinders := hwrote.binders
  rw [hset] at hframe hsize hbinders
  refine ⟨?_, hframe, hsize, hbinders⟩
  rcases hvalues : values with _ | ⟨v, vs⟩
  · -- nothing was written, and the position is where it was
    rw [hvalues, hset] at hq
    rw [hset, hq]
    rfl
  · rw [← hvalues]
    have hwithin : q.pos ≤ q.size := by
      rw [hq, hvalues]
      rw [show calls.flatMap WriteCall.values = v :: vs from hvalues] at hgranted
      exact pos_le_size_run hJ hgranted
    have hread := hwrote.reads (q.setDataPosition start)
    rw [hset, hset] at hread
    rw [hset]
    exact hread rfl hwithin (fun _ _ _ => rfl) List.prefix_rfl

/-- A machine with two strings, the empty one and "Hé". -/
def twoStrings : Jvm Bool where
  getStringUTFChars s := if s then [0x48, 0xc3, 0xa9] else []
  getStringUTFLength s := if s then 3 else 0
  getStringChars s := if s then [0x48, 0xe9] else []
  getStringLength s := if s then 2 else 0
  newStringUTF bytes := bytes ≠ []
  newString units := units ≠ []
  charsGranted _ := true
  realloc _ := true
  malloc _ := true
  newGlobalRef n := n < 51200

theorem twoStrings_lawful : twoStrings.Lawful where
  utfLength := by decide
  length := by decide
  utf_ne_zero s := by cases s <;> simp [twoStrings]
  newStringUTF := by decide
  newString := by decide
  globalRefs n h := (of_decide_eq_true h).trans (by decide)

/-- A parcel of 64 bytes that has a binder, written over from its fifth
byte on. -/
theorem parcel_round_trip_mixed :
    let p : Parcel ℕ := { data := List.replicate 64 7, size := 60, binders := [some 9] }
    let calls : List (WriteCall Bool ℕ) :=
      [.interfaceToken (some true), .value (.string8 (some true)), .value (.strongBinder (some 3)),
        .value (.string8 none), .value (.double 5), .value (.string16 (some false))]
    let q := run (Parcel.call twoStrings) (p.setDataPosition 5) calls
    (q.setDataPosition 5).readAll twoStrings
        ((calls.flatMap WriteCall.values).map Value.kind) =
      (calls.flatMap WriteCall.values, q) :=
  (parcel_round_trip twoStrings_lawful
    { data := List.replicate 64 7, size := 60, binders := [some 9] } 5 (by decide)
    [.interfaceToken (some true), .value (.string8 (some true)), .value (.strongBinder (some 3)),
      .value (.string8 none), .value (.double 5), .value (.string16 (some false))]
    (by decide +kernel)).1

end Shim

end Muplar
