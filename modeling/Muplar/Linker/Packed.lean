import Muplar.Common.Leb128
import Muplar.Common.Loop
import Muplar.Linker.Rela
/-!
# The linker — Android's packed relocations

`apply_android_rela` unpacks a table of relocations that is written as
differences, in groups, and applies each relocation as it comes to it.
The bytes of the table are a list here: what the relocations do to the
memory does not change the table they are read from.

A packer writes what several relocations have in common once for a
group. `encode` is such a packer, and the unpacker undoes it.
-/

namespace Muplar

namespace Linker

/-! ## The decoder -/

/-- Where the linker gives up. -/
inductive Fatal
  | signature
  | outOfBounds
  deriving DecidableEq

/-- `sleb128_decoder_t`: the bytes that are left. -/
abbrev Decoder (α : Type) := StateT Bytes (Except Fatal) α

/-- The loop of `sleb128_decoder_pop_front`. A shift by 64 and more is
not defined in C; the count is taken modulo 64, as the machine takes it. -/
def popLoop : (value : UInt64) → (shift : UInt32) → Bytes → Except Fatal (UInt64 × Bytes)
  | _, _, [] => .error .outOfBounds
  | value, shift, byte :: current =>
    let value := value ||| (byte &&& 127).toUInt64 <<< shift.toUInt64
    let shift := shift + 7
    if byte &&& 128 ≠ 0 then popLoop value shift current
    else
      .ok (if shift < 64 ∧ byte &&& 64 ≠ 0 then value ||| -((1 : UInt64) <<< shift.toUInt64)
        else value, current)

/-- `sleb128_decoder_pop_front`. -/
def popFront : Decoder UInt64 :=
  popLoop 0 0

def popIf (cond : Bool) (otherwise : UInt64) : Decoder UInt64 :=
  if cond then popFront else pure otherwise

/-! ## The unpacker -/

def groupedByInfoFlag : UInt64 := 1
def groupedByOffsetDeltaFlag : UInt64 := 2
def groupedByAddendFlag : UInt64 := 4
def groupHasAddendFlag : UInt64 := 8

def has (flags flag : UInt64) : Bool :=
  flags &&& flag ≠ 0

/-- `group_flags_reloc`, against its values. -/
def eachHasAddend (flags : UInt64) : Bool :=
  flags &&& (groupHasAddendFlag ||| groupedByAddendFlag) = groupHasAddendFlag

def groupHasAddend (flags : UInt64) : Bool :=
  flags &&& (groupHasAddendFlag ||| groupedByAddendFlag) = groupHasAddendFlag ||| groupedByAddendFlag

section Walk

variable {S : Type} (apply : S → Rela → S)

/-- The variables of `apply_android_rela`, and what has been applied. -/
structure Unpacking (S : Type) where
  idx : UInt64 := 0
  rela : Rela
  out : S

/-- One turn of the inner loop. -/
def unpackOne (flags offsetDelta : UInt64) (u : Unpacking S) : Decoder (Unpacking S) := do
  let delta ← popIf (!has flags groupedByOffsetDeltaFlag) offsetDelta
  let info ← popIf (!has flags groupedByInfoFlag) u.rela.info
  let addendDelta ← popIf (eachHasAddend flags) 0
  let rela : Rela :=
    { offset := u.rela.offset + delta, info, addend := u.rela.addend + addendDelta }
  return { u with rela, out := apply u.out rela }

/-- The inner loop. -/
def unpackMany (flags offsetDelta : UInt64) : ℕ → Unpacking S → Decoder (Unpacking S)
  | 0, u => pure u
  | n + 1, u => do unpackMany flags offsetDelta n (← unpackOne apply flags offsetDelta u)

/-- One turn of the outer loop. -/
def unpackGroup (u : Unpacking S) : Decoder (Unpacking S) := do
  let size ← popFront
  let flags ← popFront
  let offsetDelta ← popIf (has flags groupedByOffsetDeltaFlag) 0
  let info ← popIf (has flags groupedByInfoFlag) u.rela.info
  let addendDelta ← popIf (groupHasAddend flags) 0
  let addend := if eachHasAddend flags || groupHasAddend flags then u.rela.addend + addendDelta else 0
  let u ← unpackMany apply flags offsetDelta size.toNat
    { u with rela := { u.rela with info, addend } }
  return { u with idx := u.idx + size }

/-- The outer loop: it goes on while there are relocations to come. -/
def unpackBody (numRelocs : UInt64) (at_ : Unpacking S × Bytes) :
    Except Fatal (Unpacking S × Bytes ⊕ S) :=
  if at_.1.idx < numRelocs then (unpackGroup apply at_.1 at_.2).map .inl
  else .ok (.inr at_.1.out)

/-- `APS2`. -/
def signature : Bytes := [65, 80, 83, 50]

/-- `apply_android_rela`, with what is done for each relocation. -/
def unpack (packed : Bytes) (out : S) : Loop.Fueled Fatal S := fun n =>
  if packed.length < 4 then pure out
  else if packed.take 4 ≠ signature then throw .signature
  else do
    let header : Decoder (UInt64 × UInt64) := do
      let numRelocs ← popFront
      return (numRelocs, ← popFront)
    let ((numRelocs, offset), left) ← ExceptT.mk (some (header (packed.drop 4)))
    Loop.run (unpackBody apply numRelocs)
      ({ rela := { offset, info := 0, addend := 0 }, out }, left) n

end Walk

/-- `apply_android_rela`. -/
def Object.applyAndroidRela (obj : Object) (l : Linkage) (packed : Bytes) (m : Memory) :
    Loop.Fueled Fatal Memory :=
  unpack (fun m rela => obj.applyRela l [rela] m) packed m

/-! ## Numbers -/

open Leb128

theorem shift_spec : ∀ k ≤ 9, (UInt32.ofNat (7 * k)).toUInt64 = UInt64.ofNat (7 * k) ∧
    UInt32.ofNat (7 * k) + 7 = UInt32.ofNat (7 * (k + 1)) ∧
    (UInt32.ofNat (7 * k) < 64 ↔ 7 * k < 64) := by
  decide

/-- The last byte of a number: its bits, and the sign above them. -/
theorem popLoop_last {k : ℕ} (hk : k ≤ 9) {value : UInt64} (hvalue : value.toNat < 2 ^ (7 * k))
    {x : ℤ} (hsmall : -64 ≤ x ∧ x < 64) (hlast : k = 9 → -1 ≤ x ∧ x < 1) (rest : Bytes) :
    popLoop value (UInt32.ofNat (7 * k)) (UInt8.ofNat (x % 128).toNat :: rest) =
      .ok (UInt64.ofInt (value.toNat + x * 2 ^ (7 * k)), rest) := by
  obtain ⟨hword, hadd, -⟩ := shift_spec k hk
  obtain ⟨hbits, hclear, hsign⟩ := last_byte (x % 128).toNat (by omega)
  have hcollect := toNat_or_shiftLeft (w := (UInt8.ofNat (x % 128).toNat &&& 127).toUInt64)
    (show 7 * k < 64 by omega) hvalue
  have hcast := toNat_ofInt (value.toNat + x * 2 ^ (7 * k))
  rw [hbits] at hcollect
  rw [popLoop]
  simp only [hword, hadd, hclear, ne_eq, not_true_eq_false, if_false]
  refine congrArg (fun v => Except.ok (v, rest)) (UInt64.toNat_inj.mp ?_)
  generalize value ||| (UInt8.ofNat (x % 128).toNat &&& 127).toUInt64 <<< UInt64.ofNat (7 * k) =
    collected at hcollect ⊢
  generalize UInt64.ofInt (value.toNat + x * 2 ^ (7 * k)) = out at hcast ⊢
  rcases Nat.lt_or_ge k 9 with hlt | hge
  · obtain ⟨hword', -, hroom⟩ := shift_spec (k + 1) hlt
    have hpow : 2 ^ (7 * (k + 1)) = 2 ^ (7 * k) * 128 := by rw [Nat.mul_add, Nat.pow_add]
    have hmax : 2 ^ (7 * (k + 1)) ≤ 2 ^ 63 := Nat.pow_le_pow_right (by omega) (by omega)
    have hfit : (x % 128).toNat * 2 ^ (7 * k) ≤ 127 * 2 ^ (7 * k) :=
      Nat.mul_le_mul_right _ (by omega)
    rw [Nat.mod_eq_of_lt (by omega)] at hcollect
    by_cases hnegative : 64 ≤ (x % 128).toNat
    · have hx : x * 2 ^ (7 * k) = ((x % 128).toNat * 2 ^ (7 * k) : ℕ) - (2 ^ (7 * k) * 128 : ℕ) := by
        have hdigit : x = ((x % 128).toNat : ℤ) - 128 := by omega
        push_cast
        linear_combination (2 : ℤ) ^ (7 * k) * hdigit
      rw [hx] at hcast
      rw [if_pos ⟨hroom.mpr (by omega), hsign.mpr hnegative⟩, hword',
        toNat_or_neg_shiftLeft (by omega) (by omega)]
      omega
    · have hx : x * 2 ^ (7 * k) = ((x % 128).toNat * 2 ^ (7 * k) : ℕ) := by
        push_cast
        rw [show ((x % 128).toNat : ℤ) = x by omega]
      rw [hx] at hcast
      rw [if_neg fun h => hnegative (hsign.mp h.2)]
      omega
  · obtain rfl : k = 9 := by omega
    obtain ⟨hlow, hhigh⟩ := hlast rfl
    rw [if_neg fun h => absurd h.1 (by decide)]
    omega

/-- **A number is decoded.** On the bytes that are left of its encoding:
`k` have been taken, and their bits are `value`. -/
theorem popLoop_encode {k n : ℕ} (hk : k + n = 9) {value : UInt64} (hvalue : value.toNat < 2 ^ (7 * k))
    {x : ℤ} (hlow : -2 ^ (7 * n) ≤ x) (hhigh : x < 2 ^ (7 * n)) (rest : Bytes) :
    popLoop value (UInt32.ofNat (7 * k)) (encode x ++ rest) =
      .ok (UInt64.ofInt (value.toNat + x * 2 ^ (7 * k)), rest) := by
  induction n generalizing k value x with
  | zero =>
    rw [encode_of_small ⟨by omega, by omega⟩]
    exact popLoop_last (by omega) hvalue ⟨by omega, by omega⟩ (fun _ => ⟨by omega, by omega⟩) rest
  | succ n ih =>
    by_cases hsmall : -64 ≤ x ∧ x < 64
    · rw [encode_of_small hsmall]
      exact popLoop_last (by omega) hvalue hsmall (fun h => by omega) rest
    obtain ⟨hword, hadd, -⟩ := shift_spec k (by omega)
    obtain ⟨hbits, hset⟩ := other_byte (x % 128).toNat (by omega)
    have hcollect := toNat_or_shiftLeft (w := (UInt8.ofNat ((x % 128).toNat + 128) &&& 127).toUInt64)
      (show 7 * k < 64 by omega) hvalue
    have hpow : 2 ^ (7 * (k + 1)) = 2 ^ (7 * k) * 128 := by rw [Nat.mul_add, Nat.pow_add]
    have hmax : 2 ^ (7 * (k + 1)) ≤ 2 ^ 63 := Nat.pow_le_pow_right (by omega) (by omega)
    have hfit : (x % 128).toNat * 2 ^ (7 * k) ≤ 127 * 2 ^ (7 * k) :=
      Nat.mul_le_mul_right _ (by omega)
    rw [hbits, Nat.mod_eq_of_lt (by omega)] at hcollect
    rw [encode_of_large hsmall, List.cons_append, popLoop]
    simp only [hword, hadd, hset, ne_eq, not_false_eq_true, if_true]
    have hquot : (2 : ℤ) ^ (7 * (n + 1)) = 128 * 2 ^ (7 * n) := by ring
    rw [hquot] at hlow hhigh
    rw [ih (k := k + 1) (by omega) (by omega) (by omega) (by omega), hcollect]
    have hx : x * 2 ^ (7 * k) =
        ((x % 128).toNat * 2 ^ (7 * k) : ℕ) + x / 128 * 2 ^ (7 * (k + 1)) := by
      have hdigit : x = ((x % 128).toNat : ℤ) + 128 * (x / 128) := by omega
      push_cast
      linear_combination (2 : ℤ) ^ (7 * k) * hdigit
    rw [hx, ← Int.add_assoc, Nat.cast_add]

/-- **A number is taken back.** -/
theorem popFront_encode (v : UInt64) (rest : Bytes) :
    popFront (encodeWord v ++ rest) = .ok (v, rest) := by
  obtain ⟨hlow, hhigh⟩ := signed_bounds v
  have hzero : (0 : UInt64).toNat < 2 ^ (7 * 0) := by decide
  have hpop := popLoop_encode (k := 0) (n := 9) rfl hzero hlow hhigh rest
  rw [Nat.mul_zero, Int.pow_zero, Int.mul_one] at hpop
  refine hpop.trans ?_
  rw [UInt64.toNat_zero, Nat.cast_zero, Int.zero_add, ofInt_signed]

/-- What is written only sometimes. -/
def pushIf (cond : Bool) (v : UInt64) : Bytes :=
  if cond then encodeWord v else []

theorem popIf_pushIf (cond : Bool) (v otherwise : UInt64) (rest : Bytes) :
    popIf cond otherwise (pushIf cond v ++ rest) = .ok (if cond then v else otherwise, rest) := by
  cases cond with
  | true => exact popFront_encode v rest
  | false => rfl

theorem bind_ok {α β : Type} {x : Decoder α} {f : α → Decoder β} {left left' : Bytes} {a : α}
    (h : x left = .ok (a, left')) : (x >>= f) left = f a left' := by
  show (x left >>= fun p => f p.1 p.2) = _
  rw [h]
  rfl

/-! ## The packer -/

/-- **A group.** Relocations that are written together, and what of them
is written once. -/
structure Group where
  byInfo : Bool
  byOffsetDelta : Bool
  byAddend : Bool
  hasAddend : Bool
  relas : List Rela

def flagsOf (byInfo byOffsetDelta byAddend hasAddend : Bool) : UInt64 :=
  (if byInfo then groupedByInfoFlag else 0) |||
    (if byOffsetDelta then groupedByOffsetDeltaFlag else 0) |||
    (if byAddend then groupedByAddendFlag else 0) ||| (if hasAddend then groupHasAddendFlag else 0)

namespace Group

variable (g : Group)

def flags : UInt64 :=
  flagsOf g.byInfo g.byOffsetDelta g.byAddend g.hasAddend

/-- Each relocation of the group has its addend written. -/
def each : Bool :=
  g.hasAddend && !g.byAddend

/-- One addend is written for the group. -/
def once : Bool :=
  g.hasAddend && g.byAddend

/-- What the relocations of the group share, where they do: it is read
off the first. -/
def first : Rela :=
  g.relas.headD ⟨0, 0, 0⟩

/-- The step from each offset to the next, the first being from `offset`. -/
def delta (offset : UInt64) : UInt64 :=
  g.first.offset - offset

/-- What the differences of the group start from, after `last`. -/
def opening (last : Rela) : Rela where
  offset := last.offset
  info := if g.byInfo then g.first.info else last.info
  addend := if g.once then g.first.addend else if g.each then last.addend else 0

def closing (last : Rela) : Rela :=
  g.relas.getLastD (g.opening last)

/-- What is written once can stand for all. -/
structure Fits (last : Rela) : Prop where
  info : g.byInfo → ∀ r ∈ g.relas, r.info = g.first.info
  offset : g.byOffsetDelta →
    (last.offset :: g.relas.map (·.offset)).IsChain fun a b => b = a + g.delta last.offset
  addend : g.once → ∀ r ∈ g.relas, r.addend = g.first.addend
  zero : g.hasAddend = false → ∀ r ∈ g.relas, r.addend = 0

/-- A relocation of the group, after `last`. -/
def encodeOne (last r : Rela) : Bytes :=
  pushIf (!g.byOffsetDelta) (r.offset - last.offset) ++
    (pushIf (!g.byInfo) r.info ++ pushIf g.each (r.addend - last.addend))

def encodeMany : (last : Rela) → List Rela → Bytes
  | _, [] => []
  | last, r :: relas => g.encodeOne last r ++ encodeMany r relas

def encode (last : Rela) : Bytes :=
  encodeWord (UInt64.ofNat g.relas.length) ++ (encodeWord g.flags ++
    (pushIf g.byOffsetDelta (g.delta last.offset) ++ (pushIf g.byInfo g.first.info ++
      (pushIf g.once (g.first.addend - last.addend) ++ g.encodeMany (g.opening last) g.relas))))

end Group

def encodeGroups : (last : Rela) → List Group → Bytes
  | _, [] => []
  | last, g :: groups => g.encode last ++ encodeGroups (g.closing last) groups

/-- Every group can be written as its flags say, after those before it. -/
def FitAll : (last : Rela) → List Group → Prop
  | _, [] => True
  | last, g :: groups => g.Fits last ∧ FitAll (g.closing last) groups

/-- The table that is not packed. -/
def unpacked (groups : List Group) : List Rela :=
  groups.flatMap (·.relas)

/-- The packed table. The differences of the offsets start from `offset`. -/
def pack (offset : UInt64) (groups : List Group) : Bytes :=
  signature ++ (encodeWord (UInt64.ofNat (unpacked groups).length) ++ (encodeWord offset ++
    encodeGroups ⟨offset, 0, 0⟩ groups))

/-! ## Unpacking what was packed -/

theorem flagsOf_spec : ∀ byInfo byOffsetDelta byAddend hasAddend : Bool,
    let flags := flagsOf byInfo byOffsetDelta byAddend hasAddend
    has flags groupedByInfoFlag = byInfo ∧ has flags groupedByOffsetDeltaFlag = byOffsetDelta ∧
      eachHasAddend flags = (hasAddend && !byAddend) ∧
      groupHasAddend flags = (hasAddend && byAddend) := by
  decide

theorem add_difference (a b : UInt64) : a + (b - a) = b := by
  rw [UInt64.add_comm, UInt64.sub_add_cancel]

section Unpack

variable {S : Type} {apply : S → Rela → S} {g : Group} {last r : Rela} {idx : UInt64} {out : S}

theorem Group.has_info : has g.flags groupedByInfoFlag = g.byInfo :=
  (flagsOf_spec ..).1

theorem Group.has_offsetDelta : has g.flags groupedByOffsetDeltaFlag = g.byOffsetDelta :=
  (flagsOf_spec ..).2.1

theorem Group.eachHasAddend_flags : eachHasAddend g.flags = g.each :=
  (flagsOf_spec ..).2.2.1

theorem Group.groupHasAddend_flags : groupHasAddend g.flags = g.once :=
  (flagsOf_spec ..).2.2.2

/-- One relocation, from the differences that are written of it. -/
theorem unpackOne_encodeOne {delta : UInt64} (hoffset : g.byOffsetDelta → r.offset = last.offset + delta)
    (hinfo : g.byInfo → r.info = last.info) (haddend : g.each = false → r.addend = last.addend)
    (rest : Bytes) :
    unpackOne apply g.flags delta { idx, rela := last, out } (g.encodeOne last r ++ rest) =
      .ok ({ idx, rela := r, out := apply out r }, rest) := by
  have hdelta : last.offset + (if !g.byOffsetDelta then r.offset - last.offset else delta) =
      r.offset := by
    cases hgrouped : g.byOffsetDelta with
    | true => exact (hoffset hgrouped).symm
    | false => exact add_difference _ _
  have hshared : (if !g.byInfo then r.info else last.info) = r.info := by
    cases hgrouped : g.byInfo with
    | true => exact (hinfo hgrouped).symm
    | false => rfl
  have hsum : last.addend + (if g.each then r.addend - last.addend else 0) = r.addend := by
    cases heach : g.each with
    | true => exact add_difference _ _
    | false => exact (UInt64.add_zero _).trans (haddend heach).symm
  rw [unpackOne, Group.encodeOne, List.append_assoc, List.append_assoc, Group.has_offsetDelta,
    Group.has_info, Group.eachHasAddend_flags, bind_ok (popIf_pushIf ..),
    bind_ok (popIf_pushIf ..), bind_ok (popIf_pushIf ..)]
  simp only [hdelta, hshared, hsum]
  rfl

/-- The relocations of a group, one after the other. -/
theorem unpackMany_encodeMany (info addend : UInt64) {delta : UInt64} {relas : List Rela}
    (hoffset : g.byOffsetDelta →
      (last.offset :: relas.map (·.offset)).IsChain fun a b => b = a + delta)
    (hinfo : g.byInfo → last.info = info ∧ ∀ r ∈ relas, r.info = info)
    (haddend : g.each = false → last.addend = addend ∧ ∀ r ∈ relas, r.addend = addend)
    (rest : Bytes) :
    unpackMany apply g.flags delta relas.length { idx, rela := last, out }
        (g.encodeMany last relas ++ rest) =
      .ok ({ idx, rela := relas.getLastD last, out := relas.foldl apply out }, rest) := by
  induction relas generalizing last out with
  | nil => rfl
  | cons r relas ih =>
    have hone : unpackOne apply g.flags delta { idx, rela := last, out }
        (g.encodeOne last r ++ (g.encodeMany r relas ++ rest)) =
          .ok ({ idx, rela := r, out := apply out r }, g.encodeMany r relas ++ rest) :=
      unpackOne_encodeOne (fun h => (List.isChain_cons_cons.mp (hoffset h)).1)
        (fun h => ((hinfo h).2 r List.mem_cons_self).trans (hinfo h).1.symm)
        (fun h => ((haddend h).2 r List.mem_cons_self).trans (haddend h).1.symm) _
    rw [Group.encodeMany, List.append_assoc, List.length_cons, unpackMany, bind_ok hone, ih]
    · rw [List.getLastD_cons, List.foldl_cons]
    · exact fun h => (List.isChain_cons_cons.mp (hoffset h)).2
    · exact fun h => ⟨(hinfo h).2 r List.mem_cons_self,
        fun s hs => (hinfo h).2 s (List.mem_cons_of_mem r hs)⟩
    · exact fun h => ⟨(haddend h).2 r List.mem_cons_self,
        fun s hs => (haddend h).2 s (List.mem_cons_of_mem r hs)⟩

/-- One group. -/
theorem unpackGroup_encode (hfits : g.Fits last) (hcount : g.relas.length < 2 ^ 64) (rest : Bytes) :
    unpackGroup apply { idx, rela := last, out } (g.encode last ++ rest) =
      .ok ({ idx := idx + UInt64.ofNat g.relas.length, rela := g.closing last,
             out := g.relas.foldl apply out }, rest) := by
  have hopening : { last with
      info := if g.byInfo then g.first.info else last.info
      addend := if g.each || g.once then last.addend + (if g.once then g.first.addend - last.addend
        else 0) else 0 } = g.opening last := by
    rw [Group.opening]
    cases g.once with
    | true => simp only [Bool.or_true, if_true, add_difference]
    | false => simp only [Bool.or_false, Bool.false_eq_true, if_false, UInt64.add_zero]
  have hsize : (UInt64.ofNat g.relas.length).toNat = g.relas.length :=
    UInt64.toNat_ofNat_of_lt' hcount
  have hmany : unpackMany apply g.flags (if g.byOffsetDelta then g.delta last.offset else 0)
      g.relas.length { idx, rela := g.opening last, out }
        (g.encodeMany (g.opening last) g.relas ++ rest) =
          .ok ({ idx, rela := g.closing last, out := g.relas.foldl apply out }, rest) := by
    refine unpackMany_encodeMany g.first.info (if g.once then g.first.addend else 0)
      (fun h => ?_) (fun h => ?_) (fun h => ?_) rest
    · rw [if_pos h]
      exact hfits.offset h
    · exact ⟨if_pos h, hfits.info h⟩
    · refine ⟨?_, fun r hr => ?_⟩
      · rw [Group.opening, h]
        rfl
      · cases honce : g.once with
        | true => exact hfits.addend honce r hr
        | false =>
          have hnone : g.hasAddend = false := by
            revert h honce
            cases hhas : g.hasAddend <;> simp [Group.each, Group.once, hhas]
          exact hfits.zero hnone r hr
  simp only [Group.encode, List.append_assoc]
  rw [unpackGroup, bind_ok (popFront_encode _ _), bind_ok (popFront_encode _ _),
    Group.has_offsetDelta, Group.has_info, Group.eachHasAddend_flags, Group.groupHasAddend_flags,
    bind_ok (popIf_pushIf ..), bind_ok (popIf_pushIf ..), bind_ok (popIf_pushIf ..), hsize]
  simp only [hopening]
  rw [bind_ok hmany]
  rfl

/-- All groups, to the end of the loop. -/
theorem run_encodeGroups (apply : S → Rela → S) (idx : UInt64) (out : S) {groups : List Group}
    {numRelocs : UInt64} (hfits : FitAll last groups)
    (hcount : idx.toNat + (unpacked groups).length = numRelocs.toNat) (rest : Bytes) :
    Loop.Yields (Loop.run (unpackBody apply numRelocs)
        ({ idx, rela := last, out }, encodeGroups last groups ++ rest))
      (.ok ((unpacked groups).foldl apply out)) := by
  have hlt := numRelocs.toNat_lt
  induction groups generalizing idx last out with
  | nil =>
    refine Loop.yields_return ?_
    rw [unpackBody, if_neg]
    · rfl
    · rw [UInt64.lt_iff_toNat_lt, ← hcount]
      exact Nat.lt_irrefl _
  | cons g groups ih =>
    have hlength : (unpacked (g :: groups)).length = g.relas.length + (unpacked groups).length := by
      rw [unpacked, List.flatMap_cons, List.length_append]
      rfl
    by_cases hmore : idx < numRelocs
    · let next : Unpacking S :=
        { idx := idx + UInt64.ofNat g.relas.length
          rela := g.closing last
          out := g.relas.foldl apply out }
      have hbody : unpackBody apply numRelocs ({ idx, rela := last, out },
          encodeGroups last (g :: groups) ++ rest) =
            .ok (.inl (next, encodeGroups (g.closing last) groups ++ rest)) := by
        rw [unpackBody, if_pos hmore, encodeGroups, List.append_assoc,
          unpackGroup_encode hfits.1 (by omega)]
        rfl
      have hidx : (idx + UInt64.ofNat g.relas.length).toNat = idx.toNat + g.relas.length := by
        rw [UInt64.toNat_add, UInt64.toNat_ofNat_of_lt' (show g.relas.length < 2 ^ 64 by omega)]
        omega
      rw [Loop.yields_next hbody, unpacked, List.flatMap_cons, List.foldl_append]
      exact ih _ _ hfits.2 (by omega)
    · -- the groups that are left, if any, are empty
      have hnone : unpacked (g :: groups) = [] := by
        rw [UInt64.lt_iff_toNat_lt] at hmore
        exact List.eq_nil_of_length_eq_zero (by omega)
      rw [hnone]
      refine Loop.yields_return ?_
      rw [unpackBody, if_neg hmore]
      rfl

/-- Whatever is done for a relocation, it is done for those of the table
that is not packed, in order. -/
theorem unpack_pack (apply : S → Rela → S) (out : S) {offset : UInt64} {groups : List Group}
    (hfits : FitAll ⟨offset, 0, 0⟩ groups)
    (hcount : (unpacked groups).length < 2 ^ 64) (rest : Bytes) :
    Loop.Yields (unpack apply (pack offset groups ++ rest) out)
      (.ok ((unpacked groups).foldl apply out)) := by
  have hsize : (UInt64.ofNat (unpacked groups).length).toNat = (unpacked groups).length :=
    UInt64.toNat_ofNat_of_lt' hcount
  obtain ⟨n, hn⟩ := run_encodeGroups apply 0 out hfits
    ((Nat.zero_add _).trans hsize.symm) rest
  refine ⟨n, ?_⟩
  have hshort : ¬(pack offset groups ++ rest).length < 4 := by
    simp [pack, signature]
  have hsignature : (pack offset groups ++ rest).take 4 = signature := rfl
  have hdrop : (pack offset groups ++ rest).drop 4 =
      encodeWord (UInt64.ofNat (unpacked groups).length) ++ (encodeWord offset ++
        (encodeGroups ⟨offset, 0, 0⟩ groups ++ rest)) := by
    simp [pack, signature]
  rw [unpack, if_neg hshort, if_neg (not_not.mpr hsignature), hdrop]
  simp only
  rw [bind_ok (popFront_encode _ _), bind_ok (popFront_encode _ _)]
  exact hn

end Unpack

/-- Two relocations 8 bytes apart for the base, and one for a symbol, with
its own addend. -/
def twoGroups : List Group :=
  [{ byInfo := true, byOffsetDelta := true, byAddend := false, hasAddend := false
     relas := [⟨0x1008, 1027, 0⟩, ⟨0x1010, 1027, 0⟩] },
   { byInfo := false, byOffsetDelta := false, byAddend := false, hasAddend := true
     relas := [⟨0xfff0, 0x100000101, 0x8000000000000000⟩] }]

end Linker

end Muplar
