import Mathlib.Data.List.AList
import Mathlib.Tactic.Common
import Muplar.Common.Bytes
import Muplar.Common.Run
/-!
# The Android runtime — assets

An open asset is its bytes and a cursor. The guest reads at the cursor and
seeks with a signed offset of 64 bits, added in that type to nothing, to
the cursor or to the size. Where the sum does not fit the type the
addition is undefined, and this happens only for offsets close to the
largest; everything else comes out as the numbers say.
-/

namespace Muplar

namespace Android

/-! ## State -/

/-- The bytes of an asset: no vector has more than these. -/
abbrev AssetBytes :=
  { bytes : Bytes // bytes.length < 2 ^ 63 }

structure AssetState where
  name : Bytes
  bytes : AssetBytes
  offset : ℕ := 0

/-- `bytes.size()`. -/
def AssetState.size (asset : AssetState) : ℕ :=
  asset.bytes.val.length

structure AssetTable where
  assets : AList fun _ : UInt64 => AssetState
  nextAssetHandle : UInt64

/-- The assets before the first is opened. -/
def AssetTable.start : AssetTable where
  assets := ∅
  nextAssetHandle := 0xA5511000

/-- The calls of the guest. A read says whether `guest_write` to the buffer
succeeds, and an open what was found under the name. -/
inductive AssetCall
  | openAsset (name : Bytes) (found : Option AssetBytes)
  | read (asset buffer count : UInt64) (writes : Bool)
  | close (asset : UInt64)
  | getLength (asset : UInt64)
  | getRemainingLength (asset : UInt64)
  | seek (asset offset whence : UInt64)

/-- What a call comes to. -/
structure AssetAnswer where
  assets : AssetTable
  value : UInt64
  /-- the buffer and the bytes given to `guest_write` -/
  copied : Option (UInt64 × Bytes) := none
  /-- a signed sum does not fit its type -/
  overflows : Bool := false

/-! ## The stubs -/

namespace AssetTable

variable (t : AssetTable)

/-- The asset with another cursor. -/
def move (handle : UInt64) (asset : AssetState) (offset : ℕ) : AssetTable :=
  { t with assets := t.assets.insert handle { asset with offset } }

/-- `AAssetManager_open`. -/
def openAsset (name : Bytes) (found : Option AssetBytes) : AssetAnswer :=
  match found with
  | none => ⟨t, 0, none, false⟩
  | some bytes =>
    { assets :=
        { assets := t.assets.insert t.nextAssetHandle { name, bytes }
          nextAssetHandle := t.nextAssetHandle + 1 }
      value := t.nextAssetHandle }

/-- What is left behind the cursor. -/
def remaining (asset : AssetState) : ℕ :=
  if asset.offset < asset.size then asset.size - asset.offset else 0

/-- `AAsset_read`. -/
def read (handle buffer count : UInt64) (writes : Bool) : AssetAnswer :=
  match t.assets.lookup handle with
  | none => { assets := t, value := -1 }
  | some asset =>
    if buffer = 0 then { assets := t, value := -1 }
    else
      let n := min (remaining asset) (min count.toNat 0x7fffffff)
      let bytes := slice asset.bytes.val asset.offset n
      if n > 0 then
        if writes then
          { assets := t.move handle asset (asset.offset + n)
            value := UInt64.ofNat n
            copied := some (buffer, bytes) }
        else { assets := t, value := -1, copied := some (buffer, bytes) }
      else { assets := t.move handle asset (asset.offset + n), value := UInt64.ofNat n }

/-- `AAsset_close`. -/
def close (handle : UInt64) : AssetAnswer :=
  { assets := { t with assets := t.assets.erase handle }, value := 0 }

/-- `AAsset_getLength` and `AAsset_getLength64`. -/
def getLength (handle : UInt64) : AssetAnswer :=
  match t.assets.lookup handle with
  | none => { assets := t, value := 0 }
  | some asset => { assets := t, value := UInt64.ofNat asset.size }

/-- `AAsset_getRemainingLength` and `AAsset_getRemainingLength64`. -/
def getRemainingLength (handle : UInt64) : AssetAnswer :=
  match t.assets.lookup handle with
  | none => { assets := t, value := 0 }
  | some asset => { assets := t, value := UInt64.ofNat (remaining asset) }

/-- The base of a seek, by its mode: `SEEK_SET`, `SEEK_CUR`, `SEEK_END`. -/
def seekBase (asset : AssetState) (whence : UInt32) : Option ℤ :=
  if whence = 0 then some 0
  else if whence = 1 then some asset.offset
  else if whence = 2 then some asset.size
  else none

/-- A sum fits `int64_t`. -/
def Fits (sum : ℤ) : Prop :=
  -(2 ^ 63) ≤ sum ∧ sum < 2 ^ 63

instance (sum : ℤ) : Decidable (Fits sum) :=
  inferInstanceAs (Decidable (_ ∧ _))

/-- `AAsset_seek` and `AAsset_seek64`. A sum that does not fit wraps around
here, as the machine's addition does. -/
def seek (handle offset whence : UInt64) : AssetAnswer :=
  match t.assets.lookup handle with
  | none => { assets := t, value := -1 }
  | some asset =>
    match seekBase asset whence.toUInt32 with
    | none => { assets := t, value := -1 }
    | some base =>
      let sum := base + offset.toInt64.toInt
      let next := sum.bmod (2 ^ 64)
      if next < 0 ∨ asset.size < next.toNat then
        { assets := t, value := -1, overflows := !decide (Fits sum) }
      else
        { assets := t.move handle asset next.toNat
          value := UInt64.ofNat next.toNat
          overflows := !decide (Fits sum) }

/-- A call of the guest. -/
def answer : AssetCall → AssetAnswer
  | .openAsset name found => t.openAsset name found
  | .read asset buffer count writes => t.read asset buffer count writes
  | .close asset => t.close asset
  | .getLength asset => t.getLength asset
  | .getRemainingLength asset => t.getRemainingLength asset
  | .seek asset offset whence => t.seek asset offset whence

def step (call : AssetCall) : AssetTable :=
  (t.answer call).assets

/-! ## What is asked of a call -/

/-- Every cursor is between the start and the end. -/
def Within : Prop :=
  ∀ handle asset, t.assets.lookup handle = some asset → asset.offset ≤ asset.size

/-- The calls on an open asset do what they are for. A read fails where
there is no buffer or it cannot be written to; else it copies what is at
the cursor and passes over it. A seek goes where the numbers say, or fails
and stays. -/
def Right (call : AssetCall) : Prop :=
  let r := t.answer call
  match call with
  | .read handle buffer count writes => ∀ asset, t.assets.lookup handle = some asset →
    let n := min (asset.size - asset.offset) (min count.toNat 0x7fffffff)
    if buffer = 0 ∨ 0 < n ∧ writes = false then r.value = -1 ∧ r.assets = t
    else r.value.toNat = n ∧ r.assets = t.move handle asset (asset.offset + n) ∧
      (0 < n → r.copied = some (buffer, slice asset.bytes.val asset.offset n))
  | .getLength handle => ∀ asset, t.assets.lookup handle = some asset →
    r.value.toNat = asset.size ∧ r.assets = t
  | .getRemainingLength handle => ∀ asset, t.assets.lookup handle = some asset →
    r.value.toNat = asset.size - asset.offset ∧ r.assets = t
  | .seek handle offset whence => ∀ asset, t.assets.lookup handle = some asset →
    match seekBase asset whence.toUInt32 with
    | none => r.value = -1 ∧ r.assets = t
    | some base =>
      let target := base + offset.toInt64.toInt
      if 0 ≤ target ∧ target ≤ asset.size then
        r.value.toNat = target.toNat ∧ r.assets = t.move handle asset target.toNat
      else r.value = -1 ∧ r.assets = t
  | _ => True

/-- A call is right, leaves every cursor within its asset and computes
nothing that does not fit its type. -/
def Correct (call : AssetCall) : Prop :=
  t.Right call ∧ (t.step call).Within ∧ (t.answer call).overflows = false

/-- The sum of a seek is below the largest number of its type. -/
def SumFits : AssetCall → Prop
  | .seek handle offset whence => ∀ asset base, t.assets.lookup handle = some asset →
    seekBase asset whence.toUInt32 = some base → base + offset.toInt64.toInt < 2 ^ 63
  | _ => True

/-! ## One call -/

section OneCall

variable {t : AssetTable}

theorem Within.move (h : t.Within) {handle : UInt64} {asset : AssetState} {offset : ℕ}
    (hoffset : offset ≤ asset.size) : (t.move handle asset offset).Within := by
  intro other asset' hlookup
  by_cases heq : other = handle
  · subst heq
    rw [AssetTable.move, AList.lookup_insert] at hlookup
    obtain rfl := Option.some.inj hlookup
    exact hoffset
  · rw [AssetTable.move, AList.lookup_insert_ne heq] at hlookup
    exact h other asset' hlookup

theorem remaining_eq (asset : AssetState) : remaining asset = asset.size - asset.offset := by
  rw [remaining]
  split <;> omega

theorem toNat_size (asset : AssetState) : (UInt64.ofNat asset.size).toNat = asset.size := by
  have hsize := asset.bytes.property
  rw [UInt64.toNat_ofNat', AssetState.size]
  omega

theorem right_read (handle buffer count : UInt64) (writes : Bool) :
    t.Right (.read handle buffer count writes) := by
  intro asset hlookup
  have hsize : asset.size < 2 ^ 63 := asset.bytes.property
  dsimp only [answer]
  rw [read, hlookup]
  dsimp only
  rw [remaining_eq]
  generalize hn : min (asset.size - asset.offset) (min count.toNat 0x7fffffff) = n
  have hvalue : (UInt64.ofNat n).toNat = n := by
    rw [UInt64.toNat_ofNat']
    omega
  by_cases hbuffer : buffer = 0
  · rw [if_pos hbuffer, if_pos (.inl hbuffer)]
    exact ⟨rfl, rfl⟩
  rw [if_neg hbuffer]
  by_cases hpos : 0 < n
  · rw [if_pos hpos]
    cases writes with
    | false =>
      rw [if_pos (.inr ⟨hpos, rfl⟩)]
      exact ⟨rfl, rfl⟩
    | true =>
      rw [if_neg fun h => h.elim hbuffer fun h => Bool.false_ne_true h.2.symm]
      exact ⟨hvalue, rfl, fun _ => rfl⟩
  · rw [if_neg hpos, if_neg fun h => h.elim hbuffer fun h => hpos h.1]
    exact ⟨hvalue, rfl, fun h => absurd h hpos⟩

theorem right_getLength (handle : UInt64) : t.Right (.getLength handle) := by
  intro asset hlookup
  dsimp only [answer]
  rw [getLength, hlookup]
  exact ⟨toNat_size asset, rfl⟩

theorem right_getRemainingLength (handle : UInt64) : t.Right (.getRemainingLength handle) := by
  intro asset hlookup
  have hsize : asset.size < 2 ^ 63 := asset.bytes.property
  dsimp only [answer]
  rw [getRemainingLength, hlookup]
  refine ⟨?_, rfl⟩
  dsimp only
  rw [remaining_eq, UInt64.toNat_ofNat']
  omega

/-- A base is neither negative nor as large as the type. -/
theorem seekBase_bounds (h : t.Within) {handle : UInt64} {asset : AssetState}
    (hlookup : t.assets.lookup handle = some asset) {whence : UInt32} {base : ℤ}
    (hbase : seekBase asset whence = some base) : 0 ≤ base ∧ base < 2 ^ 63 := by
  have hsize : asset.size < 2 ^ 63 := asset.bytes.property
  have hoffset := h handle asset hlookup
  unfold seekBase at hbase
  split_ifs at hbase <;> cases hbase <;> omega

/-- **A seek whose sum fits** does what the numbers say; one whose sum does
not fit asks for a place behind the end, and fails as it should, but on a
sum that is not defined. -/
theorem right_seek (h : t.Within) (handle offset whence : UInt64) :
    t.Right (.seek handle offset whence) := by
  intro asset hlookup
  have hsize : asset.size < 2 ^ 63 := asset.bytes.property
  dsimp only [answer]
  rw [seek, hlookup]
  dsimp only
  cases hbase : seekBase asset whence.toUInt32 with
  | none => exact ⟨rfl, rfl⟩
  | some base =>
    obtain ⟨hlow, hhigh⟩ := seekBase_bounds h hlookup hbase
    have hoffset := offset.toInt64.toInt_lt
    have hoffset' := offset.toInt64.le_toInt
    dsimp only
    generalize hsum : base + offset.toInt64.toInt = sum
    have hwrap : sum.bmod (2 ^ 64) = if sum < 2 ^ 63 then sum else sum - 2 ^ 64 := by
      rw [Int.bmod_def]
      split_ifs <;> omega
    rw [hwrap]
    by_cases hinside : 0 ≤ sum ∧ sum ≤ asset.size
    · have hfits : sum < 2 ^ 63 := by omega
      have hin : ¬(sum < 0 ∨ asset.size < sum.toNat) := by omega
      rw [if_pos hfits, if_neg hin, if_pos hinside]
      refine ⟨?_, rfl⟩
      dsimp only
      rw [UInt64.toNat_ofNat']
      omega
    · have hout : (if sum < 2 ^ 63 then sum else sum - 2 ^ 64) < 0 ∨
          asset.size < (if sum < 2 ^ 63 then sum else sum - 2 ^ 64).toNat := by
        split_ifs <;> omega
      rw [if_pos hout, if_neg hinside]
      exact ⟨rfl, rfl⟩

theorem right_answer (h : t.Within) (call : AssetCall) : t.Right call := by
  cases call with
  | openAsset name found => trivial
  | read handle buffer count writes => exact right_read handle buffer count writes
  | close handle => trivial
  | getLength handle => exact right_getLength handle
  | getRemainingLength handle => exact right_getRemainingLength handle
  | seek handle offset whence => exact right_seek h handle offset whence

/-- **No call takes a cursor out of its asset.** -/
theorem Within.step (h : t.Within) (call : AssetCall) : (t.step call).Within := by
  have hright := right_answer h call
  cases call with
  | openAsset name found =>
    cases found with
    | none => exact h
    | some bytes =>
      intro handle asset hlookup
      by_cases heq : handle = t.nextAssetHandle
      · subst heq
        have hnew := (AList.lookup_insert t.assets).symm.trans hlookup
        obtain rfl := Option.some.inj hnew
        exact Nat.zero_le _
      · exact h handle asset ((AList.lookup_insert_ne heq).symm.trans hlookup)
  | close handle =>
    intro other asset hlookup
    by_cases heq : other = handle
    · subst heq
      have hnone := (AList.lookup_erase other t.assets).symm.trans hlookup
      cases hnone
    · exact h other asset ((AList.lookup_erase_ne heq).symm.trans hlookup)
  | read handle buffer count writes =>
    rcases Option.eq_none_or_eq_some (t.assets.lookup handle) with hnone | ⟨asset, hlookup⟩
    · rwa [AssetTable.step, answer, read, hnone]
    · have hoffset := h handle asset hlookup
      have hread := hright asset hlookup
      dsimp only at hread
      split_ifs at hread
      · rw [AssetTable.step, hread.2]
        exact h
      · rw [AssetTable.step, hread.2.1]
        exact h.move (by omega)
  | getLength handle =>
    rcases Option.eq_none_or_eq_some (t.assets.lookup handle) with hnone | ⟨asset, hlookup⟩
    · rwa [AssetTable.step, answer, getLength, hnone]
    · rwa [AssetTable.step, (hright asset hlookup).2]
  | getRemainingLength handle =>
    rcases Option.eq_none_or_eq_some (t.assets.lookup handle) with hnone | ⟨asset, hlookup⟩
    · rwa [AssetTable.step, answer, getRemainingLength, hnone]
    · rwa [AssetTable.step, (hright asset hlookup).2]
  | seek handle offset whence =>
    rcases Option.eq_none_or_eq_some (t.assets.lookup handle) with hnone | ⟨asset, hlookup⟩
    · rwa [AssetTable.step, answer, seek, hnone]
    · have hseek := hright asset hlookup
      cases hbase : seekBase asset whence.toUInt32 with
      | none =>
        rw [hbase] at hseek
        rwa [AssetTable.step, hseek.2]
      | some base =>
        rw [hbase] at hseek
        dsimp only at hseek
        split_ifs at hseek with hinside
        · rw [AssetTable.step, hseek.2]
          exact h.move (by omega)
        · rwa [AssetTable.step, hseek.2]

/-- A sum that does not fit is one that is too large. -/
theorem overflows_iff (h : t.Within) (call : AssetCall) :
    (t.answer call).overflows = false ↔ t.SumFits call := by
  cases call with
  | openAsset name found => cases found <;> exact ⟨fun _ => trivial, fun _ => rfl⟩
  | close handle => exact ⟨fun _ => trivial, fun _ => rfl⟩
  | read handle buffer count writes =>
    refine ⟨fun _ => trivial, fun _ => ?_⟩
    rw [answer, read]
    split
    · rfl
    · dsimp only
      split_ifs <;> rfl
  | getLength handle =>
    refine ⟨fun _ => trivial, fun _ => ?_⟩
    rw [answer, getLength]
    split <;> rfl
  | getRemainingLength handle =>
    refine ⟨fun _ => trivial, fun _ => ?_⟩
    rw [answer, getRemainingLength]
    split <;> rfl
  | seek handle offset whence =>
    rw [answer, seek, SumFits]
    rcases Option.eq_none_or_eq_some (t.assets.lookup handle) with hnone | ⟨asset, hlookup⟩
    · rw [hnone]
      exact ⟨fun _ _ _ hsome => (nomatch hsome), fun _ => rfl⟩
    rw [hlookup]
    dsimp only
    cases hbase : seekBase asset whence.toUInt32 with
    | none =>
      refine ⟨fun _ asset' base hsome hbase' => ?_, fun _ => rfl⟩
      obtain rfl := Option.some.inj hsome
      rw [hbase] at hbase'
      cases hbase'
    | some base =>
      obtain ⟨hlow, hhigh⟩ := seekBase_bounds h hlookup hbase
      have hoffset := offset.toInt64.le_toInt
      have hfits : Fits (base + offset.toInt64.toInt) ↔ base + offset.toInt64.toInt < 2 ^ 63 :=
        ⟨fun hsum => hsum.2, fun hsum => ⟨by omega, hsum⟩⟩
      dsimp only
      rw [apply_ite AssetAnswer.overflows, ite_self, Bool.not_eq_false', decide_eq_true_iff, hfits]
      refine ⟨fun hsum asset' base' hsome hbase' => ?_, fun hall => hall asset base rfl hbase⟩
      obtain rfl := Option.some.inj hsome
      rw [hbase] at hbase'
      obtain rfl := Option.some.inj hbase'
      exact hsum

end OneCall

/-! ## Runs -/

/-- **When the cursors are correct.** In every run from the start, of
whatever is opened, every call is correct if and only if no seek asks for a
sum that is too large. -/
theorem assets_correct_iff (calls : List AssetCall) :
    Machine.Meets step Correct .start calls ↔ Machine.Meets step SumFits .start calls := by
  refine Machine.meets_congr (K := Within) (fun t call h => h.step call) (fun t call h => ?_) ?_ calls
  · rw [Correct, overflows_iff h]
    exact ⟨fun hcorrect => hcorrect.2.2, fun hfits => ⟨right_answer h call, h.step call, hfits⟩⟩
  · exact fun handle asset hlookup => nomatch hlookup

/-- An asset of one byte, its cursor moved to the end, and a seek from
there by the largest offset. -/
def seekTooFar : List AssetCall :=
  [.openAsset (ascii "a") (some ⟨[0], by decide⟩),
    .seek 0xA5511000 0 2,
    .seek 0xA5511000 0x7fffffffffffffff 1]

theorem assets_overflow : ¬Machine.Meets step Correct .start seekTooFar := by
  rintro ⟨-, -, ⟨-, -, hoverflows⟩, -⟩
  exact absurd hoverflows (by decide +kernel)

end AssetTable

end Android

end Muplar
