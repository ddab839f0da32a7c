import Muplar.Apk.StringPool
/-!
# APK — walking chunks

Compiled manifests are a sequence of chunks, each with its type and its
size in front. The functions of `apk_envelope.cpp` that search a manifest
have the same loop around what they look for, and it is written once
here: `visit` is what one of them does with a chunk.

The loop goes on by the size the chunk states. It is checked against the
size of the chunk's header, but nothing keeps both from being zero: at
such a chunk the loop stays for ever.
-/

namespace Muplar

namespace Apk

variable {τ ρ : Type} {data : Bytes}

/-- One iteration of the loop. -/
def chunkBody (data : Bytes) (visit : (off type chunkSize : ℕ) → τ → Except String (τ ⊕ ρ))
    (finish : τ → ρ) (s : ℕ × τ) : Except String ((ℕ × τ) ⊕ ρ) := do
  let (off, state) := s
  if data.length < off + 8 then return .inr (finish state)
  else
    let type ← readU16 data off
    let headerSize ← readU16 data (off + 2)
    let chunkSize ← readU32 data (off + 4)
    if chunkSize < headerSize ∨ data.length < off + chunkSize then return .inr (finish state)
    else match ← visit off type chunkSize state with
      | .inr result => return .inr result
      | .inl state' => return .inl (off + chunkSize, state')

/-- The chunk at `off` states no size, not even for its header. -/
def EmptyChunk (data : Bytes) (off : ℕ) : Prop :=
  u16 data (off + 2) = 0 ∧ u32 data (off + 4) = 0

instance (data : Bytes) (off : ℕ) : Decidable (EmptyChunk data off) :=
  inferInstanceAs (Decidable (_ ∧ _))

/-- The loop is at an empty chunk. -/
def Stuck (data : Bytes) (off : ℕ) : Prop :=
  off + 8 ≤ data.length ∧ EmptyChunk data off

/-- A chunk the loop takes is handed to `visit`. -/
theorem chunkBody_eq {visit : (off type chunkSize : ℕ) → τ → Except String (τ ⊕ ρ)}
    {finish : τ → ρ} {off : ℕ} {state : τ} (h : off + 8 ≤ data.length)
    (hheader : u16 data (off + 2) ≤ u32 data (off + 4))
    (hchunk : off + u32 data (off + 4) ≤ data.length) :
    chunkBody data visit finish (off, state) =
      (visit off (u16 data off) (u32 data (off + 4)) state).map fun r =>
        match r with
        | .inr result => .inr result
        | .inl state' => .inl (off + u32 data (off + 4), state') := by
  simp only [chunkBody]
  rw [if_neg (by omega), readU16_eq (by omega), readU16_eq (by omega), readU32_eq (by omega)]
  simp only [bind, Except.bind]
  rw [if_neg (by omega)]
  cases visit off (u16 data off) (u32 data (off + 4)) state with
  | error e => rfl
  | ok r => cases r <;> rfl

/-- Outside these the loop is over. -/
theorem chunkBody_finish {visit : (off type chunkSize : ℕ) → τ → Except String (τ ⊕ ρ)}
    {finish : τ → ρ} {off : ℕ} {state : τ}
    (h : ¬(off + 8 ≤ data.length ∧ u16 data (off + 2) ≤ u32 data (off + 4) ∧
      off + u32 data (off + 4) ≤ data.length)) :
    chunkBody data visit finish (off, state) = .ok (.inr (finish state)) := by
  simp only [chunkBody]
  by_cases hroom : data.length < off + 8
  · rw [if_pos hroom]
    rfl
  · rw [if_neg hroom, readU16_eq (by omega), readU16_eq (by omega), readU32_eq (by omega)]
    simp only [bind, Except.bind]
    rw [if_pos (by omega)]
    rfl

/-- **When a walk over chunks ends.** A `visit` that has no use for a
chunk of size zero makes a walk that ends exactly when it comes to no
empty chunk. -/
theorem chunkBody_halts_iff {visit : (off type chunkSize : ℕ) → τ → Except String (τ ⊕ ρ)}
    {finish : τ → ρ} {s : ℕ × τ}
    (hvisit : ∀ off type state, Stuck data off → ∃ state', visit off type 0 state =
      .ok (.inl state')) :
    Loop.Halts (Loop.run (chunkBody data visit finish) s) ↔
      ∀ t, Loop.Visits (chunkBody data visit finish) s t → ¬Stuck data t.1 := by
  refine Loop.halts_iff (fun t : ℕ × τ => data.length - t.1)
    (fun t : ℕ × τ => Stuck data t.1) ?_ ?_
  · rintro ⟨off, state⟩ hstuck
    obtain ⟨hroom, hheader, hsize⟩ := id hstuck
    obtain ⟨state', hstate⟩ := hvisit off (u16 data off) state hstuck
    refine ⟨(off, state'), ?_, hstuck⟩
    rw [chunkBody_eq hroom (by omega) (by omega), hsize, hstate]
    rfl
  · rintro ⟨off, state⟩ t - hmoves hnext
    by_cases htaken : off + 8 ≤ data.length ∧ u16 data (off + 2) ≤ u32 data (off + 4) ∧
        off + u32 data (off + 4) ≤ data.length
    · obtain ⟨hroom, hheader, hchunk⟩ := htaken
      have hpos : 0 < u32 data (off + 4) := by
        by_contra hzero
        have hstuck : Stuck data off := ⟨hroom, by omega, by omega⟩
        exact hmoves hstuck
      rw [chunkBody_eq hroom hheader hchunk] at hnext
      cases hv : visit off (u16 data off) (u32 data (off + 4)) state with
      | error e =>
        rw [hv] at hnext
        cases hnext
      | ok r =>
        rw [hv] at hnext
        cases r with
        | inr result => cases hnext
        | inl state' =>
          cases hnext
          show data.length - (off + u32 data (off + 4)) < data.length - off
          omega
    · rw [chunkBody_finish htaken] at hnext
      cases hnext

/-! ## The walk to the first pool -/

/-- The search for a pool is at an empty chunk. -/
def PoolStuck (data : Bytes) (off : ℕ) : Prop :=
  off + 28 ≤ data.length ∧ u16 data off ≠ resStringPoolType ∧ EmptyChunk data off

/-- The chunks before the first pool, as `axml_string_pool` takes them. -/
theorem axmlStringPoolBody_next {off t : ℕ}
    (h : axmlStringPoolBody data off = .ok (.inl t)) :
    off + 28 ≤ data.length ∧ u16 data off ≠ resStringPoolType ∧
      u16 data (off + 2) ≤ u32 data (off + 4) ∧ off + u32 data (off + 4) ≤ data.length ∧
      t = off + u32 data (off + 4) := by
  by_cases hroom : data.length < off + 28
  · rw [axmlStringPoolBody, if_pos hroom] at h
    cases h
  · rw [axmlStringPoolBody, if_neg hroom, readU16_eq (by omega), readU16_eq (by omega),
      readU32_eq (by omega), readU32_eq (by omega), readU32_eq (by omega),
      readU32_eq (by omega)] at h
    simp only [bind, Except.bind] at h
    split at h
    · cases h
    · split at h
      · next hchunk htype =>
        cases h
        exact ⟨by omega, htype, by omega, by omega, rfl⟩
      · split at h
        · cases h
        · split at h
          · cases h
          · cases h

theorem axmlStringPoolBody_of_ne {off : ℕ} (hroom : off + 28 ≤ data.length)
    (htype : u16 data off ≠ resStringPoolType) (hheader : u16 data (off + 2) ≤ u32 data (off + 4))
    (hchunk : off + u32 data (off + 4) ≤ data.length) :
    axmlStringPoolBody data off = .ok (.inl (off + u32 data (off + 4))) := by
  rw [axmlStringPoolBody, if_neg (by omega), readU16_eq (by omega), readU16_eq (by omega),
    readU32_eq (by omega)]
  simp only [bind, Except.bind]
  rw [if_neg (by omega), if_pos htype]
  rfl

/-- **When the search for a pool ends.** -/
theorem axmlStringPool_halts_iff (data : Bytes) :
    Loop.Halts (axmlStringPool data) ↔
      ∀ off, Loop.Visits (axmlStringPoolBody data) (chunksStart data) off →
        ¬PoolStuck data off := by
  refine Loop.halts_iff (fun off => data.length - off) (PoolStuck data) ?_ ?_
  · rintro off hstuck
    obtain ⟨hroom, htype, hheader, hsize⟩ := id hstuck
    refine ⟨off, ?_, hstuck⟩
    rw [axmlStringPoolBody_of_ne hroom htype (by omega) (by omega), hsize]
    rfl
  · intro off t _ hmoves hnext
    obtain ⟨hroom, htype, hheader, hchunk, rfl⟩ := axmlStringPoolBody_next hnext
    have hpos : 0 < u32 data (off + 4) := by
      by_contra hzero
      have hstuck : PoolStuck data off := ⟨hroom, htype, by omega, by omega⟩
      exact hmoves hstuck
    show data.length - (off + u32 data (off + 4)) < data.length - off
    omega

end Apk

end Muplar
