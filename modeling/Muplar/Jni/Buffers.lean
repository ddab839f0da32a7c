import Muplar.Common.Run
import Muplar.Jni.Bridge
/-!
# JNI — buffers that are outstanding

The guest obtains the characters of a string, or the elements of an
array, as a buffer in its own memory, works on the buffer and releases
it. Until then the buffer is outstanding. Beside the bridge and the
memory, a lending keeps for each such buffer what has to be in it: what
was copied there, and over it what the guest stored since.

The buffers are cut from two areas that are filled from the start again
when they are full, whether or not what is there was released. The
buffers are intact where this does not happen: where each new one lies
clear of those outstanding.
-/

namespace Muplar

namespace Jni

/-! ## Elements, to memory and back -/

section Elements

variable {kind : ArrayKind}

theorem length_encodeElems (values : List (Elem kind)) :
    (encodeElems values).length = values.length * kind.size := by
  induction values with
  | nil => exact (Nat.zero_mul _).symm
  | cons x values ih =>
    show (encodeLe kind.size x.toNat ++ encodeElems values).length = _
    rw [List.length_append, length_encodeLe, ih, List.length_cons, Nat.succ_mul, Nat.add_comm]

/-- The bits of an element are its bytes. -/
theorem encode_element (kind : ArrayKind) {chunk : Bytes} (h : chunk.length = kind.size) :
    encodeLe kind.size (BitVec.ofNat (8 * kind.size) (le chunk)).toNat = chunk := by
  have hlt : le chunk < 2 ^ (8 * kind.size) := by
    have hle := le_lt chunk
    rw [h] at hle
    rw [Nat.pow_mul]
    exact hle
  rw [BitVec.toNat_ofNat, Nat.mod_eq_of_lt hlt, ← h]
  exact encodeLe_le chunk

/-- **What was read into elements is what the elements are written as.** -/
theorem encodeElems_decodeElems {n : ℕ} {bs : Bytes} (h : bs.length = n * kind.size) :
    encodeElems (decodeElems kind n bs) = bs := by
  have hpart : ∀ k ≤ n, encodeElems (decodeElems kind k bs) = bs.take (k * kind.size) := by
    intro k hk
    induction k with
    | zero => rw [Nat.zero_mul]; rfl
    | succ k ih =>
      have hroom : k * kind.size + kind.size ≤ bs.length := by
        rw [h, ← Nat.succ_mul]
        exact Nat.mul_le_mul_right _ hk
      have hlast : decodeElems kind (k + 1) bs = decodeElems kind k bs ++
          [BitVec.ofNat _ (le (slice bs (k * kind.size) kind.size))] := by
        rw [decodeElems, List.range_succ, List.map_append]
        rfl
      have hchunk := encode_element kind (length_slice hroom)
      rw [hlast, encodeElems, List.flatMap_append, ← encodeElems, ih (by omega),
        List.flatMap_singleton, hchunk, Nat.succ_mul, List.take_add]
      rfl
  rw [hpart n (Nat.le_refl n), ← h, List.take_length]

end Elements

/-! ## Lendings -/

/-- What a buffer is a copy of. -/
inductive Source
  | chars
  | elements (kind : ArrayKind)
  deriving DecidableEq

def Source.getCall : Source → JniCall
  | .chars => .getStringUtfChars
  | .elements .byte => .getByteArrayElements
  | .elements .int => .getIntArrayElements
  | .elements .long => .getLongArrayElements
  | .elements .float => .getFloatArrayElements

def Source.releaseCall : Source → JniCall
  | .chars => .releaseStringUtfChars
  | .elements .byte => .releaseByteArrayElements
  | .elements .int => .releaseIntArrayElements
  | .elements .long => .releaseLongArrayElements
  | .elements .float => .releaseFloatArrayElements

/-- A buffer that is outstanding: what it was to have in it at first, and
what it has to have now. -/
structure Buffer where
  source : Source
  handle : UInt64
  gpa : UInt64
  origin : Bytes
  content : Bytes
  touched : Bool := false

def Buffer.Covers (b : Buffer) (a : ℕ) : Prop :=
  b.gpa.toNat ≤ a ∧ a < b.gpa.toNat + b.content.length

/-- The guest stores bytes: those for the buffer are in it. -/
def Buffer.store (b : Buffer) (p : UInt64) (bs : Bytes) : Buffer :=
  { b with
    content := b.content.mapIdx fun i old =>
      if p.toNat ≤ b.gpa.toNat + i then bs[b.gpa.toNat + i - p.toNat]?.getD old else old
    touched := b.touched ||
      (p.toNat < b.gpa.toNat + b.content.length && b.gpa.toNat < p.toNat + bs.length) }

/-- What a release wrote back: what was in the buffer, and what the array
has after it. -/
structure WriteBack where
  origin : Bytes
  content : Bytes
  touched : Bool
  after : Option Bytes

structure Lending where
  bridge : JniBridge
  memory : Memory
  ended : Bool := false
  outstanding : List Buffer := []
  writeBacks : List WriteBack := []

/-- A get or a release, with all registers, or a store of the guest. -/
inductive Event
  | get (source : Source) (a : Registers)
  | release (source : Source) (a : Registers)
  | store (p : UInt64) (bs : Bytes)

def jniCommit : UInt64 := 1

section Step

variable (host : Host) (s : Lending)

/-- What a buffer for a handle has to have in it. For a handle that is no
string's there may be a string under 0. -/
def Lending.copyOf (source : Source) (handle : UInt64) : Option Bytes :=
  match source with
  | .chars =>
    (s.bridge.env.strings.lookup handle <|> s.bridge.env.strings.lookup 0).map (· ++ [0])
  | .elements kind => ((s.bridge.env.arrays kind).lookup handle).map encodeElems

/-- The buffer that a get returns. There is none for elements where it
returns 0. -/
def Lending.obtained (source : Source) (a : Registers) (value : UInt64) : Option Buffer :=
  if source ≠ .chars ∧ value = 0 then none
  else (s.copyOf source (a 1)).map fun copy =>
    { source, handle := a 1, gpa := value, origin := copy, content := copy }

/-- The buffer a release is for. -/
def Buffer.isFor (source : Source) (a : Registers) (b : Buffer) : Bool :=
  b.source = source && b.handle = a 1 && b.gpa = a 2

def Lending.writtenBack (source : Source) (a : Registers) (env : JniEnv) : Option WriteBack :=
  match source with
  | .chars => none
  | .elements kind =>
    if a 3 = jniAbort then none
    else (s.outstanding.find? (Buffer.isFor source a)).map fun b =>
      { origin := b.origin
        content := b.content
        touched := b.touched
        after := ((env.arrays kind).lookup (a 1)).map encodeElems }

/-- `JNI_COMMIT` writes back and leaves the buffer with the guest. -/
def Lending.remaining (source : Source) (a : Registers) : List Buffer :=
  if source ≠ .chars ∧ a 3 = jniCommit then s.outstanding
  else s.outstanding.eraseP (Buffer.isFor source a)

def Lending.step : Event → Lending
  | .get source a =>
    if s.ended then s
    else
      match handleHvc host s.bridge s.memory a source.getCall.number with
      | .error _ => { s with ended := true }
      | .ok r =>
        { s with
          bridge := r.bridge
          memory := r.memory
          outstanding := (s.obtained source a r.value).toList ++ s.outstanding }
  | .release source a =>
    if s.ended then s
    else
      match handleHvc host s.bridge s.memory a source.releaseCall.number with
      | .error _ => { s with ended := true }
      | .ok r =>
        { s with
          bridge := r.bridge
          memory := r.memory
          outstanding := s.remaining source a
          writeBacks := (s.writtenBack source a r.bridge.env).toList ++ s.writeBacks }
  | .store p bs =>
    if s.ended then s
    else
      { s with
        memory := s.memory.overwrite p.toNat bs
        outstanding := s.outstanding.map (·.store p bs) }

end Step

/-- **Buffers are intact.** Each that is outstanding has what was copied
there, the whole string or array, with what the guest stored; what was
written back to an array is what was in its buffer; and where the guest
stored nothing there, it is what the array had before. -/
structure Lending.Intact (s : Lending) : Prop where
  buffers : ∀ b ∈ s.outstanding, s.memory.bytes b.gpa.toNat b.content.length = b.content
  writeBacks : ∀ w ∈ s.writeBacks, w.after = some w.content ∧
    (w.touched = false → w.after = some w.origin)

/-! ## The condition -/

def Source.scratchSize : Source → ℕ
  | .chars => stringScratchSize
  | .elements _ => arrayScratchSize

/-- Where a buffer of `n` bytes goes. -/
def Lending.place (s : Lending) (source : Source) (n : ℕ) : UInt64 :=
  match source with
  | .chars =>
    s.bridge.stringCharsBaseGpa + UInt64.ofNat
      (if stringScratchSize < s.bridge.stringCharsBump + n then 0 else s.bridge.stringCharsBump)
  | .elements _ =>
    s.bridge.arrayElementsBaseGpa + UInt64.ofNat
      (if arrayScratchSize < s.bridge.arrayElementsBump + (max n 1 + 15) / 16 * 16 then 0
        else s.bridge.arrayElementsBump)

/-- **The condition**, on a get: a string fits into the area; the place
where the next buffer goes is clear of those outstanding; and so is the
address for `is_copy`. -/
structure Lending.Clear (s : Lending) (source : Source) (a : Registers) : Prop where
  fits : source = .chars → ∀ copy, s.copyOf source (a 1) = some copy →
    copy.length ≤ source.scratchSize
  clear : ∀ copy, s.copyOf source (a 1) = some copy → copy.length ≤ source.scratchSize →
    ∀ b ∈ s.outstanding, ∀ i < copy.length,
      ¬b.Covers ((s.place source copy.length).toNat + i)
  isCopy : a 2 ≠ 0 → ∀ b ∈ s.outstanding, ¬b.Covers (a 2).toNat

/-- Of a release and a store nothing is asked. -/
def Event.Clear (s : Lending) : Event → Prop
  | .get source a => s.Clear source a
  | .release _ _ => True
  | .store _ _ => True

/-- The two areas are memory of the guest. -/
structure JniBridge.Ready (b : JniBridge) (m : Memory) : Prop where
  chars : m.Mapped b.stringCharsBaseGpa.toNat stringScratchSize
  elements : m.Mapped b.arrayElementsBaseGpa.toNat arrayScratchSize

/-! ## The calls -/

section Calls

variable {host : Host} {b : JniBridge} {m : Memory} {a : Registers}

theorem handleHvc_number (call : JniCall) :
    handleHvc host b m a call.number =
      ((internCharArgs host b m a call).dispatch host.allocates a call).bind fun out =>
        afterCall host { b with env := out.2 } m a call out.1 := by
  rw [handleHvc, JniCall.ofNumber_number]
  rfl

theorem handleHvc_getChars :
    handleHvc host b m a (Source.chars.getCall).number =
      .ok (materializeStringChars host b (writeIsCopy host m a 0)
        (if (b.env.strings.lookup (a 1)).isSome then a 1 else 0)) := by
  rw [handleHvc_number]
  show ((.ok (b.env.jniGetStringUtfChars a) : Outcome).bind _) = _
  rw [JniEnv.jniGetStringUtfChars]
  cases b.env.strings.lookup (a 1) <;> rfl

theorem handleHvc_getElements (kind : ArrayKind) :
    handleHvc host b m a (Source.elements kind).getCall.number =
      .ok (materializeArray host b (writeIsCopy host m a 1) kind (a 1)) := by
  rw [handleHvc_number]
  cases kind <;> rfl

theorem handleHvc_releaseChars :
    handleHvc host b m a (Source.chars.releaseCall).number = .ok ⟨0, b, m⟩ := by
  rw [handleHvc_number]
  rfl

theorem handleHvc_releaseElements (kind : ArrayKind) :
    handleHvc host b m a (Source.elements kind).releaseCall.number =
      (releaseArrayElements host b m a kind).map fun env => ⟨0, { b with env }, m⟩ := by
  rw [handleHvc_number]
  cases kind <;> rfl

/-! ## Writing into the guest -/

theorem writeIsCopy_mapped (hhost : host.Documented) {isCopy : UInt8} {q n : ℕ}
    (h : m.Mapped q n) : (writeIsCopy host m a isCopy).Mapped q n := by
  rw [writeIsCopy]
  split
  · exact h
  · intro i hi
    by_cases hat : q + i = (a 2).toNat
    · have hmapped : m.Mapped (a 2).toNat ([isCopy] : Bytes).length := by
        intro j hj
        rw [Nat.lt_one_iff.mp hj, Nat.add_zero, ← hat]
        exact h i hi
      rw [hhost.write m (a 2) [isCopy] hmapped]
      exact (Memory.mapped_overwrite.mpr h) i hi
    · rw [hhost.frame m (a 2) [isCopy] (q + i) (by rw [List.length_singleton]; omega)]
      exact h i hi

theorem writeIsCopy_byte (hhost : host.Documented) {isCopy : UInt8} {x : ℕ}
    (h : a 2 ≠ 0 → x ≠ (a 2).toNat) : (writeIsCopy host m a isCopy).byte x = m.byte x := by
  rw [writeIsCopy]
  split
  · rfl
  · next hne =>
    have hx := h hne
    exact hhost.frame m (a 2) [isCopy] x (by rw [List.length_singleton]; omega)

/-- An offset into a mapped area does not wrap around. -/
theorem toNat_offset {base : UInt64} {bump size : ℕ} (hmapped : m.Mapped base.toNat size)
    (hlt : bump < size) : (base + UInt64.ofNat bump).toNat = base.toNat + bump := by
  have hbelow := m.below _ (hmapped bump hlt)
  rw [UInt64.toNat_add, UInt64.toNat_ofNat_of_lt' (show bump < UInt64.size by
    have hsize : UInt64.size = 2 ^ 64 := rfl
    omega)]
  exact Nat.mod_eq_of_lt hbelow

end Calls

/-! ## What a get does -/

/-- **A get, told from outside.** The environment is the same, the areas
stay what they are, only the place of the buffer and the address for
`is_copy` are written to, and a buffer that is returned has the copy. -/
structure GetSpec (s : Lending) (source : Source) (a : Registers) (r : Answer) : Prop where
  env : r.bridge.env = s.bridge.env
  ready : r.bridge.Ready r.memory
  mapped : ∀ q n, s.memory.Mapped q n → r.memory.Mapped q n
  frame : ∀ x, (a 2 ≠ 0 → x ≠ (a 2).toNat) →
    (∀ copy, s.copyOf source (a 1) = some copy → copy.length ≤ source.scratchSize →
      ∀ i < copy.length, x ≠ (s.place source copy.length).toNat + i) →
    r.memory.byte x = s.memory.byte x
  copy : ∀ buf, s.obtained source a r.value = some buf →
    r.memory.bytes buf.gpa.toNat buf.content.length = buf.content ∧
      r.memory.Mapped buf.gpa.toNat buf.content.length

section Get

variable {host : Host} {s : Lending} {source : Source} {a : Registers} {r : Answer}

/-- A get that finds nothing to copy, or has no room for it. -/
theorem GetSpec.of_none {isCopy : UInt8} (hhost : host.Documented)
    (hready : s.bridge.Ready s.memory) (hnone : s.obtained source a 0 = none) :
    GetSpec s source a ⟨0, s.bridge, writeIsCopy host s.memory a isCopy⟩ where
  env := rfl
  ready := ⟨writeIsCopy_mapped hhost hready.chars, writeIsCopy_mapped hhost hready.elements⟩
  mapped _ _ h := writeIsCopy_mapped hhost h
  frame _ hx _ := writeIsCopy_byte hhost hx
  copy buf hbuf := by
    rw [hnone] at hbuf
    cases hbuf

/-- A get that copies into an area, at the next place there. -/
theorem GetSpec.of_copy {isCopy : UInt8} {copy : Bytes} {base : UInt64} {bump size : ℕ}
    (hhost : host.Documented) (hready : s.bridge.Ready s.memory)
    (hcopy : s.copyOf source (a 1) = some copy) (hsize : copy.length ≤ source.scratchSize)
    (hplace : s.place source copy.length = base + UInt64.ofNat bump)
    (harea : s.memory.Mapped base.toNat size) (hlt : bump < size)
    (hfits : bump + copy.length ≤ size) (henv : r.bridge.env = s.bridge.env)
    (hstub : r.bridge.stubBaseGpa = s.bridge.stubBaseGpa)
    (hvalue : r.value = base + UInt64.ofNat bump)
    (hmemory : r.memory =
      if copy.isEmpty then writeIsCopy host s.memory a isCopy
      else host.guestWrite (writeIsCopy host s.memory a isCopy) r.value copy) :
    GetSpec s source a r := by
  have harea' : (writeIsCopy host s.memory a isCopy).Mapped base.toNat size :=
    writeIsCopy_mapped hhost harea
  have hgpa : r.value.toNat = base.toNat + bump := by rw [hvalue]; exact toNat_offset harea hlt
  have hroom : (writeIsCopy host s.memory a isCopy).Mapped r.value.toNat copy.length := by
    rw [hgpa]
    exact harea'.within (by omega) (by omega)
  have hwrite : r.memory =
      (writeIsCopy host s.memory a isCopy).overwrite r.value.toNat copy := by
    rw [hmemory]
    cases copy with
    | nil => exact Memory.overwrite_nil.symm
    | cons c copy => exact hhost.write _ _ _ hroom
  have hmapped : ∀ q n, s.memory.Mapped q n → r.memory.Mapped q n := by
    intro q n h
    rw [hwrite]
    exact Memory.mapped_overwrite.mpr (writeIsCopy_mapped hhost h)
  refine
    { env := henv
      ready := ⟨?_, ?_⟩
      mapped := hmapped
      frame := fun x hx hclear => ?_
      copy := fun buf hbuf => ?_ }
  · rw [JniBridge.stringCharsBaseGpa, hstub]
    exact hmapped _ _ hready.chars
  · rw [JniBridge.arrayElementsBaseGpa, hstub]
    exact hmapped _ _ hready.elements
  · have hclear := hclear copy hcopy hsize
    rw [hplace, ← hvalue] at hclear
    rw [hwrite, Memory.byte_overwrite_of_outside, writeIsCopy_byte hhost hx]
    by_contra hin
    exact hclear (x - r.value.toNat) (by omega) (by omega)
  · rw [Lending.obtained, hcopy] at hbuf
    split at hbuf
    · cases hbuf
    · cases hbuf
      rw [hwrite]
      exact ⟨Memory.bytes_overwrite_self hroom, Memory.mapped_overwrite.mpr hroom⟩

theorem getChars_spec (hhost : host.Documented) (hready : s.bridge.Ready s.memory)
    (hfits : ∀ copy, s.copyOf .chars (a 1) = some copy → copy.length ≤ stringScratchSize) :
    ∃ r, handleHvc host s.bridge s.memory a Source.chars.getCall.number = .ok r ∧
      GetSpec s .chars a r := by
  refine ⟨_, handleHvc_getChars, ?_⟩
  have hcopy : s.copyOf .chars (a 1) = (s.bridge.env.strings.lookup
      (if (s.bridge.env.strings.lookup (a 1)).isSome then a 1 else 0)).map (· ++ [0]) := by
    rw [Lending.copyOf]
    cases hlookup : s.bridge.env.strings.lookup (a 1) with
    | none => rfl
    | some text => simp [hlookup]
  rw [materializeStringChars]
  cases hvalue : s.bridge.env.strings.lookup
      (if (s.bridge.env.strings.lookup (a 1)).isSome then a 1 else 0) with
  | none =>
    rw [hvalue] at hcopy
    refine GetSpec.of_none hhost hready ?_
    rw [Lending.obtained, hcopy]
    simp
  | some text =>
    rw [hvalue] at hcopy
    replace hcopy : s.copyOf .chars (a 1) = some (text ++ [0]) := hcopy
    have hlength : (text ++ [0]).length = text.length + 1 := by simp
    have hlen := hfits _ hcopy
    have hmin : min (text.length + 1) stringScratchSize = text.length + 1 :=
      Nat.min_eq_left (hlength ▸ hlen)
    have hdata : text.take (min (text.length + 1) stringScratchSize - 1) ++ [0] = text ++ [0] := by
      rw [hmin, Nat.add_sub_cancel, List.take_length]
    have hempty : (text ++ [0]).isEmpty = false := by simp
    dsimp only
    rw [hdata, hmin]
    rw [hlength] at hlen
    have hsize : Source.chars.scratchSize = stringScratchSize := rfl
    refine GetSpec.of_copy hhost hready hcopy (by rw [hlength]; exact hlen)
      (by rw [Lending.place, hlength]) hready.chars ?_ ?_ rfl rfl rfl (by rw [hempty]; rfl)
    · split <;> omega
    · rw [hlength]
      split <;> omega

theorem getElements_spec (kind : ArrayKind) (hhost : host.Documented)
    (hready : s.bridge.Ready s.memory) :
    ∃ r, handleHvc host s.bridge s.memory a (Source.elements kind).getCall.number = .ok r ∧
      GetSpec s (.elements kind) a r := by
  refine ⟨_, handleHvc_getElements kind, ?_⟩
  have hnone : s.obtained (.elements kind) a 0 = none := if_pos ⟨by simp, rfl⟩
  rw [materializeArray]
  cases hvalue : (s.bridge.env.arrays kind).lookup (a 1) with
  | none => exact GetSpec.of_none hhost hready hnone
  | some values =>
    have hcopy : s.copyOf (.elements kind) (a 1) = some (encodeElems values) := by
      rw [Lending.copyOf, hvalue]
      rfl
    dsimp only
    rw [writeScratchBytes]
    set copy := encodeElems values
    by_cases hlarge : arrayScratchSize < (max copy.length 1 + 15) / 16 * 16
    · dsimp only
      rw [if_pos hlarge]
      exact GetSpec.of_none hhost hready hnone
    · have hsize : arrayScratchSize = 16 * 4096 := rfl
      dsimp only
      rw [if_neg hlarge]
      refine GetSpec.of_copy hhost hready hcopy ?_ rfl hready.elements ?_ ?_ rfl rfl rfl rfl
      · show copy.length ≤ arrayScratchSize
        omega
      · split <;> omega
      · split <;> omega

/-- **What a get does**, of either sort. -/
theorem get_spec (hhost : host.Documented) (hready : s.bridge.Ready s.memory)
    (hclear : s.Clear source a) :
    ∃ r, handleHvc host s.bridge s.memory a source.getCall.number = .ok r ∧
      GetSpec s source a r := by
  cases source with
  | chars => exact getChars_spec hhost hready (hclear.fits rfl)
  | elements kind => exact getElements_spec kind hhost hready

end Get

/-! ## What a release does -/

section Release

variable {host : Host} {b : JniBridge} {m : Memory} {a : Registers} {env env' : JniEnv}
variable {kind : ArrayKind}

/-- A region that is set leaves every array as long as it was. -/
theorem setArrayRegion_length {handle start : UInt64} {src : List (Elem kind)}
    (h : env.setArrayRegion kind handle start src = .ok env') {k : ArrayKind} {x : UInt64}
    {values : List (Elem k)} (hvalues : (env.arrays k).lookup x = some values) :
    ∃ values', (env'.arrays k).lookup x = some values' ∧ values'.length = values.length := by
  rw [JniEnv.setArrayRegion] at h
  split at h
  · cases h
    exact ⟨values, hvalues, rfl⟩
  · next old hold =>
    split at h
    · cases h
      exact ⟨values, hvalues, rfl⟩
    · split at h
      · cases h
      · next hfits =>
        cases h
        by_cases hk : k = kind
        · subst hk
          by_cases hx : x = handle
          · subst hx
            rw [hold, Option.some_inj] at hvalues
            refine ⟨old.take start.toNat ++ src ++ old.drop (start.toNat + src.length), ?_, ?_⟩
            · show ((Function.update env.arrays k _) k).lookup x = _
              rw [Function.update_self, AList.lookup_insert]
            · rw [← hvalues, List.length_append, List.length_append, List.length_take,
                List.length_drop]
              omega
          · refine ⟨values, ?_, rfl⟩
            show ((Function.update env.arrays k _) k).lookup x = _
            rw [Function.update_self, AList.lookup_insert_ne hx]
            exact hvalues
        · refine ⟨values, ?_, rfl⟩
          show ((Function.update env.arrays kind _) k).lookup x = _
          rw [Function.update_of_ne hk]
          exact hvalues

theorem releaseArrayElements_length (h : releaseArrayElements host b m a kind = .ok env')
    {k : ArrayKind} {x : UInt64} {values : List (Elem k)}
    (hvalues : (b.env.arrays k).lookup x = some values) :
    ∃ values', (env'.arrays k).lookup x = some values' ∧ values'.length = values.length := by
  rw [releaseArrayElements] at h
  split at h
  · cases h
    exact ⟨values, hvalues, rfl⟩
  · split at h
    · cases h
      exact ⟨values, hvalues, rfl⟩
    · split at h
      · cases h
        exact ⟨values, hvalues, rfl⟩
      · rw [copyIn] at h
        split at h
        · split at h
          · cases h
            exact ⟨values, hvalues, rfl⟩
          · exact setArrayRegion_length h hvalues
        · cases h

/-- A region that is the whole array becomes the array. -/
theorem setArrayRegion_whole {handle : UInt64} {src values : List (Elem kind)}
    (hvalues : (env.arrays kind).lookup handle = some values)
    (hlen : src.length = values.length) (hlt : values.length < 2 ^ 64)
    (h : env.setArrayRegion kind handle 0 src = .ok env') :
    (env'.arrays kind).lookup handle = some src := by
  have hsum : ((0 : UInt64) + UInt64.ofNat src.length).toNat = values.length := by
    rw [UInt64.zero_add, hlen, UInt64.toNat_ofNat_of_lt' hlt]
  rw [JniEnv.setArrayRegion, hvalues] at h
  dsimp only at h
  rw [hsum, if_neg (Nat.lt_irrefl _), UInt64.toNat_zero, Nat.zero_add, hlen,
    if_neg (Nat.lt_irrefl _)] at h
  cases h
  show ((Function.update env.arrays kind _) kind).lookup handle = some src
  rw [Function.update_self, AList.lookup_insert, List.take_zero, List.nil_append,
    List.drop_of_length_le (by omega), List.append_nil]

/-- **A release writes back what is in the buffer**, as long as the array
is as large as the buffer. -/
theorem releaseArrayElements_writes (hhost : host.Documented) {values : List (Elem kind)}
    (hvalues : (b.env.arrays kind).lookup (a 1) = some values) (hgpa : a 2 ≠ 0)
    (hmode : a 3 ≠ jniAbort) (hmapped : m.Mapped (a 2).toNat (values.length * kind.size))
    (h : releaseArrayElements host b m a kind = .ok env') :
    ((env'.arrays kind).lookup (a 1)).map encodeElems =
      some (m.bytes (a 2).toNat (values.length * kind.size)) := by
  have hpos : 0 < kind.size := by cases kind <;> decide
  rw [releaseArrayElements, if_neg (not_or.mpr ⟨hgpa, hmode⟩), hvalues] at h
  dsimp only at h
  split at h
  · next hempty =>
    cases h
    rw [hvalues, List.isEmpty_iff.mp hempty, List.length_nil, Nat.zero_mul]
    rfl
  · next hempty =>
    have hne : values ≠ [] := fun h => hempty (List.isEmpty_iff.mpr h)
    have hlength : 0 < values.length := List.length_pos_of_ne_nil hne
    have hle : values.length ≤ values.length * kind.size := Nat.le_mul_of_pos_right _ hpos
    have hlt : values.length < 2 ^ 64 := by
      have hlast := m.below _ (hmapped (values.length * kind.size - 1) (by omega))
      have hne0 : 0 < (a 2).toNat := Nat.pos_of_ne_zero fun h0 =>
        hgpa (UInt64.toNat_inj.mp h0)
      omega
    have hcount : (UInt64.ofNat values.length).toNat = values.length :=
      UInt64.toNat_ofNat_of_lt' hlt
    rw [copyIn, hcount, hhost.read m (a 2) _ hmapped] at h
    dsimp only at h
    split at h
    · have hdecoded : (decodeElems kind values.length
          (m.bytes (a 2).toNat (values.length * kind.size))).length = values.length := by
        rw [decodeElems, List.length_map, List.length_range]
      rw [setArrayRegion_whole hvalues hdecoded hlt h, Option.map_some,
        encodeElems_decodeElems Memory.length_bytes]
    · cases h

end Release

/-! ## What is kept -/

/-- A buffer after the guest's store is what the memory has after it. -/
theorem Buffer.store_bytes {b : Buffer} {m : Memory} {p : UInt64} {bs : Bytes}
    (hmapped : m.Mapped b.gpa.toNat b.content.length)
    (h : m.bytes b.gpa.toNat b.content.length = b.content) :
    (m.overwrite p.toNat bs).bytes b.gpa.toNat b.content.length = (b.store p bs).content := by
  refine List.ext_getElem (by simp [Memory.bytes, Buffer.store]) fun i hi hi' => ?_
  have hlt : i < b.content.length := by simpa [Memory.bytes] using hi
  obtain ⟨old, hold⟩ := Option.isSome_iff_exists.mp (hmapped i hlt)
  have holdAt : b.content[i] = old := by
    have hread : (m.bytes b.gpa.toNat b.content.length)[i]? = some old := by
      simp [Memory.bytes, hlt, hold]
    rw [h, List.getElem?_eq_getElem hlt, Option.some_inj] at hread
    exact hread
  simp [Memory.bytes, Memory.overwrite, Buffer.store, hold, holdAt]

theorem Buffer.store_untouched {b : Buffer} {p : UInt64} {bs : Bytes}
    (h : (b.store p bs).touched = false) :
    b.touched = false ∧ (b.store p bs).content = b.content := by
  obtain ⟨hbefore, hapart⟩ := Bool.or_eq_false_iff.mp h
  refine ⟨hbefore, List.ext_getElem (by simp [Buffer.store]) fun i hi hi' => ?_⟩
  have hlt : i < b.content.length := hi'
  simp only [Bool.and_eq_false_iff, decide_eq_false_iff_not, Nat.not_lt] at hapart
  simp only [Buffer.store, List.getElem_mapIdx]
  split
  · rw [List.getElem?_eq_none (by omega)]
    rfl
  · rfl

/-- The invariant: with the buffers intact, their memory is the guest's,
what nothing was stored to is what it was at first, and an array is as
large as the buffers for it. -/
structure Lending.Kept (s : Lending) : Prop where
  ready : s.bridge.Ready s.memory
  intact : s.Intact
  mapped : ∀ b ∈ s.outstanding, s.memory.Mapped b.gpa.toNat b.content.length
  untouched : ∀ b ∈ s.outstanding, b.touched = false → b.content = b.origin
  sized : ∀ b ∈ s.outstanding, ∀ kind, b.source = .elements kind → b.gpa ≠ 0 ∧
    ∃ values, (s.bridge.env.arrays kind).lookup b.handle = some values ∧
      b.content.length = values.length * kind.size

section Step

variable {host : Host} {s : Lending} {source : Source} {a : Registers}

/-- **A get that is clear of the others leaves them alone.** -/
theorem Lending.Kept.get (hhost : host.Documented) (hs : s.Kept) (hclear : s.Clear source a) :
    (s.step host (.get source a)).Kept := by
  rw [Lending.step]
  split
  · exact hs
  obtain ⟨r, hr, hspec⟩ := get_spec hhost hs.ready hclear
  rw [hr]
  -- no byte of a buffer that is outstanding is written
  have hold : ∀ b ∈ s.outstanding,
      r.memory.bytes b.gpa.toNat b.content.length = b.content := by
    intro b hb
    refine (Memory.bytes_congr fun x hlow hhigh => ?_).trans (hs.intact.buffers b hb)
    refine hspec.frame x (fun hne heq => ?_) fun copy hcopy hsize i hi heq => ?_
    · exact hclear.isCopy hne b hb (heq ▸ ⟨hlow, hhigh⟩)
    · exact hclear.clear copy hcopy hsize b hb i hi (heq ▸ ⟨hlow, hhigh⟩)
  have hnew : ∀ b, s.obtained source a r.value = some b → b.content = b.origin ∧
      ∀ kind, b.source = .elements kind → b.gpa ≠ 0 ∧
        ∃ values, (s.bridge.env.arrays kind).lookup b.handle = some values ∧
          b.content.length = values.length * kind.size := by
    intro b hb
    rw [Lending.obtained] at hb
    split at hb
    · cases hb
    · next hvalue =>
      obtain ⟨copy, hcopy, rfl⟩ := Option.map_eq_some_iff.mp hb
      refine ⟨rfl, fun kind hkind => ?_⟩
      cases hkind
      obtain ⟨values, hvalues, rfl⟩ := Option.map_eq_some_iff.mp hcopy
      exact ⟨fun h => hvalue ⟨by simp, h⟩, values, hvalues, length_encodeElems values⟩
  refine
    { ready := hspec.ready
      intact := ⟨fun b hb => ?_, hs.intact.writeBacks⟩
      mapped := fun b hb => ?_
      untouched := fun b hb htouched => ?_
      sized := fun b hb kind hkind => ?_ }
  · rcases List.mem_append.mp hb with hb | hb
    · exact (hspec.copy b (Option.mem_toList.mp hb)).1
    · exact hold b hb
  · rcases List.mem_append.mp hb with hb | hb
    · exact (hspec.copy b (Option.mem_toList.mp hb)).2
    · exact hspec.mapped _ _ (hs.mapped b hb)
  · rcases List.mem_append.mp hb with hb | hb
    · exact (hnew b (Option.mem_toList.mp hb)).1
    · exact hs.untouched b hb htouched
  · show _ ∧ ∃ values, (r.bridge.env.arrays kind).lookup b.handle = some values ∧ _
    rw [hspec.env]
    rcases List.mem_append.mp hb with hb | hb
    · exact (hnew b (Option.mem_toList.mp hb)).2 kind hkind
    · exact hs.sized b hb kind hkind

theorem Lending.mem_of_mem_remaining {b : Buffer} (h : b ∈ s.remaining source a) :
    b ∈ s.outstanding := by
  rw [Lending.remaining] at h
  split at h
  · exact h
  · exact List.mem_of_mem_eraseP h

/-- **A release writes back what is in its buffer** and touches none. -/
theorem Lending.Kept.release (hhost : host.Documented) (hs : s.Kept) :
    (s.step host (.release source a)).Kept := by
  have hleft : ∀ b ∈ s.remaining source a, b ∈ s.outstanding := fun _ => mem_of_mem_remaining
  rw [Lending.step]
  split
  · exact hs
  cases source with
  | chars =>
    rw [handleHvc_releaseChars]
    dsimp only
    exact
      { ready := hs.ready
        intact := ⟨fun b hb => hs.intact.buffers b (hleft b hb),
          hs.intact.writeBacks⟩
        mapped := fun b hb => hs.mapped b (hleft b hb)
        untouched := fun b hb => hs.untouched b (hleft b hb)
        sized := fun b hb => hs.sized b (hleft b hb) }
  | elements kind =>
    rw [handleHvc_releaseElements]
    cases hrelease : releaseArrayElements host s.bridge s.memory a kind with
    | error fault =>
      dsimp only [Except.map]
      exact ⟨hs.ready, ⟨hs.intact.buffers, hs.intact.writeBacks⟩, hs.mapped, hs.untouched,
        hs.sized⟩
    | ok env =>
      dsimp only [Except.map]
      have hback : ∀ w, s.writtenBack (.elements kind) a env = some w →
          w.after = some w.content ∧ (w.touched = false → w.after = some w.origin) := by
        intro w hw
        rw [Lending.writtenBack] at hw
        split at hw
        · cases hw
        · next hmode =>
          obtain ⟨b, hb, rfl⟩ := Option.map_eq_some_iff.mp hw
          have hmem := List.mem_of_find?_eq_some hb
          have hfor := List.find?_some hb
          simp only [Buffer.isFor, Bool.and_eq_true, decide_eq_true_eq] at hfor
          obtain ⟨⟨hsource, hhandle⟩, hgpa⟩ := hfor
          obtain ⟨hne, values, hvalues, hlen⟩ := hs.sized b hmem kind hsource
          have hmapped := hs.mapped b hmem
          have hbytes := hs.intact.buffers b hmem
          rw [hgpa, hlen] at hmapped hbytes
          rw [hhandle] at hvalues
          have hafter := releaseArrayElements_writes hhost hvalues (hgpa ▸ hne) hmode hmapped
            hrelease
          rw [hbytes] at hafter
          refine ⟨hafter, fun htouched => ?_⟩
          rw [← hs.untouched b hmem htouched]
          exact hafter
      refine
        { ready := ⟨hs.ready.chars, hs.ready.elements⟩
          intact := ⟨fun b hb => hs.intact.buffers b (hleft b hb), fun w hw => ?_⟩
          mapped := fun b hb => hs.mapped b (hleft b hb)
          untouched := fun b hb => hs.untouched b (hleft b hb)
          sized := fun b hb k hk => ?_ }
      · rcases List.mem_append.mp hw with hw | hw
        · exact hback w (Option.mem_toList.mp hw)
        · exact hs.intact.writeBacks w hw
      · obtain ⟨hne, values, hvalues, hlen⟩ := hs.sized b (hleft b hb) k hk
        obtain ⟨values', hvalues', hsame⟩ := releaseArrayElements_length hrelease hvalues
        exact ⟨hne, values', hvalues', by rw [hlen, hsame]⟩

theorem Lending.Kept.store (hs : s.Kept) (p : UInt64) (bs : Bytes) :
    (s.step host (.store p bs)).Kept := by
  rw [Lending.step]
  split
  · exact hs
  have hlen : ∀ b : Buffer, (b.store p bs).content.length = b.content.length := by
    intro b
    simp [Buffer.store]
  refine
    { ready := ⟨Memory.mapped_overwrite.mpr hs.ready.chars,
        Memory.mapped_overwrite.mpr hs.ready.elements⟩
      intact := ⟨fun b hb => ?_, hs.intact.writeBacks⟩
      mapped := fun b hb => ?_
      untouched := fun b hb htouched => ?_
      sized := fun b hb kind hkind => ?_ }
  all_goals obtain ⟨b, hmem, rfl⟩ := List.mem_map.mp hb
  · rw [hlen]
    exact Buffer.store_bytes (hs.mapped b hmem) (hs.intact.buffers b hmem)
  · rw [hlen]
    exact Memory.mapped_overwrite.mpr (hs.mapped b hmem)
  · obtain ⟨hbefore, hsame⟩ := Buffer.store_untouched htouched
    exact hsame.trans (hs.untouched b hmem hbefore)
  · rw [hlen]
    exact hs.sized b hmem kind hkind

theorem Lending.Kept.step (hhost : host.Documented) (hs : s.Kept) {e : Event}
    (hclear : e.Clear s) : (s.step host e).Kept := by
  cases e with
  | get source a => exact hs.get hhost hclear
  | release source a => exact hs.release hhost
  | store p bs => exact hs.store p bs

end Step

/-! ## Runs -/

/-- No buffer is outstanding. -/
def Lending.start (b : JniBridge) (m : Memory) : Lending where
  bridge := b
  memory := m

/-- A memory that is mapped everywhere. -/
def zeroMemory : Memory where
  byte a := if a < 2 ^ 64 then some 0 else none
  below a h := by
    by_contra hlt
    rw [if_neg hlt] at h
    cases h

theorem zeroMemory_mapped {p n : ℕ} (h : p + n ≤ 2 ^ 64) : zeroMemory.Mapped p n := by
  intro i hi
  show (if p + i < 2 ^ 64 then some (0 : UInt8) else none).isSome
  rw [if_pos (by omega)]
  rfl

def bridgeWith (env : JniEnv) : JniBridge where
  env
  elfLoadMin := 0
  stubBaseGpa := 0x70000000

theorem bridgeWith_ready (env : JniEnv) : (bridgeWith env).Ready zeroMemory where
  chars := by
    have hend : (0x70000000 + 0x800 : UInt64).toNat + 0x700 ≤ 2 ^ 64 := by decide
    exact zeroMemory_mapped hend
  elements := by
    have hend : (0x70000000 + 0xD000 : UInt64).toNat + 0x10000 ≤ 2 ^ 64 := by decide
    exact zeroMemory_mapped hend

/-- A call for a handle, with an address and a mode. -/
def callFor (handle address mode : UInt64) : Registers :=
  fun i => if i = 1 then handle else if i = 2 then address else if i = 3 then mode else 0

/-- An array of one `int`. -/
def oneInt : JniEnv :=
  { ({} : JniEnv) with
    arrays := Function.update (fun _ => ∅) .int (AList.insert 0x70000004 [7] ∅) }

/-- Four strings of 511 characters, as `NewStringUTF` makes them. -/
def fourStrings : JniEnv :=
  [(0x70000003, 97), (0x70000005, 98), (0x70000006, 99), (0x70000007, 100)].foldl
    (fun env string => env.internString string.1 (List.replicate 511 string.2)) {}

/-- The characters of all four are obtained, and nothing is released. -/
def fourGets : List Event :=
  [.get .chars (callFor 0x70000003 0 0), .get .chars (callFor 0x70000005 0 0),
    .get .chars (callFor 0x70000006 0 0), .get .chars (callFor 0x70000007 0 0)]

end Jni

end Muplar
