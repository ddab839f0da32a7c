import Muplar.Common.Bytes
/-!
# Reading a byte string through a cursor

A decoder that walks over its input holds an offset, refuses what it does
not like and copies what it does. A copy that reaches outside the input is
not refused by anything: it is the `fault` no decoder may run into.

Three things are asked of a reader, and each passes from the parts to the
whole: it is `Safe` when it stays inside the input, it `Parses` an encoding
when what it accepts is the encoding of what it returns, and it `Accepts`
a value when it finds it where its encoding stands.
-/

namespace Muplar

namespace Cursor

/-- Why a reader stops. -/
inductive Stop
  /-- the decoder says no -/
  | refused
  /-- a copy from outside the input -/
  | fault
  deriving DecidableEq

/-- A reader: from an offset to a value and the offset behind it. -/
abbrev Reader (α : Type) := StateT ℕ (Except Stop) α

variable {α β : Type} {input : Bytes}

/-- `memcpy` from the cursor, which moves behind what was copied. -/
def copy (input : Bytes) (size : ℕ) : Reader Bytes := fun pos =>
  if pos + size ≤ input.length then .ok (slice input pos size, pos + size) else .error .fault

/-- Copy so many bytes, or refuse where fewer are left. -/
def read (input : Bytes) (size : ℕ) : Reader Bytes := fun pos =>
  if size > input.length - min pos input.length then .error .refused else copy input size pos

/-- Refuse unless a test passes. -/
def check (ok : Bool) : Reader Unit := fun pos =>
  if ok then .ok ((), pos) else .error .refused

def readU32 (input : Bytes) : Reader UInt32 := do
  let bytes ← read input 4
  return UInt32.ofNat (le bytes)

def readU64 (input : Bytes) : Reader UInt64 := do
  let bytes ← read input 8
  return UInt64.ofNat (le bytes)

/-- The bytes of a 32-bit number. -/
def encodeU32 (x : UInt32) : Bytes :=
  encodeLe 4 x.toNat

/-- The bytes of a 64-bit number. -/
def encodeU64 (x : UInt64) : Bytes :=
  encodeLe 8 x.toNat

/-- Encodings one after the other. -/
def encodeMany (enc : α → Bytes) (as : List α) : Bytes :=
  as.flatMap enc

/-- The same reader so many times. -/
def many (r : Reader α) : ℕ → Reader (List α)
  | 0 => pure []
  | n + 1 => do
    let a ← r
    let rest ← many r n
    return a :: rest

/-! ## Running -/

theorem bind_ok_iff {x : Reader α} {f : α → Reader β} {pos : ℕ} {r : β × ℕ} :
    (x >>= f) pos = .ok r ↔ ∃ a pos', x pos = .ok (a, pos') ∧ f a pos' = .ok r := by
  change (x pos >>= fun p => f p.1 p.2) = _ ↔ _
  cases x pos with
  | error e => simp [bind, Except.bind]
  | ok p =>
    simp only [bind, Except.bind, Except.ok.injEq]
    constructor
    · intro h
      exact ⟨p.1, p.2, rfl, h⟩
    · rintro ⟨a, pos', rfl, h⟩
      exact h

theorem pure_ok_iff {a : α} {pos : ℕ} {r : α × ℕ} : (pure a : Reader α) pos = .ok r ↔ r = (a, pos) := by
  change Except.ok (a, pos) = .ok r ↔ _
  rw [Except.ok.injEq]
  exact eq_comm

theorem bind_error {x : Reader α} {f : α → Reader β} {pos : ℕ} {e : Stop}
    (h : (x >>= f) pos = .error e) :
    x pos = .error e ∨ ∃ a pos', x pos = .ok (a, pos') ∧ f a pos' = .error e := by
  change (x pos >>= fun p => f p.1 p.2) = _ at h
  cases hx : x pos with
  | error e' =>
    rw [hx] at h
    simp only [bind, Except.bind, Except.error.injEq] at h
    exact Or.inl (congrArg Except.error h)
  | ok p =>
    rw [hx] at h
    exact Or.inr ⟨p.1, p.2, rfl, h⟩

theorem check_ok_iff {ok : Bool} {pos : ℕ} {r : Unit × ℕ} :
    check ok pos = .ok r ↔ ok = true ∧ r = ((), pos) := by
  rw [check]
  cases ok <;> simp [eq_comm]

theorem bind_check_ok_iff {ok : Bool} {f : Unit → Reader β} {pos : ℕ} {r : β × ℕ} :
    (check ok >>= f) pos = .ok r ↔ ok = true ∧ f () pos = .ok r := by
  rw [bind_ok_iff]
  constructor
  · rintro ⟨a, pos', hcheck, h⟩
    obtain ⟨hok, heq⟩ := check_ok_iff.mp hcheck
    obtain ⟨rfl, rfl⟩ := Prod.mk.inj heq
    exact ⟨hok, h⟩
  · rintro ⟨hok, h⟩
    exact ⟨(), pos, check_ok_iff.mpr ⟨hok, rfl⟩, h⟩

theorem read_ok_iff {size pos : ℕ} {r : Bytes × ℕ} (hpos : pos ≤ input.length) :
    read input size pos = .ok r ↔
      pos + size ≤ input.length ∧ r = (slice input pos size, pos + size) := by
  rw [read, copy]
  by_cases h : pos + size ≤ input.length
  · rw [if_neg (by omega), if_pos h, Except.ok.injEq]
    exact ⟨fun heq => ⟨h, heq.symm⟩, fun heq => heq.2.symm⟩
  · rw [if_pos (by omega)]
    simp [h]

/-! ## Staying inside -/

/-- From inside the input, the reader runs into no fault and ends
inside. -/
def Safe (input : Bytes) (r : Reader α) : Prop :=
  ∀ pos ≤ input.length, r pos ≠ .error .fault ∧ ∀ a pos', r pos = .ok (a, pos') →
    pos' ≤ input.length

theorem safe_pure (a : α) : Safe input (pure a) := by
  intro pos hpos
  constructor
  · intro h
    cases h
  · intro a' pos' h
    rw [(Prod.mk.inj (pure_ok_iff.mp h)).2]
    exact hpos

theorem Safe.bind {x : Reader α} {f : α → Reader β} (hx : Safe input x)
    (hf : ∀ a, Safe input (f a)) : Safe input (x >>= f) := by
  intro pos hpos
  obtain ⟨hfault, hend⟩ := hx pos hpos
  constructor
  · intro h
    rcases bind_error h with h | ⟨a, pos', ha, h⟩
    · exact hfault h
    · exact (hf a pos' (hend a pos' ha)).1 h
  · intro b pos'' h
    obtain ⟨a, pos', ha, h⟩ := bind_ok_iff.mp h
    exact (hf a pos' (hend a pos' ha)).2 b pos'' h

theorem safe_check (ok : Bool) : Safe input (check ok) := by
  intro pos hpos
  constructor
  · rw [check]
    cases ok <;> simp
  · intro a pos' h
    obtain ⟨-, heq⟩ := check_ok_iff.mp h
    rw [(Prod.mk.inj heq).2]
    exact hpos

/-- The test before a copy is the right one. -/
theorem safe_read (size : ℕ) : Safe input (read input size) := by
  intro pos hpos
  constructor
  · rw [read, copy]
    by_cases h : pos + size ≤ input.length
    · rw [if_neg (by omega), if_pos h]
      simp
    · rw [if_pos (by omega)]
      simp
  · intro a pos' h
    obtain ⟨hle, heq⟩ := (read_ok_iff hpos).mp h
    rw [(Prod.mk.inj heq).2]
    exact hle

theorem safe_readU32 : Safe input (readU32 input) :=
  (safe_read 4).bind fun _ => safe_pure _

theorem safe_readU64 : Safe input (readU64 input) :=
  (safe_read 8).bind fun _ => safe_pure _

theorem safe_many {r : Reader α} (h : Safe input r) (n : ℕ) : Safe input (many r n) := by
  induction n with
  | zero => exact safe_pure _
  | succ n ih => exact h.bind fun _ => ih.bind fun _ => safe_pure _

/-! ## What was read is what stood there -/

/-- What the reader accepts is the encoding of what it returns. -/
def Parses (input : Bytes) (r : Reader α) (enc : α → Bytes) : Prop :=
  ∀ pos a pos', pos ≤ input.length → r pos = .ok (a, pos') →
    input.drop pos = enc a ++ input.drop pos'

theorem parses_read (size : ℕ) : Parses input (read input size) id := by
  intro pos a pos' hpos h
  obtain ⟨hle, heq⟩ := (read_ok_iff hpos).mp h
  obtain ⟨rfl, rfl⟩ := Prod.mk.inj heq
  rw [id, slice, ← List.drop_drop, List.take_append_drop]

/-- A read as long as it was asked to be. -/
theorem length_of_read {size pos pos' : ℕ} {a : Bytes} (hpos : pos ≤ input.length)
    (h : read input size pos = .ok (a, pos')) : a.length = size := by
  obtain ⟨hle, heq⟩ := (read_ok_iff hpos).mp h
  rw [(Prod.mk.inj heq).1]
  exact length_slice hle

theorem parses_readU32 : Parses input (readU32 input) encodeU32 := by
  intro pos a pos' hpos h
  obtain ⟨bytes, pos'', hread, hret⟩ := bind_ok_iff.mp h
  obtain ⟨rfl, rfl⟩ := Prod.mk.inj (pure_ok_iff.mp hret)
  have hlen := length_of_read hpos hread
  have hlt := le_lt bytes
  rw [hlen] at hlt
  have henc : encodeLe 4 (le bytes) = bytes := by rw [← hlen, encodeLe_le]
  rw [encodeU32, UInt32.toNat_ofNat', Nat.mod_eq_of_lt (by omega), henc]
  exact parses_read 4 pos bytes _ hpos hread

theorem parses_readU64 : Parses input (readU64 input) encodeU64 := by
  intro pos a pos' hpos h
  obtain ⟨bytes, pos'', hread, hret⟩ := bind_ok_iff.mp h
  obtain ⟨rfl, rfl⟩ := Prod.mk.inj (pure_ok_iff.mp hret)
  have hlen := length_of_read hpos hread
  have hlt := le_lt bytes
  rw [hlen] at hlt
  have henc : encodeLe 8 (le bytes) = bytes := by rw [← hlen, encodeLe_le]
  rw [encodeU64, UInt64.toNat_ofNat', Nat.mod_eq_of_lt (by omega), henc]
  exact parses_read 8 pos bytes _ hpos hread

theorem parses_many {r : Reader α} {enc : α → Bytes} (hsafe : Safe input r)
    (h : Parses input r enc) (n : ℕ) : Parses input (many r n) (encodeMany enc) := by
  induction n with
  | zero =>
    intro pos as pos' hpos hrun
    obtain ⟨rfl, rfl⟩ := Prod.mk.inj (pure_ok_iff.mp hrun)
    rfl
  | succ n ih =>
    intro pos as pos' hpos hrun
    obtain ⟨a, pos₁, ha, hrun⟩ := bind_ok_iff.mp hrun
    obtain ⟨rest, pos₂, hrest, hret⟩ := bind_ok_iff.mp hrun
    obtain ⟨rfl, rfl⟩ := Prod.mk.inj (pure_ok_iff.mp hret)
    have hpos₁ := (hsafe pos hpos).2 a pos₁ ha
    rw [h pos a pos₁ hpos ha, ih pos₁ rest _ hpos₁ hrest, encodeMany, encodeMany, List.flatMap_cons,
      List.append_assoc]

theorem length_of_many {r : Reader α} {n pos pos' : ℕ} {as : List α}
    (h : many r n pos = .ok (as, pos')) : as.length = n := by
  induction n generalizing pos as with
  | zero =>
    rw [(Prod.mk.inj (pure_ok_iff.mp h)).1]
    rfl
  | succ n ih =>
    obtain ⟨a, pos₁, -, h⟩ := bind_ok_iff.mp h
    obtain ⟨rest, pos₂, hrest, hret⟩ := bind_ok_iff.mp h
    obtain ⟨rfl, rfl⟩ := Prod.mk.inj (pure_ok_iff.mp hret)
    rw [List.length_cons, ih hrest]

/-- What holds of each value read holds of all. -/
theorem forall_of_many {r : Reader α} {P : α → Prop} {n pos pos' : ℕ} {as : List α}
    (hsafe : Safe input r)
    (hr : ∀ pos ≤ input.length, ∀ a pos', r pos = .ok (a, pos') → P a) (hpos : pos ≤ input.length)
    (h : many r n pos = .ok (as, pos')) : ∀ a ∈ as, P a := by
  induction n generalizing pos as with
  | zero =>
    rw [(Prod.mk.inj (pure_ok_iff.mp h)).1]
    simp
  | succ n ih =>
    obtain ⟨a, pos₁, ha, h⟩ := bind_ok_iff.mp h
    obtain ⟨rest, pos₂, hrest, hret⟩ := bind_ok_iff.mp h
    obtain ⟨rfl, rfl⟩ := Prod.mk.inj (pure_ok_iff.mp hret)
    rw [List.forall_mem_cons]
    exact ⟨hr pos hpos a pos₁ ha, ih ((hsafe pos hpos).2 a pos₁ ha) hrest⟩

/-! ## What stands there is read -/

/-- The reader finds the value where its encoding stands. -/
def Accepts (r : Bytes → Reader α) (enc : α → Bytes) (a : α) : Prop :=
  ∀ before after : Bytes, r (before ++ (enc a ++ after)) before.length =
    .ok (a, before.length + (enc a).length)

/-- The same in the terms of what is left: the reader takes the value off
the front. -/
theorem Accepts.run {r : Bytes → Reader α} {enc : α → Bytes} {a : α} (h : Accepts r enc a)
    {pos : ℕ} {rest : Bytes} (hpos : pos ≤ input.length) (hdrop : input.drop pos = enc a ++ rest) :
    r input pos = .ok (a, pos + (enc a).length) ∧ pos + (enc a).length ≤ input.length ∧
      input.drop (pos + (enc a).length) = rest := by
  have hinput : input = input.take pos ++ (enc a ++ rest) := by
    rw [← hdrop, List.take_append_drop]
  have hlen : (input.take pos).length = pos := by
    rw [List.length_take]
    omega
  have hrun := h (input.take pos) rest
  rw [← hinput, hlen] at hrun
  refine ⟨hrun, ?_, ?_⟩
  · have hsize := congrArg List.length hdrop
    rw [List.length_drop, List.length_append] at hsize
    omega
  · rw [← List.drop_drop, hdrop, List.drop_left]

theorem accepts_of_run {r : Bytes → Reader α} {enc : α → Bytes} {a : α}
    (h : ∀ (input : Bytes) pos rest, pos ≤ input.length → input.drop pos = enc a ++ rest →
      r input pos = .ok (a, pos + (enc a).length)) : Accepts r enc a := by
  intro before after
  refine h _ _ after ?_ List.drop_left
  rw [List.length_append]
  omega

theorem accepts_read (text : Bytes) : Accepts (fun input => read input text.length) id text := by
  intro before after
  have hlen : before.length + text.length ≤ (before ++ (text ++ after)).length := by
    simp only [List.length_append]
    omega
  refine (read_ok_iff (by simp only [List.length_append]; omega)).mpr ⟨hlen, ?_⟩
  rw [id, slice_append rfl rfl]

theorem accepts_readU32 (x : UInt32) : Accepts readU32 encodeU32 x := by
  intro before after
  refine bind_ok_iff.mpr ⟨encodeU32 x, before.length + 4, ?_, ?_⟩
  · have h := accepts_read (encodeU32 x) before after
    simpa only [encodeU32, length_encodeLe, id] using h
  · have hx := x.toNat_lt
    rw [encodeU32, le_encodeLe (by omega)]
    refine pure_ok_iff.mpr ?_
    simp

theorem accepts_readU64 (x : UInt64) : Accepts readU64 encodeU64 x := by
  intro before after
  refine bind_ok_iff.mpr ⟨encodeU64 x, before.length + 8, ?_, ?_⟩
  · have h := accepts_read (encodeU64 x) before after
    simpa only [encodeU64, length_encodeLe, id] using h
  · have hx := x.toNat_lt
    rw [encodeU64, le_encodeLe (by omega)]
    refine pure_ok_iff.mpr ?_
    simp

theorem accepts_many {r : Bytes → Reader α} {enc : α → Bytes} {as : List α}
    (h : ∀ a ∈ as, Accepts r enc a) :
    Accepts (fun input => many (r input) as.length) (encodeMany enc) as := by
  induction as with
  | nil =>
    intro before after
    exact pure_ok_iff.mpr rfl
  | cons a as ih =>
    intro before after
    have hhead := h a List.mem_cons_self before (encodeMany enc as ++ after)
    have htail := ih (fun b hb => h b (List.mem_cons_of_mem _ hb)) (before ++ enc a) after
    have hcons : encodeMany enc (a :: as) = enc a ++ encodeMany enc as := List.flatMap_cons
    rw [List.append_assoc, List.length_append] at htail
    rw [hcons, List.append_assoc, List.length_append, ← Nat.add_assoc]
    exact bind_ok_iff.mpr ⟨a, _, hhead, bind_ok_iff.mpr ⟨as, _, htail, pure_ok_iff.mpr rfl⟩⟩

end Cursor

end Muplar
