import Mathlib.Data.Fin.VecNotation
import Muplar.Jni.Bridge
/-!
# JNI — regions of arrays

Seven calls copy a region of an array, from the array to the guest's memory
or the other way. The environment checks that the region is inside the
array, and the bridge checks it again when it copies. Both compare a sum of
64 bits, which wraps, with the length.

A copy is bounded where the sum does not wrap to a number inside the array.
A temporary vector is made for what comes from the guest, for bytes even
after the check found the region outside; that the host has memory for it
is the other thing that is needed.
-/

namespace Muplar

namespace Jni

/-! ## The calls -/

inductive RegionCall
  | setByte
  | getInt
  | getLong
  | getFloat
  | setInt
  | setLong
  | setFloat
  deriving DecidableEq

namespace RegionCall

def call : RegionCall → JniCall
  | setByte => .setByteArrayRegion
  | getInt => .getIntArrayRegion
  | getLong => .getLongArrayRegion
  | getFloat => .getFloatArrayRegion
  | setInt => .setIntArrayRegion
  | setLong => .setLongArrayRegion
  | setFloat => .setFloatArrayRegion

def kind : RegionCall → ArrayKind
  | setByte => .byte
  | getInt | setInt => .int
  | getLong | setLong => .long
  | getFloat | setFloat => .float

/-- Whether elements go to the guest. -/
def gets : RegionCall → Bool
  | getInt | getLong | getFloat => true
  | _ => false

end RegionCall

/-! ## What is to be shown -/

variable (host : Host) (b : JniBridge) (m : Memory) (a : Registers) (op : RegionCall)

/-- The values of the array whose handle is the first argument, if the
region is inside it: in true integers. -/
def Inside (env : JniEnv) (k : ArrayKind) (values : List (Elem k)) : Prop :=
  (env.arrays k).lookup (a 1) = some values ∧ (a 2).toNat + (a 3).toNat ≤ values.length

/-- `new` has `src` at the indices from `start` on, as many as there are in
`src`, and is `old` at all others. -/
structure Spliced {α : Type*} (start : ℕ) (src old new : List α) : Prop where
  length : new.length = old.length
  inside : ∀ i < src.length, new[start + i]? = src[i]?
  outside : ∀ i, i < start ∨ start + src.length ≤ i → new[i]? = old[i]?

/-- One array is changed. -/
structure Changed (env env' : JniEnv) (k : ArrayKind) (handle : UInt64) (new : List (Elem k)) :
    Prop where
  array : (env'.arrays k).lookup handle = some new
  others : ∀ k' handle', k' ≠ k ∨ handle' ≠ handle →
    (env'.arrays k').lookup handle' = (env.arrays k').lookup handle'
  rest : { env' with arrays := env.arrays } = env

/-- **The elements of the region are copied**, and nothing else changes. To
the guest they go where it gave an address; from the guest they come where
it has memory for them. -/
def Copied (values : List (Elem op.kind)) (answer : Answer) : Prop :=
  if op.gets then
    answer.bridge = b ∧ ∃ region : List (Elem op.kind), region.length = (a 3).toNat ∧
      (∀ i < (a 3).toNat, region[i]? = values[(a 2).toNat + i]?) ∧
      answer.memory = if a 4 = 0 then m else host.guestWrite m (a 4) (encodeElems region)
  else
    answer.memory = m ∧ answer.bridge = { b with env := answer.bridge.env } ∧
      match if a 4 = 0 then none else host.guestRead m (a 4) ((a 3).toNat * op.kind.size) with
      | none => answer.bridge.env = b.env
      | some bs => ∃ new, Changed b.env answer.bridge.env op.kind (a 1) new ∧
          Spliced (a 2).toNat (decodeElems op.kind (a 3).toNat bs) values new

/-- **The copy is bounded**: the call comes back, it copies the region if it
is inside the array, and otherwise it raises an exception and does nothing
else. -/
def Bounded : Prop :=
  ∃ answer, handleHvc host b m a op.call.number = .ok answer ∧
    (∀ values, Inside a b.env op.kind values → Copied host b m a op values answer) ∧
    ((¬ ∃ values, Inside a b.env op.kind values) →
      answer.bridge = { b with env := b.env.raise } ∧ answer.memory = m)

/-- The bridge with an exception pending or not. -/
def JniBridge.withPending (pending : Bool) : JniBridge :=
  { b with env := { b.env with pendingException := pending } }

/-- The end of the region, in 64 bits, is inside the array only if it is
inside. -/
def EndsRight : Prop :=
  ∀ values, (b.env.arrays op.kind).lookup (a 1) = some values →
    (a 2 + a 3).toNat ≤ values.length → (a 2).toNat + (a 3).toNat ≤ values.length

/-- The host has memory for the temporary vector, where one is made: for
bytes always, for the others if the region is inside the array. -/
def Room : Prop :=
  op.gets = false → a 3 ≠ 0 → a 4 ≠ 0 →
    (op = .setByte ∨ ∃ values, Inside a b.env op.kind values) →
    host.allocates ((a 3).toNat * op.kind.size) = true

/-! ## The check -/

variable {host b m a op}

/-- The check finds the region outside. -/
def Refused (b : JniBridge) (a : Registers) (k : ArrayKind) : Prop :=
  ∀ values, (b.env.arrays k).lookup (a 1) = some values → values.length < (a 2 + a 3).toNat

theorem toNat_add_le (x y : UInt64) : (x + y).toNat ≤ x.toNat + y.toNat := by
  rw [UInt64.toNat_add]
  exact Nat.mod_le _ _

theorem Refused.not_inside {k : ArrayKind} (h : Refused b a k) :
    ¬ ∃ values, Inside a b.env k values := by
  rintro ⟨values, hlookup, hle⟩
  have hlt := h values hlookup
  have hsum := toNat_add_le (a 2) (a 3)
  omega

theorem checkRegion_refused {k : ArrayKind} (h : Refused b a k) :
    b.env.checkRegion a k = (1, b.env.raise) := by
  rw [JniEnv.checkRegion]
  split
  · rfl
  · rename_i values hlookup
    exact if_pos (h values hlookup)

theorem checkRegion_passed {k : ArrayKind} {values : List (Elem k)}
    (hlookup : (b.env.arrays k).lookup (a 1) = some values)
    (hle : (a 2 + a 3).toNat ≤ values.length) : b.env.checkRegion a k = (0, b.env) := by
  rw [JniEnv.checkRegion, hlookup]
  exact if_neg (by omega)

theorem refused_or_passed (b : JniBridge) (a : Registers) (k : ArrayKind) :
    Refused b a k ∨ ∃ values, (b.env.arrays k).lookup (a 1) = some values ∧
      (a 2 + a 3).toNat ≤ values.length := by
  by_cases h : Refused b a k
  · exact .inl h
  · refine .inr ?_
    unfold Refused at h
    push Not at h
    exact h

/-- A call of a region is the check, and what the bridge does after it. -/
theorem handleHvc_region (op : RegionCall) :
    handleHvc host b m a op.call.number =
      afterCall host { b with env := (b.env.checkRegion a op.kind).2 } m a op.call
        (b.env.checkRegion a op.kind).1 := by
  unfold handleHvc
  rw [JniCall.ofNumber_number]
  cases op <;> rfl

/-! ## The copy -/

/-- What the bridge does for a get. -/
theorem afterCall_get {ret : UInt64} (h : op.gets = true) :
    afterCall host b m a op.call ret =
      (getArrayRegion host b m a op.kind ret).map fun m => ⟨ret, b, m⟩ := by
  cases op <;> first | rfl | cases h

/-- What it does for a set: for bytes whatever the check found. -/
theorem afterCall_set {ret : UInt64} (h : op.gets = false) :
    afterCall host b m a op.call ret =
      (if (op = .setByte ∨ ret = 0) ∧ a 4 ≠ 0 ∧ a 3 ≠ 0 then
        copyIn host b m a op.kind (a 2) (a 3) (a 4)
      else .ok b.env).map fun env => ⟨ret, { b with env }, m⟩ := by
  have hpositive : 0 < a 3 ↔ a 3 ≠ 0 := by
    rw [UInt64.lt_iff_toNat_lt, UInt64.toNat_zero, Nat.pos_iff_ne_zero, Ne, ← UInt64.toNat_zero,
      UInt64.toNat_inj]
  cases op with
  | setByte =>
    show (setByteArrayRegion host b m a).map _ = _
    have hif : (0 < a 3 ∧ a 4 ≠ 0) ↔
        (RegionCall.setByte = .setByte ∨ ret = 0) ∧ a 4 ≠ 0 ∧ a 3 ≠ 0 := by
      rw [hpositive, and_comm]
      exact ⟨fun h => ⟨.inl rfl, h⟩, fun h => h.2⟩
    rw [setByteArrayRegion]
    simp only [hif]
    rfl
  | setInt | setLong | setFloat =>
    show (setRegion host b m a _ ret).map _ = _
    rw [setRegion]
    simp only [reduceCtorEq, false_or]
    rfl
  | _ => cases h

theorem length_decodeElems (k : ArrayKind) (n : ℕ) (bs : Bytes) :
    (decodeElems k n bs).length = n := by
  rw [decodeElems, List.length_map, List.length_range]

theorem copyIn_of_unroomy {k : ArrayKind} (h : host.allocates ((a 3).toNat * k.size) = false) :
    copyIn host b m a k (a 2) (a 3) (a 4) = .error .uncaught := by
  rw [copyIn, h]
  rfl

/-- A copy for a region that the check refuses is made and dropped. -/
theorem copyIn_refused {k : ArrayKind} (h : Refused b a k)
    (hroom : host.allocates ((a 3).toNat * k.size) = true) :
    copyIn host b m a k (a 2) (a 3) (a 4) = .ok b.env := by
  rw [copyIn, if_pos hroom]
  cases host.guestRead m (a 4) ((a 3).toNat * k.size) with
  | none => rfl
  | some bs =>
    dsimp only
    rw [JniEnv.setArrayRegion, length_decodeElems, UInt64.ofNat_toNat]
    split
    · rfl
    · rename_i values hlookup
      exact if_pos (h values hlookup)

/-- The array after a copy into it. -/
def splice {k : ArrayKind} (values : List (Elem k)) (start : ℕ) (src : List (Elem k)) :
    List (Elem k) :=
  values.take start ++ src ++ values.drop (start + src.length)

theorem spliced_splice {k : ArrayKind} {values src : List (Elem k)} {start : ℕ}
    (h : start + src.length ≤ values.length) :
    Spliced start src values (splice values start src) := by
  have htake : (values.take start).length = start := by
    rw [List.length_take]
    omega
  refine ⟨?_, fun i hi => ?_, fun i hi => ?_⟩
  · rw [splice, List.length_append, List.length_append, htake, List.length_drop]
    omega
  · rw [splice, List.append_assoc, List.getElem?_append_right (by omega), htake,
      Nat.add_sub_cancel_left, List.getElem?_append_left hi]
  · rw [splice]
    rcases hi with hlt | hge
    · rw [List.append_assoc, List.getElem?_append_left (by omega), List.getElem?_take_of_lt hlt]
    · rw [List.getElem?_append_right (by rw [List.length_append]; omega), List.length_append,
        htake, List.getElem?_drop, Nat.add_sub_cancel' hge]

/-- The environment with one array replaced. -/
def JniEnv.setArray (env : JniEnv) (k : ArrayKind) (handle : UInt64) (new : List (Elem k)) :
    JniEnv :=
  { env with arrays := Function.update env.arrays k ((env.arrays k).insert handle new) }

theorem changed_setArray (env : JniEnv) (k : ArrayKind) (handle : UInt64) (new : List (Elem k)) :
    Changed env (env.setArray k handle new) k handle new := by
  have harrays : (env.setArray k handle new).arrays =
      Function.update env.arrays k ((env.arrays k).insert handle new) := rfl
  refine ⟨?_, fun k' handle' hne => ?_, rfl⟩
  · rw [harrays, Function.update_self, AList.lookup_insert]
  · rw [harrays]
    by_cases hk : k' = k
    · subst hk
      rw [Function.update_self, AList.lookup_insert_ne (hne.resolve_left (not_not.mpr rfl))]
    · rw [Function.update_of_ne hk]

/-- Nothing is copied into the array, and nothing changes. -/
theorem Changed.refl {env : JniEnv} {k : ArrayKind} {handle : UInt64} {values : List (Elem k)}
    (h : (env.arrays k).lookup handle = some values) : Changed env env k handle values :=
  ⟨h, fun _ _ _ => rfl, rfl⟩

theorem copyIn_inside {k : ArrayKind} {values : List (Elem k)} (h : Inside a b.env k values)
    (hroom : host.allocates ((a 3).toNat * k.size) = true) :
    copyIn host b m a k (a 2) (a 3) (a 4) =
      .ok (match host.guestRead m (a 4) ((a 3).toNat * k.size) with
        | none => b.env
        | some bs => b.env.setArray k (a 1)
            (splice values (a 2).toNat (decodeElems k (a 3).toNat bs))) := by
  rw [copyIn, if_pos hroom]
  cases host.guestRead m (a 4) ((a 3).toNat * k.size) with
  | none => rfl
  | some bs =>
    have hsum := toNat_add_le (a 2) (a 3)
    have hle := h.2
    dsimp only
    rw [JniEnv.setArrayRegion, h.1, length_decodeElems, UInt64.ofNat_toNat]
    dsimp only
    rw [if_neg (by omega), if_neg (by omega), JniEnv.setArray, splice, length_decodeElems]

/-- Where the check passes no exception is raised. -/
theorem pending_of_passed {values : List (Elem op.kind)} {answer : Answer}
    (hlookup : (b.env.arrays op.kind).lookup (a 1) = some values)
    (hle : (a 2 + a 3).toNat ≤ values.length)
    (hcall : handleHvc host b m a op.call.number = .ok answer) :
    answer.bridge.env.pendingException = b.env.pendingException := by
  rw [handleHvc_region, checkRegion_passed hlookup hle] at hcall
  dsimp only at hcall
  cases hgets : op.gets with
  | true =>
    rw [afterCall_get hgets] at hcall
    cases hregion : getArrayRegion host b m a op.kind 0 with
    | error fault => rw [hregion] at hcall; cases hcall
    | ok m' => rw [hregion] at hcall; cases hcall; rfl
  | false =>
    rw [afterCall_set hgets] at hcall
    split_ifs at hcall with hcopies
    · cases hcopy : copyIn host b m a op.kind (a 2) (a 3) (a 4) with
      | error fault => rw [hcopy] at hcall; cases hcall
      | ok env =>
        rw [hcopy] at hcall
        cases hcall
        -- a copy changes nothing but an array
        unfold copyIn at hcopy
        split_ifs at hcopy
        cases hread : host.guestRead m (a 4) ((a 3).toNat * op.kind.size) with
        | none => rw [hread] at hcopy; cases hcopy; rfl
        | some bs =>
          rw [hread] at hcopy
          dsimp only at hcopy
          rw [JniEnv.setArrayRegion, hlookup] at hcopy
          dsimp only at hcopy
          split_ifs at hcopy
          all_goals cases hcopy; rfl
    · cases hcall
      rfl

/-! ## Results -/

/-- A region that the check refuses is refused, if there is room for what
is copied all the same. -/
theorem bounded_of_refused (h : Refused b a op.kind) (hroom : Room host b a op) :
    Bounded host b m a op := by
  refine ⟨⟨1, { b with env := b.env.raise }, m⟩, ?_,
    fun values hinside => absurd ⟨values, hinside⟩ h.not_inside, fun _ => ⟨rfl, rfl⟩⟩
  rw [handleHvc_region, checkRegion_refused h]
  dsimp only
  cases hgets : op.gets with
  | true =>
    rw [afterCall_get hgets, getArrayRegion, if_neg (fun hret => absurd hret.1 (by decide))]
    rfl
  | false =>
    rw [afterCall_set hgets]
    split_ifs with hcopies
    · obtain ⟨hbyte, haddress, hlen⟩ := hcopies
      have hbyte : op = .setByte := hbyte.resolve_right (by decide)
      have hraised : Refused { b with env := b.env.raise } a op.kind := h
      rw [copyIn_refused hraised (hroom hgets hlen haddress (.inl hbyte))]
      rfl
    · rfl

/-- A region inside the array is copied, if there is room for the copy. -/
theorem bounded_of_inside {values : List (Elem op.kind)} (h : Inside a b.env op.kind values)
    (hroom : Room host b a op) : Bounded host b m a op := by
  have hsum := toNat_add_le (a 2) (a 3)
  have hle := h.2
  have hcheck : b.env.checkRegion a op.kind = (0, b.env) := checkRegion_passed h.1 (by omega)
  have hsame : ∀ values', Inside a b.env op.kind values' → values' = values := fun values' h' =>
    Option.some_inj.mp (h'.1.symm.trans h.1)
  have hbounded : ∀ answer, handleHvc host b m a op.call.number = .ok answer →
      Copied host b m a op values answer → Bounded host b m a op := fun answer hcall hcopied =>
    ⟨answer, hcall, fun values' h' => hsame values' h' ▸ hcopied, fun hno => absurd ⟨values, h⟩ hno⟩
  have hcall : handleHvc host b m a op.call.number = _ := handleHvc_region op
  rw [hcheck] at hcall
  dsimp only at hcall
  cases hgets : op.gets with
  | true =>
    have hlength : ((values.drop (a 2).toNat).take (a 3).toNat).length = (a 3).toNat := by
      rw [List.length_take, List.length_drop]
      omega
    have hregion : ∀ i < (a 3).toNat,
        ((values.drop (a 2).toNat).take (a 3).toNat)[i]? = values[(a 2).toNat + i]? := by
      intro i hi
      rw [List.getElem?_take_of_lt hi, List.getElem?_drop]
    rw [afterCall_get hgets, getArrayRegion] at hcall
    by_cases haddress : a 4 = 0
    · rw [if_neg (fun hno => hno.2 haddress)] at hcall
      refine hbounded _ hcall ?_
      rw [Copied, if_pos hgets]
      exact ⟨rfl, _, hlength, hregion, (if_pos haddress).symm⟩
    · rw [if_pos ⟨rfl, haddress⟩, h.1] at hcall
      dsimp only at hcall
      rw [if_neg (by omega), if_neg (by omega)] at hcall
      refine hbounded _ hcall ?_
      rw [Copied, if_pos hgets]
      exact ⟨rfl, _, hlength, hregion, (if_neg haddress).symm⟩
  | false =>
    have hset : ¬ op.gets = true := by rw [hgets]; decide
    rw [afterCall_set hgets] at hcall
    split_ifs at hcall with hcopies
    · obtain ⟨-, haddress, hlen⟩ := hcopies
      rw [copyIn_inside h (hroom hgets hlen haddress (.inr ⟨values, h⟩))] at hcall
      refine hbounded _ hcall ?_
      rw [Copied, if_neg hset, if_neg haddress]
      refine ⟨rfl, rfl, ?_⟩
      dsimp only
      cases host.guestRead m (a 4) ((a 3).toNat * op.kind.size) with
      | none => rfl
      | some bs =>
        refine ⟨_, changed_setArray _ _ _ _, spliced_splice ?_⟩
        rw [length_decodeElems]
        exact hle
    · -- no address is given, or no element is asked for
      refine hbounded _ hcall ?_
      rw [Copied, if_neg hset]
      refine ⟨rfl, rfl, ?_⟩
      by_cases haddress : a 4 = 0
      · rw [if_pos haddress]
      · have hlen : a 3 = 0 := by
          by_contra hno
          exact hcopies ⟨.inr rfl, haddress, hno⟩
        rw [if_neg haddress, hlen]
        cases host.guestRead m (a 4) ((0 : UInt64).toNat * op.kind.size) with
        | none => rfl
        | some bs =>
          refine ⟨values, .refl h.1, rfl, fun i hi => absurd hi (Nat.not_lt_zero i), fun i _ => rfl⟩

theorem bounded_of_endsRight (hends : EndsRight b a op) (hroom : Room host b a op) :
    Bounded host b m a op := by
  rcases refused_or_passed b a op.kind with hrefused | ⟨values, hlookup, hle⟩
  · exact bounded_of_refused hrefused hroom
  · exact bounded_of_inside ⟨hlookup, hends values hlookup hle⟩ hroom

/-- A region outside the array is not refused where the sum wraps to a
number inside it. -/
theorem endsRight_of_bounded (h : Bounded host (b.withPending false) m a op) :
    EndsRight b a op := by
  intro values hlookup hle
  by_contra houtside
  obtain ⟨answer, hcall, -, hraised⟩ := h
  have hnone : ¬ ∃ values', Inside a (b.withPending false).env op.kind values' := by
    rintro ⟨values', hlookup', hinside⟩
    obtain rfl : values = values' := Option.some_inj.mp (hlookup.symm.trans hlookup')
    exact houtside hinside
  have hpending := pending_of_passed (b := b.withPending false) hlookup hle hcall
  rw [(hraised hnone).1] at hpending
  cases hpending

/-- Without room for the temporary vector the call does not come back. -/
theorem room_of_bounded (h : Bounded host b m a op) : Room host b a op := by
  intro hgets hlen haddress hmade
  by_contra hno
  have hno : host.allocates ((a 3).toNat * op.kind.size) = false := by
    rwa [Bool.not_eq_true] at hno
  obtain ⟨answer, hcall, -⟩ := h
  have hcopies : op = .setByte ∨ (b.env.checkRegion a op.kind).1 = 0 := by
    rcases hmade with hbyte | ⟨values, hinside⟩
    · exact .inl hbyte
    · have hsum := toNat_add_le (a 2) (a 3)
      have hle := hinside.2
      rw [checkRegion_passed hinside.1 (by omega)]
      exact .inr rfl
  rw [handleHvc_region, afterCall_set hgets, if_pos ⟨hcopies, haddress, hlen⟩,
    copyIn_of_unroomy hno] at hcall
  cases hcall

/-- **Region copies are bounded exactly where the end of the region does not
wrap into the array and the host has room for the copy**: for every call,
array, region and memory, whatever is pending before. -/
theorem regions_bounded_iff (host : Host) (b : JniBridge) (m : Memory) (a : Registers)
    (op : RegionCall) :
    (∀ pending, Bounded host (b.withPending pending) m a op) ↔
      EndsRight b a op ∧ Room host b a op := by
  constructor
  · intro h
    exact ⟨endsRight_of_bounded (h false), room_of_bounded (b := b.withPending false) (h false)⟩
  · rintro ⟨hends, hroom⟩ pending
    exact bounded_of_endsRight (b := b.withPending pending) hends hroom

/-- An environment with an array of four integers. -/
def fourInts : JniEnv where
  arrays := Function.update (fun _ => ∅) .int (AList.insert 0x70000001 [1, 2, 3, 4] ∅)

/-- **A region that starts 2 ^ 64 - 1 elements behind the start** of an array
of four, one element long, ends at 0 for the check. What is before the array
is copied to the guest. -/
theorem regions_wrap :
    ¬ Bounded plainHost { env := fourInts, elfLoadMin := 0, stubBaseGpa := 0 }
        (.ofBytes 0x1000 [0, 0, 0, 0] (by decide))
        ![0, 0x70000001, -1, 1, 0x1000, 0, 0, 0] .getInt := by
  rintro ⟨answer, hcall, -⟩
  have hfault : handleHvc plainHost { env := fourInts, elfLoadMin := 0, stubBaseGpa := 0 }
      (.ofBytes 0x1000 [0, 0, 0, 0] (by decide)) ![0, 0x70000001, -1, 1, 0x1000, 0, 0, 0]
      RegionCall.getInt.call.number = .error .outOfBounds := rfl
  rw [hfault] at hcall
  cases hcall

end Jni

end Muplar
