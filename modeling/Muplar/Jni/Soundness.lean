import Muplar.Common.Run
import Muplar.Jni.Bridge
import Muplar.Jni.Handles
/-!
# JNI — what handles and strings stand for

A session is a run of calls of a guest, each with registers and a memory
of its own. Beside the bridge it keeps what the calls were about: what
each handle was given out for, and the whole text of each string that was
made from a C string.

It is sound if a handle stands for one thing only, if every string still
has its text, and if classes and members are those named where the
pointers pointed. The bridge reads 511 bytes of a C string, and keeps
what it has read under the address, in the table where strings have their
contents under their handles. So it is not always sound. What is shown is
that it is under the condition that no argument is longer than that or
lies where a handle is.
-/

namespace Muplar

namespace Jni

/-! ## Sessions -/

/-- A call, and the guest's memory at the time. -/
structure Call where
  nr : UInt32
  regs : Registers
  memory : Memory

/-- What a handle is given out for. An object is a new one at each call. -/
inductive Thing
  | cls (descriptor : Bytes)
  | member (kind : MemberKind) (entry : MemberEntry)
  | object (call : ℕ)
  deriving DecidableEq

structure Issue where
  handle : UInt64
  thing : Thing

/-- A string made from a C string, with the text of the C string. -/
structure Created where
  handle : UInt64
  text : Bytes

structure Session where
  bridge : JniBridge
  ended : Option Fault := none
  calls : ℕ := 0
  issues : List Issue := []
  created : List Created := []

/-- The text that an argument designates: the C string it points to.
Where there is none it is what the environment takes for it. -/
def designated (env : JniEnv) (m : Memory) (p : UInt64) : Bytes :=
  (m.textAt p).getD (env.resolved p)

section Calls

variable (host : Host) (s : Session) (c : Call)

/-- The handle a call gives out, and for what. Two calls fail with 0 where
their argument says nothing: `FindClass` where there is no string, and
`GetMethodID` where there is no class. A new reference stands for what
its argument stands for. -/
def issued (r : Answer) : JniCall → Option Issue
  | .findClass =>
    if r.value = 0 ∧ c.memory.textAt (c.regs 1) = none then none
    else some ⟨r.value, .cls (text .findClass 1)⟩
  | .getMethodId => issuedMember .getMethodId .method
  | .getFieldId => issuedMember .getFieldId .field
  | .newStringUtf | .newByteArray | .newIntArray | .newLongArray | .newFloatArray
  | .newObjectArray | .newDirectByteBuffer => some ⟨r.value, .object s.calls⟩
  | .callObjectMethod | .exceptionOccurred =>
    if r.value = 0 then none else some ⟨r.value, .object s.calls⟩
  | .newGlobalRef | .newLocalRef => s.issues.find? (·.handle = r.value)
  | _ => none
where
  text (call : JniCall) (i : Fin 8) : Bytes :=
    designated (internCharArgs host s.bridge c.memory c.regs call) c.memory (c.regs i)
  issuedMember (call : JniCall) (kind : MemberKind) : Option Issue :=
    if r.value = 0 ∧ (s.bridge.env.classes.lookup (c.regs 1)).isNone then none
    else some ⟨r.value, .member kind ⟨c.regs 1, text call 2, text call 3⟩⟩

/-- The string that `NewStringUTF` makes from a C string. -/
def createdBy (r : Answer) : JniCall → Option Created
  | .newStringUtf => (c.memory.textAt (c.regs 1)).map fun text => ⟨r.value, text⟩
  | _ => none

/-- A call of the guest. A fault is the end of the process. -/
def Session.step : Session :=
  if s.ended.isSome then s
  else
    match handleHvc host s.bridge c.memory c.regs c.nr with
    | .error fault => { s with ended := some fault }
    | .ok r =>
      { s with
        bridge := r.bridge
        calls := s.calls + 1
        issues := ((JniCall.ofNumber c.nr).bind (issued host s c r)).toList ++ s.issues
        created := ((JniCall.ofNumber c.nr).bind (createdBy c r)).toList ++ s.created }

end Calls

/-- **Strings and handles are sound.** Nothing was written outside an
array; a handle stands for one thing; a string has the whole of its text,
however long ago it was made; and under the handle of a class or a member
the environment has the descriptor, or the name and the signature, that
the pointers pointed to. -/
structure Session.Sound (s : Session) : Prop where
  inBounds : s.ended ≠ some .outOfBounds
  distinct : ∀ x ∈ s.issues, ∀ y ∈ s.issues, x.handle = y.handle → x.thing = y.thing
  strings : ∀ x ∈ s.created, s.bridge.env.strings.lookup x.handle = some x.text
  classes : ∀ x ∈ s.issues, ∀ d, x.thing = .cls d →
    (s.bridge.env.classes.lookup x.handle).map JClass.descriptor = some d
  members : ∀ x ∈ s.issues, ∀ kind e, x.thing = .member kind e →
    (s.bridge.env.members kind).lookup x.handle = some e

/-! ## The condition -/

/-- The arguments that are pointers to C strings. -/
def Call.charArgs (c : Call) : List UInt64 :=
  ((JniCall.ofNumber c.nr).map (Jni.charArgs c.regs)).getD []

/-- The array a call copies a region of. -/
def regionKind : JniCall → Option ArrayKind
  | .setByteArrayRegion => some .byte
  | .getIntArrayRegion | .setIntArrayRegion => some .int
  | .getLongArrayRegion | .setLongArrayRegion => some .long
  | .getFloatArrayRegion | .setFloatArrayRegion => some .float
  | _ => none

/-- **The condition.** The counter does not run out; a C string that is an
argument has at most 511 bytes and does not lie where a string's handle
is; and where the sum of start and length is inside the array, it is so
without wrapping around. -/
structure Call.Clean (s : Session) (c : Call) : Prop where
  room : s.bridge.env.nextHandle.toNat + 2 < 2 ^ 64
  short : ∀ p ∈ c.charArgs, ∀ text, c.memory.textAt p = some text → text.length ≤ 511
  apart : ∀ p ∈ c.charArgs, ∀ x ∈ s.created, p ≠ x.handle
  region : ∀ kind, (JniCall.ofNumber c.nr).bind regionKind = some kind →
    ∀ values, (s.bridge.env.arrays kind).lookup (c.regs 1) = some values →
      (c.regs 2 + c.regs 3).toNat ≤ values.length →
        (c.regs 2).toNat + (c.regs 3).toNat ≤ values.length

/-! ## Before the call -/

section Before

variable {host : Host} {b : JniBridge} {m : Memory} {a : Registers} {env : JniEnv}

theorem foldl_internCharArg (host : Host) (m : Memory) (ps : List UInt64) (env : JniEnv) :
    ∃ strings, ps.foldl (internCharArg host m) env = { env with strings } ∧
      (∀ h, h ∉ ps → strings.lookup h = env.strings.lookup h) ∧
      ∀ p ∈ ps, p ≠ 0 → strings.lookup p = some (readStr host m p) := by
  induction ps generalizing env with
  | nil => exact ⟨env.strings, rfl, fun _ _ => rfl, fun p hp => absurd hp List.not_mem_nil⟩
  | cons p ps ih =>
    obtain ⟨strings, heq, hkeep, hread⟩ := ih (internCharArg host m env p)
    have hfirst : ∃ staged, internCharArg host m env p = { env with strings := staged } ∧
        (∀ h, h ≠ p → staged.lookup h = env.strings.lookup h) ∧
        (p ≠ 0 → staged.lookup p = some (readStr host m p)) := by
      by_cases hp : p = 0
      · exact ⟨env.strings, if_pos hp, fun _ _ => rfl, fun h => absurd hp h⟩
      · exact ⟨env.strings.insert p (readStr host m p), if_neg hp,
          fun h hne => AList.lookup_insert_ne hne, fun _ => AList.lookup_insert _⟩
    obtain ⟨staged, hstaged, hother, hself⟩ := hfirst
    rw [hstaged] at heq hkeep
    refine ⟨strings, ?_, fun h hh => ?_, fun q hq hne => ?_⟩
    · rw [List.foldl_cons, hstaged]
      exact heq
    · rw [List.mem_cons, not_or] at hh
      exact (hkeep h hh.2).trans (hother h hh.1)
    · by_cases hin : q ∈ ps
      · exact hread q hin hne
      · obtain rfl | hin' := List.mem_cons.mp hq
        · exact (hkeep q hin).trans (hself hne)
        · exact absurd hin' hin

/-- **What is read is what is there**, where it is not too long. -/
theorem designated_eq (hhost : host.Documented) {ps : List UInt64} {p : UInt64} (hp : p ∈ ps)
    (hshort : ∀ text, m.textAt p = some text → text.length ≤ 511) :
    designated (ps.foldl (internCharArg host m) env) m p =
      (ps.foldl (internCharArg host m) env).resolved p := by
  obtain ⟨strings, heq, -, hread⟩ := foldl_internCharArg host m ps env
  cases htext : m.textAt p with
  | none => rw [designated, htext]; rfl
  | some text =>
    have haddr := Memory.textAt_eq_some_iff.mp htext
    have hcut : text.take 511 = text := List.take_of_length_le (hshort text htext)
    rw [designated, htext, heq, JniEnv.resolved]
    show text = (strings.lookup p).getD []
    rw [hread p hp haddr.notNull, readStr, hhost.readStr m p text 512 haddr (by omega)]
    exact hcut.symm

end Before

/-! ## After the call -/

section After

variable {host : Host} {b : JniBridge} {m : Memory} {a : Registers} {env : JniEnv}
variable {kind : ArrayKind} {r : Answer} {ret : UInt64}

theorem registerNative_grows {h fn : UInt64} {name sig : Bytes} :
    Grows env (env.registerNative h name sig fn) 0 := by
  cases hclass : env.classes.lookup h with
  | none =>
    rw [JniEnv.registerNative, hclass]
    exact Grows.refl
  | some cls =>
    rw [JniEnv.registerNative, hclass]
    refine Grows.of_tables rfl (fun h' => ?_) rfl rfl rfl fun _ _ _ hh => hh
    refine (descriptorOf_insert env h h' _).trans ?_
    by_cases hh : h' = h
    · rw [if_pos hh, hh, JniEnv.descriptorOf, hclass]
      rfl
    · rw [if_neg hh]

theorem setArrayRegion_grows {handle start : UInt64} {src : List (Elem kind)} {env' : JniEnv}
    (h : env.setArrayRegion kind handle start src = .ok env') : Grows env env' 0 := by
  rw [JniEnv.setArrayRegion] at h
  split at h
  · cases h
    exact Grows.refl
  · split at h
    · cases h
      exact Grows.refl
    · split at h
      · cases h
      · cases h
        exact Grows.of_tables rfl (fun _ => rfl) rfl rfl rfl fun _ _ _ hh => hh

theorem copyIn_grows {start len gpa : UInt64} {env' : JniEnv}
    (h : copyIn host b m a kind start len gpa = .ok env') : Grows b.env env' 0 := by
  rw [copyIn] at h
  split at h
  · split at h
    · cases h
      exact Grows.refl
    · exact setArrayRegion_grows h
  · cases h

/-- What is copied into arrays, and the methods that are registered, leave
the tables as they are. -/
theorem afterCall_grows {call : JniCall} (h : afterCall host b m a call ret = .ok r) :
    Grows b.env r.bridge.env 0 := by
  have hkept : ∀ {x : Except Fault JniEnv}, (∀ env', x = .ok env' → Grows b.env env' 0) →
      (x.map fun env => (⟨ret, { b with env }, m⟩ : Answer)) = .ok r →
        Grows b.env r.bridge.env 0 := by
    intro x hx hmap
    cases x with
    | error fault => cases hmap
    | ok env' => cases hmap; exact hx env' rfl
  have hregion : ∀ {x : Except Fault Memory},
      (x.map fun m => (⟨ret, b, m⟩ : Answer)) = .ok r → Grows b.env r.bridge.env 0 := by
    intro x hmap
    cases x with
    | error fault => cases hmap
    | ok m' => cases hmap; exact Grows.refl
  have hrelease : ∀ k env', releaseArrayElements host b m a k = .ok env' → Grows b.env env' 0 := by
    intro k env' hr
    rw [releaseArrayElements] at hr
    split at hr
    · cases hr; exact Grows.refl
    · split at hr
      · cases hr; exact Grows.refl
      · split at hr
        · cases hr; exact Grows.refl
        · exact copyIn_grows hr
  have hset : ∀ k env', setRegion host b m a k ret = .ok env' → Grows b.env env' 0 := by
    intro k env' hr
    rw [setRegion] at hr
    split at hr
    · exact copyIn_grows hr
    · cases hr; exact Grows.refl
  have helements : ∀ m k, Grows b.env (materializeArray host b m k ret).bridge.env 0 := by
    intro m k
    rw [materializeArray]
    split
    · exact Grows.refl
    · rw [writeScratchBytes]
      dsimp only
      split
      · exact Grows.refl
      · exact Grows.refl
  cases call
  case getStringUtfChars =>
    cases h
    rw [materializeStringChars]
    split
    · exact Grows.refl
    · exact Grows.refl
  case getByteArrayElements | getIntArrayElements | getLongArrayElements | getFloatArrayElements =>
    cases h
    exact helements _ _
  case registerNatives =>
    cases h
    show Grows b.env (registerNativesFromGuest host b m _ _ _) 0
    rw [registerNativesFromGuest]
    refine List.foldlRecOn (motive := fun env' => Grows b.env env' 0) _ _ Grows.refl ?_
    exact fun env' hgrows i _ => hgrows.trans registerNative_grows
  case setByteArrayRegion =>
    refine hkept (fun env' henv => ?_) h
    rw [setByteArrayRegion] at henv
    split at henv
    · exact copyIn_grows henv
    · cases henv; exact Grows.refl
  case releaseByteArrayElements | releaseIntArrayElements | releaseLongArrayElements
      | releaseFloatArrayElements => exact hkept (hrelease _) h
  case setIntArrayRegion | setLongArrayRegion | setFloatArrayRegion => exact hkept (hset _) h
  case getIntArrayRegion | getLongArrayRegion | getFloatArrayRegion => exact hregion h
  all_goals
    cases h
    exact Grows.refl

/-- A copy that stays in the array by both sums is not a fault. -/
theorem copyIn_inBounds {start len gpa : UInt64}
    (hfits : ∀ values, (b.env.arrays kind).lookup (a 1) = some values →
      (start + len).toNat ≤ values.length → start.toNat + len.toNat ≤ values.length) :
    copyIn host b m a kind start len gpa ≠ .error .outOfBounds := by
  intro h
  rw [copyIn] at h
  split at h
  · split at h
    · cases h
    · rw [JniEnv.setArrayRegion] at h
      split at h
      · cases h
      · next values hvalues =>
        rw [decodeElems, List.length_map, List.length_range, UInt64.ofNat_toNat] at h
        split at h
        · cases h
        · next hsum =>
          have hreal := hfits values hvalues (Nat.le_of_not_lt hsum)
          rw [if_neg (Nat.not_lt.mpr hreal)] at h
          cases h
  · cases h

theorem afterCall_inBounds {call : JniCall}
    (hfits : ∀ kind, regionKind call = some kind → ∀ values,
      (b.env.arrays kind).lookup (a 1) = some values →
        (a 2 + a 3).toNat ≤ values.length → (a 2).toNat + (a 3).toNat ≤ values.length) :
    afterCall host b m a call ret ≠ .error .outOfBounds := by
  have hkept : ∀ {x : Except Fault JniEnv}, x ≠ .error .outOfBounds →
      (x.map fun env => (⟨ret, { b with env }, m⟩ : Answer)) ≠ .error .outOfBounds := by
    intro x hx hmap
    cases x with
    | error fault => cases hmap; exact hx rfl
    | ok env' => cases hmap
  have hrelease : ∀ k, releaseArrayElements host b m a k ≠ .error .outOfBounds := by
    intro k
    rw [releaseArrayElements]
    split
    · exact fun h => by cases h
    · split
      · exact fun h => by cases h
      · next values hvalues =>
        split
        · exact fun h => by cases h
        · refine copyIn_inBounds fun values' hvalues' _ => ?_
          rw [hvalues, Option.some_inj] at hvalues'
          have hmod : (UInt64.ofNat values.length).toNat ≤ values.length := Nat.mod_le _ _
          rw [← hvalues', UInt64.toNat_zero, Nat.zero_add]
          exact hmod
  have hset : ∀ k, regionKind call = some k → setRegion host b m a k ret ≠ .error .outOfBounds := by
    intro k hk
    rw [setRegion]
    split
    · exact copyIn_inBounds (hfits k hk)
    · exact fun h => by cases h
  have hget : ∀ k, regionKind call = some k → ((getArrayRegion host b m a k ret).map fun m =>
      (⟨ret, b, m⟩ : Answer)) ≠ .error .outOfBounds := by
    intro k hk h
    rw [getArrayRegion] at h
    split at h
    · split at h
      · cases h
      · next values hvalues =>
        split at h
        · cases h
        · next hsum =>
          have hreal := hfits k hk values hvalues (Nat.le_of_not_lt hsum)
          rw [if_neg (Nat.not_lt.mpr hreal)] at h
          cases h
    · cases h
  cases call
  case setByteArrayRegion =>
    refine hkept ?_
    rw [setByteArrayRegion]
    split
    · exact copyIn_inBounds (hfits .byte rfl)
    · exact fun h => by cases h
  case releaseByteArrayElements | releaseIntArrayElements | releaseLongArrayElements
      | releaseFloatArrayElements => exact hkept (hrelease _)
  case setIntArrayRegion | setLongArrayRegion | setFloatArrayRegion => exact hkept (hset _ rfl)
  case getIntArrayRegion | getLongArrayRegion | getFloatArrayRegion => exact hget _ rfl
  all_goals exact fun h => by cases h

/-- The environment itself faults only where there is no memory. -/
theorem dispatch_inBounds {call : JniCall} :
    env.dispatch host.allocates a call ≠ .error .outOfBounds := by
  have harray : ∀ k length, env.makeArray host.allocates k length ≠ .error .outOfBounds := by
    intro k length
    change (if host.allocates (length.toNat * k.size) = true then _ else _) ≠ _
    split
    · exact fun h => by cases h
    · exact fun h => by cases h
  cases call
  case newByteArray | newIntArray | newLongArray | newFloatArray => exact harray _ _
  case newObjectArray =>
    change (if host.allocates ((a 1).toNat * 8) = true then _ else _) ≠ _
    split
    · exact fun h => by cases h
    · exact fun h => by cases h
  all_goals exact fun h => by cases h

/-- A call that copies a region has left the arrays alone before. -/
theorem dispatch_arrays {call : JniCall} {out : UInt64 × JniEnv} (hcall : (regionKind call).isSome)
    (h : (internCharArgs host b m a call).dispatch host.allocates a call = .ok out) :
    out.2.arrays = b.env.arrays := by
  have hchecked : ∀ k, (b.env.checkRegion a k).2.arrays = b.env.arrays := by
    intro k
    rw [JniEnv.checkRegion]
    split
    · rfl
    · split
      · rfl
      · rfl
  cases call
  case setByteArrayRegion | getIntArrayRegion | getLongArrayRegion | getFloatArrayRegion
      | setIntArrayRegion | setLongArrayRegion | setFloatArrayRegion =>
    cases h
    exact hchecked _
  all_goals cases hcall

/-- **A call is taken apart**: the arguments, the environment, the copies. -/
theorem handleHvc_cases {nr : UInt32} (h : handleHvc host b m a nr = .ok r) :
    JniCall.ofNumber nr = none ∧ r = ⟨-1, b, m⟩ ∨
      ∃ call ret env, JniCall.ofNumber nr = some call ∧
        (internCharArgs host b m a call).dispatch host.allocates a call = .ok (ret, env) ∧
          afterCall host { b with env } m a call ret = .ok r := by
  rw [handleHvc] at h
  cases hcall : JniCall.ofNumber nr with
  | none =>
    rw [hcall] at h
    cases h
    exact Or.inl ⟨rfl, rfl⟩
  | some call =>
    rw [hcall] at h
    right
    cases hdispatch : (internCharArgs host b m a call).dispatch host.allocates a call with
    | error fault =>
      simp only [hdispatch] at h
      cases h
    | ok out =>
      simp only [hdispatch] at h
      exact ⟨call, out.1, out.2, rfl, hdispatch, h⟩

end After

/-! ## What a call keeps -/

/-- What a handle is given out for is what the tables have under it. -/
def JniEnv.Denotes (env : JniEnv) (h : UInt64) : Thing → Prop
  | .cls d => env.classByDesc.lookup d = some h
  | .member kind e => (env.members kind).lookup h = some e
  | .object _ => (env.objects.lookup h).isSome

/-- The table for a thing. -/
def Thing.table : Thing → Table
  | .cls _ => .classes
  | .member kind _ => .members kind
  | .object _ => .objects

section Tables

variable {env env' : JniEnv} {h : UInt64} {t t' : Thing} {n : ℕ}

theorem JniEnv.Denotes.holds (hw : env.WellFormed) (ht : env.Denotes h t) :
    env.Holds t.table h := by
  cases t with
  | cls d =>
    show (env.descriptorOf h).isSome
    rw [(hw.named d h).mp ht]
    rfl
  | member kind e =>
    show ((env.members kind).lookup h).isSome
    rw [show (env.members kind).lookup h = some e from ht]
    rfl
  | object k => exact ht

theorem JniEnv.Denotes.grows (hw : env.WellFormed) (hg : Grows env env' n)
    (ht : env.Denotes h t) : env'.Denotes h t := by
  cases t with
  | cls d =>
    exact ((hg.wellFormed hw).named d h).mpr (hg.descriptor h d ((hw.named d h).mp ht))
  | member kind e => exact hg.member kind h e ht
  | object k => exact hg.object h ht

/-- **A class or a member is one thing**: the table tells the sort, and
what it has under the handle tells which. -/
theorem JniEnv.Denotes.unique (hw : env.WellFormed) (ht : env.Denotes h t)
    (ht' : env.Denotes h t') (hne : ∀ k, t ≠ .object k) : t' = t := by
  have htable := hw.apart _ _ h (ht'.holds hw) (ht.holds hw)
  cases t with
  | object k => exact absurd rfl (hne k)
  | cls d =>
    cases t' with
    | cls d' =>
      have hd := (hw.named d h).mp ht
      have hd' := (hw.named d' h).mp ht'
      rw [hd, Option.some_inj] at hd'
      rw [hd']
    | member kind e => cases htable
    | object k => cases htable
  | member kind e =>
    cases t' with
    | cls d => cases htable
    | object k => cases htable
    | member kind' e' =>
      cases htable
      have hsome : some e' = some e := Eq.trans (Eq.symm ht') ht
      rw [Option.some_inj.mp hsome]

end Tables

/-- The invariant. -/
structure Session.Kept (s : Session) : Prop where
  inBounds : s.ended ≠ some .outOfBounds
  tables : s.bridge.env.WellFormed
  below : ∀ x ∈ s.issues, x.handle.toNat < s.bridge.env.nextHandle.toNat
  denotes : ∀ x ∈ s.issues, s.bridge.env.Denotes x.handle x.thing
  distinct : ∀ x ∈ s.issues, ∀ y ∈ s.issues, x.handle = y.handle → x.thing = y.thing
  given : ∀ x ∈ s.created, x.handle.toNat < s.bridge.env.nextHandle.toNat
  strings : ∀ x ∈ s.created, s.bridge.env.strings.lookup x.handle = some x.text

theorem Session.Kept.sound {s : Session} (h : s.Kept) : s.Sound where
  inBounds := h.inBounds
  distinct := h.distinct
  strings := h.strings
  classes x hx d hd := by
    have hdenotes := h.denotes x hx
    rw [hd] at hdenotes
    exact (h.tables.named d x.handle).mp hdenotes
  members x hx kind e he := by
    have hdenotes := h.denotes x hx
    rw [he] at hdenotes
    exact hdenotes

/-- **What may be given out.** A new handle, for what it stands for now;
the handle of a class or a member; or one that was given out before. -/
inductive Issue.Admitted (env env' : JniEnv) (issues : List Issue) (i : Issue) : Prop
  | new (fresh : env.nextHandle.toNat ≤ i.handle.toNat)
      (given : i.handle.toNat < env'.nextHandle.toNat) (denotes : env'.Denotes i.handle i.thing)
  | named (denotes : env'.Denotes i.handle i.thing) (hne : ∀ k, i.thing ≠ .object k)
  | again (old : i ∈ issues)

section Step

variable {host : Host} {s : Session} {c : Call} {r : Answer} {call : JniCall}
variable {env env' : JniEnv} {issues : List Issue} {n : ℕ}

theorem Issue.Admitted.given {i : Issue} (h : i.Admitted env env' issues)
    (hw : env'.WellFormed) (hle : env.nextHandle.toNat ≤ env'.nextHandle.toNat)
    (hbelow : ∀ x ∈ issues, x.handle.toNat < env.nextHandle.toNat) :
    i.handle.toNat < env'.nextHandle.toNat := by
  cases h with
  | new hfresh hgiven hdenotes => exact hgiven
  | named hdenotes hne => exact hw.fresh _ _ (hdenotes.holds hw)
  | again hold => exact Nat.lt_of_lt_of_le (hbelow i hold) hle

/-- A handle that is given out stands for nothing else. -/
theorem Issue.Admitted.distinct {i x : Issue} (h : i.Admitted env env' issues)
    (hw : env'.WellFormed) (hbelow : ∀ x ∈ issues, x.handle.toNat < env.nextHandle.toNat)
    (hdenotes : ∀ x ∈ issues, env'.Denotes x.handle x.thing)
    (hold : ∀ x ∈ issues, ∀ y ∈ issues, x.handle = y.handle → x.thing = y.thing)
    (hx : x ∈ issues) (heq : x.handle = i.handle) : x.thing = i.thing := by
  cases h with
  | new hfresh hgiven hi =>
    have hlt := hbelow x hx
    rw [heq] at hlt
    omega
  | named hi hne =>
    have hx' := hdenotes x hx
    rw [heq] at hx'
    exact hi.unique hw hx' hne
  | again hi => exact hold x hx i hi heq

/-- The tables and the counter are the same after the arguments are
read. -/
theorem withStrings_wellFormed {strings : AList fun _ : UInt64 => Bytes} (hw : env.WellFormed) :
    ({ env with strings } : JniEnv).WellFormed where
  named := hw.named
  fresh t h hh := hw.fresh t h (by cases t <;> exact hh)
  apart t t' h hh hh' := hw.apart t t' h (by cases t <;> exact hh) (by cases t' <;> exact hh')

theorem withStrings_denotes {strings : AList fun _ : UInt64 => Bytes} {h : UInt64} {t : Thing}
    (ht : env.Denotes h t) : ({ env with strings } : JniEnv).Denotes h t := by
  cases t <;> exact ht

/-- An object that a call makes is new. -/
theorem News.admitted {out : UInt64 × JniEnv} {k : ℕ} (h : News env out n)
    (hg : Grows out.2 env' 0) : Issue.Admitted env env' issues ⟨out.1, .object k⟩ :=
  .new h.fresh (Nat.lt_of_lt_of_le h.given hg.le) (hg.object _ h.object)

/-- What goes out is what the environment returned, for every call that
gives out a handle. -/
theorem afterCall_value {b : JniBridge} {m : Memory} {a : Registers} {ret : UInt64} {i : Issue}
    (h : afterCall host b m a call ret = .ok r) (hi : issued host s c r call = some i) :
    r.value = ret := by
  cases call
  case findClass | getMethodId | getFieldId | newStringUtf | newByteArray | newIntArray
      | newLongArray | newFloatArray | newObjectArray | newDirectByteBuffer | callObjectMethod
      | exceptionOccurred | newGlobalRef | newLocalRef =>
    cases h
    rfl
  all_goals cases hi

theorem getMemberId_admitted {a : Registers} {kind : MemberKind} {ret : UInt64} {env₁ : JniEnv}
    (hroom : env.nextHandle.toNat + 2 < 2 ^ 64) (hw : env.WellFormed)
    (hid : env.getMemberId a kind = (ret, env₁)) (hg : Grows env₁ env' 0)
    (hsome : ¬(ret = 0 ∧ (env.classes.lookup (a 1)).isNone)) :
    Issue.Admitted env env' issues
      ⟨ret, .member kind ⟨a 1, env.resolved (a 2), env.resolved (a 3)⟩⟩ := by
  have hclass : (env.classes.lookup (a 1)).isSome := by
    cases hlookup : env.classes.lookup (a 1) with
    | some cls => rfl
    | none =>
      rw [JniEnv.getMemberId, hlookup] at hid
      cases hid
      exact absurd ⟨rfl, by rw [hlookup]; rfl⟩ hsome
  have hfound := (getMemberId_grows a kind (by omega) hw).2 hclass
  rw [hid] at hfound
  refine .named (hg.member kind ret _ hfound) fun k h => ?_
  cases h

theorem jniFindClass_admitted {a : Registers} {ret : UInt64} {env₁ : JniEnv}
    (hroom : env.nextHandle.toNat + 2 < 2 ^ 64) (hw : env.WellFormed)
    (hid : env.jniFindClass a = (ret, env₁)) (hg : Grows env₁ env' 0)
    (hsome : ret = 0 → (env.strings.lookup (a 1)).isSome) :
    Issue.Admitted env env' issues ⟨ret, .cls (env.resolved (a 1))⟩ := by
  have hstring : (env.strings.lookup (a 1)).isSome := by
    cases hlookup : env.strings.lookup (a 1) with
    | some text => rfl
    | none =>
      rw [JniEnv.jniFindClass, hlookup] at hid
      cases hid
      rw [← hlookup]
      exact hsome rfl
  obtain ⟨hgrows, hfound⟩ := jniFindClass_grows (a := a) (by omega) hw
  have hfound := hfound hstring
  rw [hid] at hgrows hfound
  have hw₁ := hgrows.wellFormed hw
  have hdenotes : env₁.Denotes ret (.cls (env.resolved (a 1))) := hfound
  refine .named (hdenotes.grows hw₁ hg) fun k h => ?_
  cases h

/-- **Each call gives out what may be given out.** -/
theorem issued_admitted {ret : UInt64} {env₀ : JniEnv} (hhost : host.Documented)
    (hclean : c.Clean s) (hcall : JniCall.ofNumber c.nr = some call)
    (hargs : internCharArgs host s.bridge c.memory c.regs call = env₀)
    (hroom : env₀.nextHandle.toNat + 2 < 2 ^ 64) (hw : env₀.WellFormed)
    (hdispatch : env₀.dispatch host.allocates c.regs call = .ok (ret, env))
    (hgrows : Grows env env' 0) (hvalue : r.value = ret) {i : Issue}
    (hi : issued host s c r call = some i) : i.Admitted env₀ env' s.issues := by
  have hptrs : c.charArgs = charArgs c.regs call := by rw [Call.charArgs, hcall]; rfl
  -- what a pointer argument designates is what has been read for it
  have htext : ∀ p ∈ charArgs c.regs call, designated env₀ c.memory p = env₀.resolved p := by
    intro p hp
    rw [← hargs]
    exact designated_eq hhost hp (hclean.short p (hptrs ▸ hp))
  obtain ⟨strings, hstaged, -, hread⟩ :=
    foldl_internCharArg host c.memory (charArgs c.regs call) s.bridge.env
  have henv₀ : env₀ = { s.bridge.env with strings } := hargs.symm.trans hstaged
  have hmember : ∀ kind i, charArgs c.regs call = [c.regs 2, c.regs 3] →
      env₀.getMemberId c.regs kind = (ret, env) →
      (if r.value = 0 ∧ (s.bridge.env.classes.lookup (c.regs 1)).isNone then none
        else some (⟨r.value, .member kind ⟨c.regs 1, designated env₀ c.memory (c.regs 2),
          designated env₀ c.memory (c.regs 3)⟩⟩ : Issue)) = some i →
      i.Admitted env₀ env' s.issues := by
    intro kind i hlist hid hi
    rw [hvalue, htext _ (by simp [hlist]), htext _ (by simp [hlist])] at hi
    split at hi
    · cases hi
    · next hsome =>
      cases hi
      refine getMemberId_admitted hroom hw hid hgrows ?_
      rw [henv₀]
      exact hsome
  cases call
  case findClass =>
    replace hi : (if r.value = 0 ∧ c.memory.textAt (c.regs 1) = none then none
      else some (⟨r.value, .cls (designated (internCharArgs host s.bridge c.memory c.regs
        .findClass) c.memory (c.regs 1))⟩ : Issue)) = some i := hi
    rw [hargs, hvalue, htext _ (by simp [charArgs])] at hi
    split at hi
    · cases hi
    · next hsome =>
      cases hi
      refine jniFindClass_admitted hroom hw (Except.ok.inj hdispatch) hgrows fun hzero => ?_
      obtain ⟨text, htextAt⟩ := Option.ne_none_iff_exists'.mp fun h => hsome ⟨hzero, h⟩
      rw [henv₀]
      show (strings.lookup (c.regs 1)).isSome
      rw [hread _ (by simp [charArgs]) (Memory.textAt_eq_some_iff.mp htextAt).notNull]
      rfl
  case getMethodId =>
    refine hmember .method i rfl (Except.ok.inj hdispatch) ?_
    rw [← hargs]
    exact hi
  case getFieldId =>
    refine hmember .field i rfl (Except.ok.inj hdispatch) ?_
    rw [← hargs]
    exact hi
  case newStringUtf =>
    have hout := Except.ok.inj hdispatch
    have hnews := (jniNewStringUtf_news c.regs [] hroom hw).1
    cases hi
    rw [hvalue]
    rw [show env₀.jniNewStringUtf c.regs = (ret, env) from hout] at hnews
    exact hnews.admitted hgrows
  case newByteArray | newIntArray | newLongArray | newFloatArray =>
    cases hi
    rw [hvalue]
    exact (makeArray_news hroom hw hdispatch).admitted hgrows
  case newObjectArray =>
    cases hi
    rw [hvalue]
    exact (makeObjectArray_news hroom hw hdispatch).admitted hgrows
  case newDirectByteBuffer =>
    have hnews := makeDirectBuffer_news (c.regs 1) (c.regs 2) hroom hw
    rw [show env₀.makeDirectBuffer (c.regs 1) (c.regs 2) = (ret, env) from
      Except.ok.inj hdispatch] at hnews
    cases hi
    rw [hvalue]
    exact hnews.admitted hgrows
  case callObjectMethod =>
    replace hi : (if r.value = 0 then none else some (⟨r.value, .object s.calls⟩ : Issue)) =
      some i := hi
    rw [hvalue] at hi
    split at hi
    · cases hi
    · next hne =>
      cases hi
      have hnews := (jniCallObjectMethod_grows (a := c.regs) hroom hw).2
      rw [show env₀.jniCallObjectMethod c.regs = (ret, env) from Except.ok.inj hdispatch] at hnews
      exact (hnews hne).admitted hgrows
  case exceptionOccurred =>
    replace hi : (if r.value = 0 then none else some (⟨r.value, .object s.calls⟩ : Issue)) =
      some i := hi
    rw [hvalue] at hi
    split at hi
    · cases hi
    · next hne =>
      cases hi
      have hnews := (jniExceptionOccurred_grows hroom hw).2
      rw [show env₀.jniExceptionOccurred = (ret, env) from Except.ok.inj hdispatch] at hnews
      exact (hnews hne).admitted hgrows
  case newGlobalRef | newLocalRef => exact .again (List.mem_of_find?_eq_some hi)
  all_goals cases hi

/-- Where no sum wraps, no access is outside an array. -/
theorem handleHvc_inBounds (hclean : c.Clean s) :
    handleHvc host s.bridge c.memory c.regs c.nr ≠ .error .outOfBounds := by
  rw [handleHvc]
  cases hcall : JniCall.ofNumber c.nr with
  | none => exact fun h => by cases h
  | some call =>
    dsimp only
    cases hdispatch : (internCharArgs host s.bridge c.memory c.regs call).dispatch host.allocates
        c.regs call with
    | error fault =>
      intro h
      cases h
      exact dispatch_inBounds hdispatch
    | ok out =>
      refine afterCall_inBounds fun kind hkind values hvalues => ?_
      rw [dispatch_arrays (by rw [hkind]; rfl) hdispatch] at hvalues
      exact hclean.region kind (by rw [hcall]; exact hkind) values hvalues

/-- **A clean call keeps the invariant.** -/
theorem Session.Kept.step (hhost : host.Documented) (hs : s.Kept) (hclean : c.Clean s) :
    (Session.step host s c).Kept := by
  rw [Session.step]
  by_cases hended : s.ended.isSome
  · rw [if_pos hended]
    exact hs
  rw [if_neg hended]
  cases hanswer : handleHvc host s.bridge c.memory c.regs c.nr with
  | error fault =>
    refine { hs with inBounds := fun h => ?_ }
    rw [Option.some_inj.mp h] at hanswer
    exact handleHvc_inBounds hclean hanswer
  | ok r =>
    rcases handleHvc_cases hanswer with ⟨hnone, rfl⟩ | ⟨call, ret, env, hcall, hdispatch, hafter⟩
    · rw [hnone]
      exact ⟨hs.inBounds, hs.tables, hs.below, hs.denotes, hs.distinct, hs.given, hs.strings⟩
    rw [hcall]
    obtain ⟨strings, hstaged, hkeep, hread⟩ :=
      foldl_internCharArg host c.memory (charArgs c.regs call) s.bridge.env
    have hptrs : c.charArgs = charArgs c.regs call := by rw [Call.charArgs, hcall]; rfl
    have hargs : internCharArgs host s.bridge c.memory c.regs call =
        { s.bridge.env with strings } := hstaged
    set env₀ : JniEnv := { s.bridge.env with strings } with henv₀
    have hw₀ : env₀.WellFormed := withStrings_wellFormed hs.tables
    have hroom : env₀.nextHandle.toNat + 2 < 2 ^ 64 := hclean.room
    rw [hargs] at hdispatch
    have hgrows := dispatch_grows hroom hw₀ hdispatch
    have hgrows' : Grows env r.bridge.env 0 := afterCall_grows hafter
    have hall := hgrows.trans hgrows'
    have hw := hall.wellFormed hw₀
    have hdenotes : ∀ x ∈ s.issues, r.bridge.env.Denotes x.handle x.thing := fun x hx =>
      (withStrings_denotes (hs.denotes x hx) : env₀.Denotes x.handle x.thing).grows hw₀ hall
    have hadmitted : ∀ x ∈ ((some call).bind (issued host s c r)).toList,
        x.Admitted env₀ r.bridge.env s.issues := by
      intro x hx
      have hissued : issued host s c r call = some x := Option.mem_toList.mp hx
      exact issued_admitted hhost hclean hcall hargs hroom hw₀ hdispatch hgrows'
        (afterCall_value hafter hissued) hissued
    have hcreated : ∀ x ∈ ((some call).bind (createdBy c r)).toList,
        x.handle.toNat < r.bridge.env.nextHandle.toNat ∧
          r.bridge.env.strings.lookup x.handle = some x.text := by
      intro x hx
      have hx : createdBy c r call = some x := Option.mem_toList.mp hx
      cases call
      case newStringUtf =>
        obtain ⟨text, htext, rfl⟩ := Option.map_eq_some_iff.mp hx
        have haddr := Memory.textAt_eq_some_iff.mp htext
        have hlen : text.length ≤ 511 :=
          hclean.short _ (by rw [hptrs]; exact List.mem_singleton_self _) text htext
        have hstring : env₀.strings.lookup (c.regs 1) = some text := by
          show strings.lookup (c.regs 1) = some text
          rw [hread _ (List.mem_singleton_self _) haddr.notNull, readStr,
            hhost.readStr _ _ _ 512 haddr (by omega), List.take_of_length_le hlen]
        obtain ⟨hnews, hvalue⟩ := jniNewStringUtf_news c.regs text hroom hw₀
        have hvalue := hvalue hstring
        rw [show env₀.jniNewStringUtf c.regs = (ret, env) from Except.ok.inj hdispatch]
          at hnews hvalue
        cases hafter
        exact ⟨hnews.given, hvalue⟩
      all_goals cases hx
    refine
      { inBounds := hs.inBounds
        tables := hw
        below := fun x hx => ?_
        denotes := fun x hx => ?_
        distinct := fun x hx y hy heq => ?_
        given := fun x hx => ?_
        strings := fun x hx => ?_ }
    · rcases List.mem_append.mp hx with hnew | hold
      · exact (hadmitted x hnew).given hw hall.le hs.below
      · exact Nat.lt_of_lt_of_le (hs.below x hold) hall.le
    · rcases List.mem_append.mp hx with hnew | hold
      · cases hadmitted x hnew with
        | new hfresh hgiven hd => exact hd
        | named hd hne => exact hd
        | again hold => exact hdenotes x hold
      · exact hdenotes x hold
    · rcases List.mem_append.mp hx with hnew | hold
      · rcases List.mem_append.mp hy with hnew' | hold'
        · rw [Option.mem_toList.mp hnew] at hnew'
          rw [Option.some_inj.mp (Option.mem_toList.mp hnew')]
        · exact ((hadmitted x hnew).distinct hw hs.below hdenotes hs.distinct hold' heq.symm).symm
      · rcases List.mem_append.mp hy with hnew' | hold'
        · exact (hadmitted y hnew').distinct hw hs.below hdenotes hs.distinct hold heq
        · exact hs.distinct x hold y hold' heq
    · rcases List.mem_append.mp hx with hnew | hold
      · exact (hcreated x hnew).1
      · exact Nat.lt_of_lt_of_le (hs.given x hold) hall.le
    · rcases List.mem_append.mp hx with hnew | hold
      · exact (hcreated x hnew).2
      · -- the string is under none of the addresses that were read
        have hnot : x.handle ∉ charArgs c.regs call := fun hin =>
          hclean.apart x.handle (hptrs ▸ hin) x hold rfl
        have hstays : env₀.strings.lookup x.handle = some x.text :=
          (hkeep x.handle hnot).trans (hs.strings x hold)
        exact hall.string x.handle x.text (hs.given x hold) hstays

end Step

/-! ## Sessions that are sound -/

/-- The environment as the runner sets it up: the app's context, and the
object of its activity. -/
def JniEnv.start (packageName packageCodePath : Bytes) : JniEnv :=
  ((({} : JniEnv).setAppContext packageName packageCodePath).registerObject
    (ascii "android/app/NativeActivity")).2

/-- What a session starts from. -/
structure Setup where
  packageName : Bytes
  packageCodePath : Bytes
  elfLoadMin : UInt64
  stubBaseGpa : UInt64

def Session.start (setup : Setup) : Session where
  bridge :=
    { env := JniEnv.start setup.packageName setup.packageCodePath
      elfLoadMin := setup.elfLoadMin
      stubBaseGpa := setup.stubBaseGpa }

theorem Session.kept_start (setup : Setup) : (Session.start setup).Kept := by
  have hempty : (({} : JniEnv).setAppContext setup.packageName
      setup.packageCodePath).WellFormed := by
    refine ⟨fun d h => ?_, fun t h hh => ?_, fun t t' h hh _ => ?_⟩
    · constructor
      · exact fun hh => by cases hh
      · exact fun hh => by cases hh
    · cases t <;> cases hh
    · cases t <;> cases hh
  have hstart : (Session.start setup).bridge.env.WellFormed :=
    (registerObject_news (ascii "android/app/NativeActivity")
      (show (0x70000001 : UInt64).toNat + 2 < 2 ^ 64 by decide) hempty).grows.wellFormed hempty
  exact
    { inBounds := fun h => by cases h
      tables := hstart
      below := fun x hx => absurd hx List.not_mem_nil
      denotes := fun x hx => absurd hx List.not_mem_nil
      distinct := fun x hx => absurd hx List.not_mem_nil
      given := fun x hx => absurd hx List.not_mem_nil
      strings := fun x hx => absurd hx List.not_mem_nil }

/-- **Handles and strings are sound in every session of clean calls**,
after each of them. -/
theorem jni_sound {host : Host} (hhost : host.Documented) {setup : Setup} {calls : List Call}
    (hclean : Machine.Meets (Session.step host) (fun s c => c.Clean s) (Session.start setup)
      calls) :
    Machine.Throughout (Session.step host) Session.Sound (Session.start setup) calls :=
  (Machine.throughout_of_invariant (fun _ _ hs hc => hs.step hhost hc) (Session.kept_start setup)
    hclean).mono fun _ h => h.sound

/-- `NewStringUTF` and `FindClass`, of a C string at an address. -/
def callWith (nr : UInt32) (p : UInt64) (text : Bytes)
    (h : p.toNat + (text ++ [0]).length ≤ 2 ^ 64) : Call where
  nr
  regs := fun i => if i = 1 then p else 0
  memory := Memory.ofBytes p.toNat (text ++ [0]) h

def plainSetup : Setup where
  packageName := ascii "org.example"
  packageCodePath := []
  elfLoadMin := 0
  stubBaseGpa := 0x70000000

theorem jni_sound_hello :
    Machine.Throughout (Session.step plainHost) Session.Sound (Session.start plainSetup)
      [callWith 0x1006 4096 (ascii "hello") (by decide)] := by
  refine jni_sound plainHost_documented ⟨⟨by decide, ?_, ?_, ?_⟩, trivial⟩
  · intro p hp text htext
    have hp : p = 4096 := List.mem_singleton.mp hp
    have hread : (callWith 0x1006 4096 (ascii "hello") (by decide)).memory.textAt 4096 =
        some (ascii "hello") := by decide +kernel
    rw [hp, hread, Option.some_inj] at htext
    rw [← htext]
    decide
  · exact fun p hp x hx => absurd hx List.not_mem_nil
  · exact fun kind hkind => by cases hkind

/-- A string is made of `"a"` and has the handle 0x70000003. Then a class
is looked up by a name that the guest has at this address. -/
def overlap : List Call :=
  [callWith 0x1006 4096 (ascii "a") (by decide),
    callWith 0x1001 0x70000003 (ascii "b") (by decide)]

/-- The string has become `"b"`. -/
theorem string_is_overwritten :
    ¬∀ host : Host, host.Documented → ∀ (setup : Setup) (calls : List Call),
      Machine.Throughout (Session.step host) Session.Sound (Session.start setup) calls := by
  intro h
  have hsound := (h plainHost plainHost_documented plainSetup overlap).last
  have hcreated : (Machine.run (Session.step plainHost) (Session.start plainSetup)
      overlap).created.map (fun x => (x.handle, x.text)) = [(0x70000003, ascii "a")] := by
    decide +kernel
  have hnow : (Machine.run (Session.step plainHost) (Session.start plainSetup)
      overlap).bridge.env.strings.lookup 0x70000003 = some (ascii "b") := by
    decide +kernel
  obtain ⟨x, hx, hpair⟩ := List.mem_map.mp
    (hcreated ▸ List.mem_singleton_self _ : ((0x70000003 : UInt64), ascii "a") ∈
      (Machine.run (Session.step plainHost) (Session.start plainSetup)
        overlap).created.map fun x => (x.handle, x.text))
  have hkept := hsound.strings x hx
  rw [(Prod.mk.inj hpair).1, (Prod.mk.inj hpair).2, hnow] at hkept
  exact absurd hkept (by decide)

end Jni

end Muplar
