import Muplar.Android.Binder
/-!
# The Android runtime — whole transactions

`AIBinder_transact` from its call to its return, with the two slots of the
guest it is given the addresses of: the one that holds the handle of the
input and the one the handle of the reply goes to. In between a local
binder's `on_transact` may run, and may do anything: call into the runtime,
and store what it likes in the slots.

The call is to take the input with it whatever it returns, and to leave 0 or
its reply in the other slot. One of its exits takes nothing.
-/

namespace Muplar

namespace Android

/-! ## The call -/

/-- The table, and the guest's variables that hold handles, by address. Two
of them are apart or the same. -/
structure GuestWorld where
  binders : Binders
  slots : UInt64 → ℕ

/-- The arguments of `AIBinder_transact`. -/
structure TransactArgs where
  binder : ℕ
  code : UInt32
  inGpa : UInt64
  outGpa : UInt64
  flags : UInt32

/-- What `on_transact` is called with. -/
structure Invocation where
  onTransact : ℕ
  binder : ℕ
  code : UInt32
  input : ℕ
  reply : ℕ

/-- A guest function: what it leaves, and the status it returns. -/
abbrev GuestFunction :=
  Invocation → GuestWorld → GuestWorld × ℕ

namespace TransactArgs

variable (t : TransactArgs) (w : GuestWorld)

/-- There is a place for a reply and `FLAG_ONEWAY` is not set. -/
def wantsReply : Bool :=
  t.flags &&& 1 = 0 && t.outGpa ≠ 0

/-- `in_handle`. -/
def inHandle : ℕ :=
  if t.inGpa = 0 then 0 else w.slots t.inGpa

/-- The input, if there is one. -/
def input : Option BinderParcel :=
  if t.inHandle w = 0 then none else w.binders.parcels (t.inHandle w)

end TransactArgs

namespace GuestWorld

variable (w : GuestWorld) (t : TransactArgs)

/-- `guest_write_u64` to a slot, where the guest gave one. -/
def writeSlot (gpa : UInt64) (handle : ℕ) : GuestWorld :=
  if gpa = 0 then w else { w with slots := Function.update w.slots gpa handle }

/-- `consume_input`. -/
def consumeInput (inHandle : ℕ) (inGpa : UInt64) : GuestWorld :=
  if inHandle = 0 then w
  else { w with binders := w.binders.setParcel inHandle none }.writeSlot inGpa 0

/-- `in->cursor` is set, where there is an input. -/
def setCursor (cursor : ℕ) : GuestWorld :=
  match t.input w with
  | none => w
  | some p => { w with binders := w.binders.setParcel (t.inHandle w) (some { p with cursor }) }

/-- `create_parcel` for the reply, and its handle is written out. -/
def createReply (values : List BinderParcelValue) : GuestWorld :=
  { w with
    binders := w.binders.createParcel
      { targetBinder := t.binder, transactionCode := t.code, reply := true, values } }.writeSlot
    t.outGpa w.binders.nextBinderParcelHandle

/-- The runtime as `on_transact` finds it, if there is an input token that
fits the class or none is asked for. -/
def called (clazz : BinderClass) : GuestWorld :=
  let read := w.setCursor t (if clazz.interfaceTokenHeader then 1 else 0)
  if t.wantsReply then read.createReply t [] else read.writeSlot t.outGpa 0

def invocation (clazz : BinderClass) : Invocation where
  onTransact := clazz.onTransact
  binder := t.binder
  code := t.code
  input := t.inHandle w
  reply := if t.wantsReply then w.binders.nextBinderParcelHandle else 0

/-- `binder_parcels_[out_handle].cursor = 0`; a parcel that is not there
any more is made again. -/
def rewindReply (reply : ℕ) : GuestWorld :=
  if reply = 0 then w
  else { w with
    binders := w.binders.setParcel reply
      (some { (w.binders.parcels reply).getD {} with cursor := 0 }) }

variable (function : GuestFunction)

def transactLocal (clazz : BinderClass) : GuestWorld × ℕ :=
  if clazz.accepts (t.input w) = false then
    (((w.setCursor t 0).consumeInput (t.inHandle w) t.inGpa).writeSlot t.outGpa 0, statusBadType)
  else
    let (after, status) := function (w.invocation t clazz) (w.called t clazz)
    ((after.rewindReply (w.invocation t clazz).reply).consumeInput (t.inHandle w) t.inGpa, status)

/-- A transaction that the daemon was asked to do. -/
def transactDaemon (daemon : Option Bytes) : GuestWorld × ℕ :=
  match daemon with
  | none =>
    (({ w with binders := w.binders.modify t.binder fun s => { s with alive := false } }.consumeInput
      (t.inHandle w) t.inGpa).writeSlot t.outGpa 0, statusDeadObject)
  | some payload =>
    if t.wantsReply then
      match decodeParcel payload with
      | .error _ =>
        ((w.consumeInput (t.inHandle w) t.inGpa).writeSlot t.outGpa 0, statusBadValue)
      | .ok values =>
        ((w.createReply t
          ({ kind := .status } :: values.filter (·.kind ≠ .interfaceToken))).consumeInput
            (t.inHandle w) t.inGpa, statusOk)
    else ((w.writeSlot t.outGpa 0).consumeInput (t.inHandle w) t.inGpa, statusOk)

/-- A transaction with a service that nobody provides. -/
def transactEcho : GuestWorld × ℕ :=
  ((if t.wantsReply then
      w.createReply t
        [{ kind := .status }, { kind := .int32, value := echoValue (t.input w) t.code }]
    else w.writeSlot t.outGpa 0).consumeInput (t.inHandle w) t.inGpa, statusOk)

/-- `AIBinder_transact`. `invoker` is whether the runtime can call guest
functions, `daemon` the reply of the daemon if the request is delivered. -/
def transact (invoker : Bool) (daemon : Option Bytes) : GuestWorld × ℕ :=
  match w.binders.services t.binder with
  | none => (w, statusBadValue)
  | some service =>
    if t.inHandle w ≠ 0 && (w.binders.parcels (t.inHandle w)).isNone then (w, statusBadValue)
    else if !service.alive then
      ((w.consumeInput (t.inHandle w) t.inGpa).writeSlot t.outGpa 0, statusDeadObject)
    else if !service.remote && service.classHandle ≠ 0 && invoker then
      match w.binders.classes service.classHandle with
      | none => (w, statusInvalidOperation)
      | some clazz =>
        if clazz.onTransact = 0 then (w, statusInvalidOperation)
        else w.transactLocal t function clazz
    else if service.daemonOwned then w.transactDaemon t daemon
    else w.transactEcho t

end GuestWorld

/-! ## What is to be shown -/

/-- **The call owns its input**: it is in the table no more and the slot it
was in holds 0; and the slot for the reply holds 0 or the handle of a reply
that this call made and that is in the table. -/
structure TransactArgs.Owns (t : TransactArgs) (w after : GuestWorld) : Prop where
  removed : after.binders.parcels (t.inHandle w) = none
  zeroed : after.slots t.inGpa = 0
  reply : t.outGpa ≠ 0 → after.slots t.outGpa = 0 ∨ t.wantsReply = true ∧
    after.slots t.outGpa = w.binders.nextBinderParcelHandle ∧
    (after.binders.parcels w.binders.nextBinderParcelHandle).isSome

/-- The binder is local, alive and of a class, and the runtime can call it. -/
structure TransactArgs.Local (t : TransactArgs) (w : GuestWorld) (invoker : Bool)
    (s : BinderService) : Prop where
  found : w.binders.services t.binder = some s
  alive : s.alive = true
  home : s.remote = false
  classed : s.classHandle ≠ 0
  invoker : invoker = true

/-- The class is there and has an `on_transact`. -/
def TransactArgs.Answers (t : TransactArgs) (w : GuestWorld) (invoker : Bool) : Prop :=
  ∀ s, t.Local w invoker s → ∃ clazz, w.binders.classes s.classHandle = some clazz ∧
    clazz.onTransact ≠ 0

/-- If `on_transact` is called, it leaves the handle of the reply, or 0, in
the guest's slot for it. A slot that is the input's too is zeroed after it. -/
def TransactArgs.Leaves (t : TransactArgs) (w : GuestWorld) (invoker : Bool)
    (function : GuestFunction) : Prop :=
  ∀ s clazz, t.Local w invoker s → w.binders.classes s.classHandle = some clazz →
    clazz.onTransact ≠ 0 → clazz.accepts (t.input w) = true → t.outGpa ≠ 0 → t.outGpa ≠ t.inGpa →
    (function (w.invocation t clazz) (w.called t clazz)).1.slots t.outGpa = 0 ∨
      t.wantsReply = true ∧ (function (w.invocation t clazz) (w.called t clazz)).1.slots t.outGpa =
        w.binders.nextBinderParcelHandle

/-! ## The slots -/

section Slots

variable (w : GuestWorld) (t : TransactArgs)

theorem binders_writeSlot (gpa : UInt64) (handle : ℕ) :
    (w.writeSlot gpa handle).binders = w.binders := by
  unfold GuestWorld.writeSlot
  split <;> rfl

theorem slots_writeSlot_self {gpa : UInt64} (h : gpa ≠ 0) (handle : ℕ) :
    (w.writeSlot gpa handle).slots gpa = handle := by
  rw [GuestWorld.writeSlot, if_neg h]
  exact Function.update_self ..

theorem consumeInput_eq {inHandle : ℕ} {inGpa : UInt64} (hhandle : inHandle ≠ 0)
    (hgpa : inGpa ≠ 0) :
    w.consumeInput inHandle inGpa =
      { binders := w.binders.setParcel inHandle none, slots := Function.update w.slots inGpa 0 } := by
  rw [GuestWorld.consumeInput, if_neg hhandle, GuestWorld.writeSlot, if_neg hgpa]

/-- In which order two slots are zeroed does not show. -/
theorem writeSlot_consumeInput (inHandle : ℕ) (inGpa outGpa : UInt64) :
    (w.consumeInput inHandle inGpa).writeSlot outGpa 0 =
      (w.writeSlot outGpa 0).consumeInput inHandle inGpa := by
  unfold GuestWorld.consumeInput GuestWorld.writeSlot
  by_cases hhandle : inHandle = 0 <;> by_cases hin : inGpa = 0 <;> by_cases hout : outGpa = 0
  all_goals simp only [hhandle, hin, hout, if_true, if_false]
  congr 1
  rcases eq_or_ne outGpa inGpa with rfl | hne
  · rfl
  · exact (Function.update_comm hne 0 0 w.slots).symm

/-- What is consumed last is owned if the slot for the reply is right. -/
theorem owns_consumeInput {after : GuestWorld} (hgpa : t.inGpa ≠ 0) (hhandle : t.inHandle w ≠ 0)
    (hnew : t.inHandle w ≠ w.binders.nextBinderParcelHandle) :
    t.Owns w (after.consumeInput (t.inHandle w) t.inGpa) ↔
      (t.outGpa ≠ 0 → t.outGpa ≠ t.inGpa → after.slots t.outGpa = 0 ∨ t.wantsReply = true ∧
        after.slots t.outGpa = w.binders.nextBinderParcelHandle ∧
        (after.binders.parcels w.binders.nextBinderParcelHandle).isSome) := by
  rw [consumeInput_eq _ hhandle hgpa]
  have hslot : t.outGpa ≠ t.inGpa →
      Function.update after.slots t.inGpa 0 t.outGpa = after.slots t.outGpa :=
    fun hne => Function.update_of_ne hne ..
  have hparcel : (after.binders.setParcel (t.inHandle w) none).parcels
      w.binders.nextBinderParcelHandle = after.binders.parcels w.binders.nextBinderParcelHandle :=
    Function.update_of_ne hnew.symm ..
  constructor
  · intro howns hout hne
    have hreply := howns.reply hout
    dsimp only at hreply
    rwa [hslot hne, hparcel] at hreply
  · intro hreply
    refine ⟨Function.update_self .., Function.update_self .., fun hout => ?_⟩
    dsimp only
    rcases eq_or_ne t.outGpa t.inGpa with heq | hne
    · exact .inl (heq ▸ Function.update_self ..)
    · rw [hslot hne, hparcel]
      exact hreply hout hne

end Slots

/-! ## The exits -/

section Exits

variable {w : GuestWorld} {t : TransactArgs} {invoker : Bool} {daemon : Option Bytes}
  {function : GuestFunction}

/-- The input is one the guest holds: its slot has the handle of a parcel,
which is not the next one to be given out. -/
structure TransactArgs.Given (t : TransactArgs) (w : GuestWorld) : Prop where
  gpa : t.inGpa ≠ 0
  handle : t.inHandle w ≠ 0
  known : (w.binders.parcels (t.inHandle w)).isSome
  old : t.inHandle w ≠ w.binders.nextBinderParcelHandle

/-- The exits that leave no reply. -/
theorem owns_refused {after : GuestWorld} (h : t.Given w) :
    t.Owns w ((after.consumeInput (t.inHandle w) t.inGpa).writeSlot t.outGpa 0) := by
  rw [writeSlot_consumeInput, owns_consumeInput w t h.gpa h.handle h.old]
  exact fun hout _ => .inl (slots_writeSlot_self _ hout 0)

theorem owns_quiet {after : GuestWorld} (h : t.Given w) :
    t.Owns w ((after.writeSlot t.outGpa 0).consumeInput (t.inHandle w) t.inGpa) := by
  rw [← writeSlot_consumeInput]
  exact owns_refused h

/-- The exits with a reply of the runtime's own. -/
theorem owns_replied (h : t.Given w) (hwants : t.wantsReply = true)
    (values : List BinderParcelValue) :
    t.Owns w ((w.createReply t values).consumeInput (t.inHandle w) t.inGpa) := by
  rw [owns_consumeInput w t h.gpa h.handle h.old]
  refine fun hout _ => .inr ⟨hwants, slots_writeSlot_self _ hout _, ?_⟩
  rw [GuestWorld.createReply, binders_writeSlot]
  have hparcel : ∀ parcel, ((w.binders.createParcel parcel).parcels
      w.binders.nextBinderParcelHandle) = some parcel := fun _ => Function.update_self ..
  rw [hparcel]
  rfl

theorem owns_daemon (h : t.Given w) : t.Owns w (w.transactDaemon t daemon).1 := by
  cases daemon with
  | none => exact owns_refused h
  | some payload =>
    rw [GuestWorld.transactDaemon]
    split
    · next hwants =>
      split
      · exact owns_refused h
      · exact owns_replied h hwants _
    · exact owns_quiet h

theorem owns_echo (h : t.Given w) : t.Owns w (w.transactEcho t).1 := by
  unfold GuestWorld.transactEcho
  split
  · next hwants => exact owns_replied h hwants _
  · exact owns_quiet h

/-- After `on_transact` everything is as it must be but the slot for the
reply, which is as the guest left it. -/
theorem owns_local_iff (h : t.Given w) (hnext : w.binders.nextBinderParcelHandle ≠ 0)
    {clazz : BinderClass} (haccepts : clazz.accepts (t.input w) = true) :
    t.Owns w (w.transactLocal t function clazz).1 ↔
      (t.outGpa ≠ 0 → t.outGpa ≠ t.inGpa →
        (function (w.invocation t clazz) (w.called t clazz)).1.slots t.outGpa = 0 ∨
          t.wantsReply = true ∧
            (function (w.invocation t clazz) (w.called t clazz)).1.slots t.outGpa =
              w.binders.nextBinderParcelHandle) := by
  have hyes : ¬ clazz.accepts (t.input w) = false := by rw [haccepts]; decide
  rw [GuestWorld.transactLocal, if_neg hyes]
  dsimp only
  rw [owns_consumeInput w t h.gpa h.handle h.old]
  generalize (function (w.invocation t clazz) (w.called t clazz)).1 = after
  have hslots : (after.rewindReply (w.invocation t clazz).reply).slots = after.slots := by
    unfold GuestWorld.rewindReply
    split <;> rfl
  -- a reply that was asked for is there whatever the guest did to it
  have hlive : t.wantsReply = true → ((after.rewindReply
      (w.invocation t clazz).reply).binders.parcels w.binders.nextBinderParcelHandle).isSome := by
    intro hwants
    have hreply : (w.invocation t clazz).reply = w.binders.nextBinderParcelHandle := if_pos hwants
    have hparcel : ∀ (b : Binders) (parcel : Option BinderParcel),
        (b.setParcel w.binders.nextBinderParcelHandle parcel).parcels
          w.binders.nextBinderParcelHandle = parcel := fun _ _ => Function.update_self ..
    rw [hreply, GuestWorld.rewindReply, if_neg hnext, hparcel]
    rfl
  rw [hslots]
  constructor
  · exact fun hreply hout hne => (hreply hout hne).imp_right fun hr => ⟨hr.1, hr.2.1⟩
  · exact fun hreply hout hne => (hreply hout hne).imp_right fun hr => ⟨hr.1, hr.2, hlive hr.1⟩

/-- The exit of a local binder whose class is gone, or has no
`on_transact`, leaves the input where it is. -/
theorem not_owns_of_declined (h : t.Given w) {s : BinderService} (hlocal : t.Local w invoker s)
    (hno : ∀ clazz, w.binders.classes s.classHandle = some clazz → clazz.onTransact = 0) :
    ¬ t.Owns w (w.transact t function invoker daemon).1 := by
  have hsame : (w.transact t function invoker daemon).1 = w := by
    rw [GuestWorld.transact, hlocal.found]
    dsimp only
    rw [Option.isNone_eq_false_iff.mpr h.known, Bool.and_false, if_neg Bool.false_ne_true,
      hlocal.alive, hlocal.home, hlocal.invoker, decide_eq_true hlocal.classed]
    cases hclass : w.binders.classes s.classHandle with
    | none => rfl
    | some clazz => exact congrArg Prod.fst (if_pos (hno clazz hclass))
  intro howns
  have hgone := howns.removed
  have hknown := h.known
  rw [hsame] at hgone
  rw [hgone] at hknown
  cases hknown

/-- A transaction whose binder is not local, or cannot be called. -/
theorem owns_of_not_local (h : t.Given w) {s : BinderService}
    (hfound : w.binders.services t.binder = some s) (hno : ¬ t.Local w invoker s) :
    t.Owns w (w.transact t function invoker daemon).1 := by
  rw [GuestWorld.transact, hfound]
  dsimp only
  rw [Option.isNone_eq_false_iff.mpr h.known, Bool.and_false, if_neg Bool.false_ne_true]
  split_ifs with hdead hlocal howned
  · exact owns_refused h
  · rw [Bool.and_eq_true, Bool.and_eq_true, Bool.not_eq_true', decide_eq_true_eq] at hlocal
    refine absurd ⟨hfound, ?_, hlocal.1.1, hlocal.1.2, hlocal.2⟩ hno
    rwa [Bool.not_eq_true', Bool.not_eq_false] at hdead
  · exact owns_daemon h
  · exact owns_echo h

/-- A transaction with a local binder that has an `on_transact`. -/
theorem transact_of_local (h : t.Given w) {s : BinderService} (hlocal : t.Local w invoker s)
    {clazz : BinderClass} (hclass : w.binders.classes s.classHandle = some clazz)
    (hcalls : clazz.onTransact ≠ 0) :
    w.transact t function invoker daemon = w.transactLocal t function clazz := by
  rw [GuestWorld.transact, hlocal.found]
  dsimp only
  rw [Option.isNone_eq_false_iff.mpr h.known, Bool.and_false, if_neg Bool.false_ne_true,
    hlocal.alive, hlocal.home, hlocal.invoker, decide_eq_true hlocal.classed, hclass]
  exact if_neg hcalls

theorem owns_iff (h : t.Given w) (hnext : w.binders.nextBinderParcelHandle ≠ 0)
    {s : BinderService} (hfound : w.binders.services t.binder = some s) :
    t.Owns w (w.transact t function invoker daemon).1 ↔
      t.Answers w invoker ∧ t.Leaves w invoker function := by
  have hsame : ∀ s', t.Local w invoker s' → s' = s := fun s' hlocal =>
    Option.some_inj.mp (hlocal.found.symm.trans hfound)
  by_cases hlocal : t.Local w invoker s
  · by_cases hanswers : t.Answers w invoker
    · obtain ⟨clazz, hclass, hcalls⟩ := hanswers s hlocal
      have hclasses : ∀ s' clazz', t.Local w invoker s' →
          w.binders.classes s'.classHandle = some clazz' → clazz' = clazz := by
        intro s' clazz' hlocal' hclass'
        rw [hsame s' hlocal', hclass] at hclass'
        exact (Option.some_inj.mp hclass').symm
      rw [transact_of_local h hlocal hclass hcalls]
      cases haccepts : clazz.accepts (t.input w) with
      | false =>
        -- the token is wrong, and nothing is called
        rw [GuestWorld.transactLocal, if_pos haccepts]
        refine ⟨fun _ => ⟨hanswers, ?_⟩, fun _ => owns_refused h⟩
        intro s' clazz' hlocal' hclass' _ haccepts'
        rw [hclasses s' clazz' hlocal' hclass', haccepts] at haccepts'
        cases haccepts'
      | true =>
        rw [owns_local_iff h hnext haccepts]
        constructor
        · intro hreply
          refine ⟨hanswers, fun s' clazz' hlocal' hclass' _ _ hout hne => ?_⟩
          rw [hclasses s' clazz' hlocal' hclass']
          exact hreply hout hne
        · exact fun hboth => hboth.2 s clazz hlocal hclass hcalls haccepts
    · refine ⟨fun howns => absurd howns (not_owns_of_declined h hlocal fun clazz hclass => ?_),
        fun hboth => absurd hboth.1 hanswers⟩
      by_contra hcalls
      refine hanswers fun s' hlocal' => ?_
      rw [hsame s' hlocal']
      exact ⟨clazz, hclass, hcalls⟩
  · refine ⟨fun _ => ⟨fun s' hlocal' => ?_, fun s' clazz hlocal' => ?_⟩,
      fun _ => owns_of_not_local h hfound hlocal⟩
    · exact absurd (hsame s' hlocal' ▸ hlocal') hlocal
    · exact absurd (hsame s' hlocal' ▸ hlocal') hlocal

end Exits

/-! ## Handles of parcels -/

/-- The handles of the parcels in the table are below the next one. -/
structure Binders.Below (b : Binders) : Prop where
  next : 0 < b.nextBinderParcelHandle
  fresh : ∀ handle, b.nextBinderParcelHandle ≤ handle → b.parcels handle = none

/-- A step that keeps the handles below the next one, and gives none back. -/
def Binders.Grows (b b' : Binders) : Prop :=
  b.Below → b'.Below ∧ b.nextBinderParcelHandle ≤ b'.nextBinderParcelHandle

/-- The calls for parcels and transactions. -/
def BinderCall.forParcels : BinderCall → Bool
  | .appendValue _ _ | .writeStrongBinder _ _ | .readOther _ _ | .readStrongBinder _ => true
  | .setDataPosition _ _ | .parcelDelete _ | .prepareTransaction _ _ => true
  | .transact _ _ | .transactReturn _ _ => true
  | _ => false

/-- A call that is whole in itself; the two for a transaction are not, since
a callback comes in between. -/
def BinderCall.whole : BinderCall → Bool
  | .transact _ _ | .transactReturn _ _ => false
  | _ => true

/-- The parcels are the same. -/
def Binders.SameParcels (b b' : Binders) : Prop :=
  b'.parcels = b.parcels ∧ b'.nextBinderParcelHandle = b.nextBinderParcelHandle

namespace Binders

variable {b b' b'' : Binders}

theorem SameParcels.refl (b : Binders) : b.SameParcels b :=
  ⟨rfl, rfl⟩

theorem SameParcels.trans (h : b.SameParcels b') (h' : b'.SameParcels b'') : b.SameParcels b'' :=
  ⟨h'.1.trans h.1, h'.2.trans h.2⟩

theorem SameParcels.grows (h : b.SameParcels b') : b.Grows b' := by
  intro hb
  refine ⟨⟨?_, fun handle hle => ?_⟩, h.2.ge⟩
  · rw [h.2]
    exact hb.next
  · rw [h.1]
    exact hb.fresh handle (h.2 ▸ hle)

theorem Grows.refl (b : Binders) : b.Grows b :=
  (SameParcels.refl b).grows

theorem Grows.trans (h : b.Grows b') (h' : b'.Grows b'') : b.Grows b'' := by
  intro hb
  obtain ⟨hb', hle⟩ := h hb
  obtain ⟨hb'', hle'⟩ := h' hb'
  exact ⟨hb'', hle.trans hle'⟩

theorem parcels_setParcel (handle : ℕ) (parcel : Option BinderParcel) :
    (b.setParcel handle parcel).parcels = Function.update b.parcels handle parcel := rfl

theorem grows_setParcel {handle : ℕ} {parcel : Option BinderParcel}
    (h : handle < b.nextBinderParcelHandle) : b.Grows (b.setParcel handle parcel) := by
  intro hb
  refine ⟨⟨hb.next, fun other hle => ?_⟩, le_rfl⟩
  have hle : b.nextBinderParcelHandle ≤ other := hle
  rw [parcels_setParcel, Function.update_of_ne (by omega)]
  exact hb.fresh other hle

theorem grows_setParcel_none (handle : ℕ) : b.Grows (b.setParcel handle none) := by
  intro hb
  refine ⟨⟨hb.next, fun other hle => ?_⟩, le_rfl⟩
  rw [parcels_setParcel]
  rcases eq_or_ne other handle with rfl | hne
  · exact Function.update_self ..
  · rw [Function.update_of_ne hne]
    exact hb.fresh other hle

/-- A parcel that is there is changed. -/
theorem grows_setParcel_of_some {handle : ℕ} {p : BinderParcel} {parcel : Option BinderParcel}
    (h : b.parcels handle = some p) : b.Grows (b.setParcel handle parcel) := by
  intro hb
  refine grows_setParcel ?_ hb
  by_contra hge
  rw [hb.fresh handle (by omega)] at h
  cases h

theorem grows_createParcel (parcel : BinderParcel) : b.Grows (b.createParcel parcel) := by
  intro hb
  refine ⟨⟨Nat.succ_pos _, fun other hle => ?_⟩, Nat.le_succ _⟩
  have hle : b.nextBinderParcelHandle + 1 ≤ other := hle
  show (b.setParcel b.nextBinderParcelHandle (some parcel)).parcels other = none
  rw [parcels_setParcel, Function.update_of_ne (by omega)]
  exact hb.fresh other (by omega)

theorem grows_consumeInput (input : ℕ) : b.Grows (b.consumeInput input) := by
  unfold consumeInput
  split
  · exact grows_setParcel_none input
  · exact .refl b

/-! ## The other calls -/

theorem sameParcels_releaseFuel (fuel : ℕ) (b : Binders) (handle : ℕ) :
    b.SameParcels (b.releaseFuel fuel handle).1 := by
  induction fuel generalizing b handle with
  | zero => exact .refl b
  | succ fuel ih =>
    unfold releaseFuel
    split
    · exact .refl b
    · split_ifs
      · exact ⟨rfl, rfl⟩
      · exact .refl b
      · exact ⟨rfl, rfl⟩
      · exact (show b.SameParcels (b.erase handle) from ⟨rfl, rfl⟩).trans (ih _ _)
      · exact ⟨rfl, rfl⟩

theorem sameParcels_call {c : BinderCall} (h : c.forParcels = false) :
    b.SameParcels (b.call c).binders := by
  cases c with
  | decStrong handle => exact sameParcels_releaseFuel _ b handle
  | setExtension handle extension =>
    simp only [call, setExtension]
    repeat' split
    any_goals exact ⟨rfl, rfl⟩
    exact (show b.SameParcels ((b.modify extension .acquire).modify handle _) from
      ⟨rfl, rfl⟩).trans (sameParcels_releaseFuel ..)
  | appendValue | writeStrongBinder | readOther | readStrongBinder | setDataPosition
  | parcelDelete | prepareTransaction | transact | transactReturn => cases h
  | _ =>
    simp only [call, serviceLookup, serviceHandleForName, addService, classDefine,
      disableInterfaceTokenHeader, new, associateClass, incStrong, weakNew, weakDelete, weakPromote,
      weakClone, getExtension, deathRecipientNew, deathRecipientSetOnUnlinked,
      deathRecipientDelete, linkToDeath, unlinkToDeath, muplarBinderKill, retireService]
    repeat' split
    all_goals exact ⟨rfl, rfl⟩

theorem grows_readValue {handle : ℕ} {expected : BinderParcelKind} {read : Binders}
    {value : BinderParcelValue} (h : b.readValue handle expected = .ok (read, value)) :
    b.Grows read := by
  unfold readValue at h
  cases hp : b.parcels handle with
  | none => rw [hp] at h; cases h
  | some p =>
    rw [hp] at h
    dsimp only at h
    cases hv : p.values[p.cursor]? with
    | none => rw [hv] at h; cases h
    | some v =>
      rw [hv] at h
      dsimp only at h
      split_ifs at h
      cases h
      exact grows_setParcel_of_some hp

theorem grows_appendValue (handle : ℕ) (value : BinderParcelValue) :
    b.Grows (b.appendValue handle value).binders := by
  unfold appendValue
  split
  · exact .refl b
  · next p hp => exact grows_setParcel_of_some hp

theorem grows_call {c : BinderCall} (h : c.whole = true) : b.Grows (b.call c).binders := by
  cases hparcels : c.forParcels with
  | false => exact (sameParcels_call hparcels).grows
  | true =>
    cases c with
    | appendValue handle value => exact grows_appendValue handle value
    | writeStrongBinder handle binder => exact grows_appendValue handle _
    | readOther handle expected =>
      show b.Grows (b.readOther handle expected).binders
      unfold readOther
      split
      · exact .refl b
      · next hread => exact grows_readValue hread
    | readStrongBinder handle =>
      show b.Grows (b.readStrongBinder handle).binders
      unfold readStrongBinder
      split
      · exact .refl b
      · next read value hread =>
        exact (grows_readValue hread).trans
          (show read.SameParcels (read.modify value.value.toNat .acquire) from ⟨rfl, rfl⟩).grows
    | setDataPosition handle position =>
      show b.Grows (b.setDataPosition handle position).binders
      unfold setDataPosition
      split
      · exact .refl b
      · next p hp =>
        split_ifs
        · exact .refl b
        · exact grows_setParcel_of_some hp
    | parcelDelete handle => exact grows_setParcel_none handle
    | prepareTransaction handle out =>
      show b.Grows (b.prepareTransaction handle out).binders
      unfold prepareTransaction
      repeat' split
      any_goals exact .refl b
      all_goals exact grows_createParcel _
    | _ => cases h <;> cases hparcels

end Binders

/-! ## Transactions and handles -/

section Grows

variable {w after : GuestWorld} {t : TransactArgs} {function : GuestFunction}

theorem binders_consumeInput (w : GuestWorld) (inHandle : ℕ) (inGpa : UInt64) :
    (w.consumeInput inHandle inGpa).binders = w.binders.consumeInput inHandle := by
  unfold GuestWorld.consumeInput Binders.consumeInput
  by_cases h : inHandle = 0
  · rw [if_pos h, if_neg (not_not.mpr h)]
  · rw [if_neg h, if_pos h, binders_writeSlot]

theorem grows_refused (after : GuestWorld) (h : w.binders.Grows after.binders) (inHandle : ℕ)
    (inGpa outGpa : UInt64) :
    w.binders.Grows ((after.consumeInput inHandle inGpa).writeSlot outGpa 0).binders := by
  rw [binders_writeSlot, binders_consumeInput]
  exact h.trans (Binders.grows_consumeInput _)

theorem grows_setCursor (cursor : ℕ) : w.binders.Grows (w.setCursor t cursor).binders := by
  unfold GuestWorld.setCursor TransactArgs.input
  split
  · exact .refl _
  · next p hp =>
    split_ifs at hp
    exact Binders.grows_setParcel_of_some hp

theorem grows_createReply (values : List BinderParcelValue) :
    w.binders.Grows (w.createReply t values).binders := by
  rw [GuestWorld.createReply, binders_writeSlot]
  exact Binders.grows_createParcel _

theorem grows_writeSlot_consumeInput (h : w.binders.Grows after.binders) (inHandle : ℕ)
    (inGpa outGpa : UInt64) :
    w.binders.Grows ((after.writeSlot outGpa 0).consumeInput inHandle inGpa).binders := by
  rw [← writeSlot_consumeInput]
  exact grows_refused after h inHandle inGpa outGpa

theorem grows_consumeInput_of (h : w.binders.Grows after.binders) (inHandle : ℕ) (inGpa : UInt64) :
    w.binders.Grows (after.consumeInput inHandle inGpa).binders := by
  rw [binders_consumeInput]
  exact h.trans (Binders.grows_consumeInput _)

theorem nextBinderParcelHandle_setCursor (cursor : ℕ) :
    (w.setCursor t cursor).binders.nextBinderParcelHandle = w.binders.nextBinderParcelHandle := by
  unfold GuestWorld.setCursor
  split <;> rfl

/-- The reply that is made for `on_transact` has a handle that was given out
before it is called. -/
theorem grows_called (clazz : BinderClass) :
    w.binders.Grows (w.called t clazz).binders ∧ (t.wantsReply = true →
      w.binders.nextBinderParcelHandle < (w.called t clazz).binders.nextBinderParcelHandle) := by
  rw [GuestWorld.called]
  by_cases hwants : t.wantsReply = true
  · rw [if_pos hwants]
    refine ⟨(grows_setCursor _).trans (grows_createReply _), fun _ => ?_⟩
    rw [GuestWorld.createReply, binders_writeSlot]
    show _ < (w.setCursor t _).binders.nextBinderParcelHandle + 1
    rw [nextBinderParcelHandle_setCursor]
    exact Nat.lt_succ_self _
  · rw [if_neg hwants, binders_writeSlot]
    exact ⟨grows_setCursor _, fun h => absurd h hwants⟩

theorem grows_rewindReply {reply : ℕ}
    (h : reply ≠ 0 → reply < w.binders.nextBinderParcelHandle) :
    w.binders.Grows (w.rewindReply reply).binders := by
  unfold GuestWorld.rewindReply
  split_ifs with hzero
  · exact .refl _
  · exact Binders.grows_setParcel (h hzero)

theorem grows_transactLocal (clazz : BinderClass)
    (hf : ∀ (invocation : Invocation) (w' : GuestWorld),
      w'.binders.Grows (function invocation w').1.binders) :
    w.binders.Grows (w.transactLocal t function clazz).1.binders := by
  rw [GuestWorld.transactLocal]
  split_ifs
  · exact grows_refused _ (grows_setCursor 0) _ _ _
  · obtain ⟨hcalled, hlt⟩ := grows_called (w := w) (t := t) clazz
    refine grows_consumeInput_of (fun hb => ?_) _ _
    obtain ⟨hb₁, hle₁⟩ := hcalled hb
    obtain ⟨hb₂, hle₂⟩ := hf (w.invocation t clazz) _ hb₁
    generalize (function (w.invocation t clazz) (w.called t clazz)).1 = after at *
    have hreply : (w.invocation t clazz).reply ≠ 0 →
        (w.invocation t clazz).reply < after.binders.nextBinderParcelHandle := by
      rw [GuestWorld.invocation]
      dsimp only
      split_ifs with hwants
      · exact fun _ => lt_of_lt_of_le (hlt hwants) hle₂
      · exact fun hno => absurd rfl hno
    obtain ⟨hb₃, hle₃⟩ := grows_rewindReply hreply hb₂
    exact ⟨hb₃, (hle₁.trans hle₂).trans hle₃⟩

theorem grows_transact {invoker : Bool} {daemon : Option Bytes}
    (hf : ∀ (invocation : Invocation) (w' : GuestWorld),
      w'.binders.Grows (function invocation w').1.binders) :
    w.binders.Grows (w.transact t function invoker daemon).1.binders := by
  rw [GuestWorld.transact]
  split
  · exact .refl _
  · split_ifs
    · exact .refl _
    · exact grows_refused _ (.refl _) _ _ _
    · split
      · exact .refl _
      · split_ifs
        · exact .refl _
        · exact grows_transactLocal _ hf
    · unfold GuestWorld.transactDaemon
      split
      · have hsame : w.binders.SameParcels
            (w.binders.modify t.binder fun s => { s with alive := false }) := ⟨rfl, rfl⟩
        exact grows_refused
          { w with binders := w.binders.modify t.binder fun s => { s with alive := false } }
          hsame.grows _ _ _
      · split_ifs
        · split
          · exact grows_refused _ (.refl _) _ _ _
          · exact grows_consumeInput_of (grows_createReply _) _ _
        · exact grows_writeSlot_consumeInput (.refl _) _ _ _
    · unfold GuestWorld.transactEcho
      split_ifs
      · exact grows_consumeInput_of (grows_createReply _) _ _
      · exact grows_writeSlot_consumeInput (.refl _) _ _ _

end Grows

/-- What the guest can do to the table: calls, and whole transactions with
guest functions that do no more themselves. -/
inductive Binders.Follows : Binders → Binders → Prop
  | refl (b : Binders) : Follows b b
  | call {b b' : Binders} (c : BinderCall) (before : Follows b b') (whole : c.whole = true) :
      Follows b (b'.call c).binders
  | transact {b : Binders} {w : GuestWorld} {t : TransactArgs} {function : GuestFunction}
      {invoker : Bool} {daemon : Option Bytes} (before : Follows b w.binders)
      (inside : ∀ (invocation : Invocation) (w' : GuestWorld),
        Follows w'.binders (function invocation w').1.binders) :
      Follows b (w.transact t function invoker daemon).1.binders

theorem Binders.Follows.grows {b b' : Binders} (h : b.Follows b') : b.Grows b' := by
  induction h with
  | refl b => exact .refl b
  | call c before whole ih => exact ih.trans (Binders.grows_call whole)
  | transact before inside ih ihf => exact ih.trans (grows_transact ihf)

theorem below_empty : Binders.empty.Below where
  next := by decide
  fresh _ _ := rfl

/-! ## Results -/

/-- **`AIBinder_transact` takes ownership of its input exactly where a local
binder's class is there and has an `on_transact`, and what that leaves in
the slot for the reply is the reply or 0.** In every state the guest can
bring the table to, for every binder, input, code, flags and callback. -/
theorem transact_owns_iff {w : GuestWorld} (hreached : Binders.empty.Follows w.binders)
    {t : TransactArgs} {s : BinderService} (hbinder : w.binders.services t.binder = some s)
    (hgpa : t.inGpa ≠ 0) (hhandle : w.slots t.inGpa ≠ 0) {p : BinderParcel}
    (hinput : w.binders.parcels (w.slots t.inGpa) = some p) (function : GuestFunction)
    (invoker : Bool) (daemon : Option Bytes) :
    t.Owns w (w.transact t function invoker daemon).1 ↔
      t.Answers w invoker ∧ t.Leaves w invoker function := by
  obtain ⟨hbelow, -⟩ := hreached.grows below_empty
  have hin : t.inHandle w = w.slots t.inGpa := if_neg hgpa
  have hgiven : t.Given w := by
    refine ⟨hgpa, hin ▸ hhandle, ?_, fun heq => ?_⟩
    · rw [hin, hinput]
      rfl
    · rw [← hin, heq, hbelow.fresh _ le_rfl] at hinput
      cases hinput
  exact owns_iff hgiven hbelow.next.ne' hbinder

/-- The calls of a guest, from the start. -/
def Binders.afterCalls (calls : List BinderCall) : Binders :=
  calls.foldl (fun b c => (b.call c).binders) .empty

theorem Binders.follows_afterCalls {calls : List BinderCall}
    (h : calls.all BinderCall.whole = true) : Binders.empty.Follows (.afterCalls calls) := by
  suffices hfrom : ∀ b, Binders.empty.Follows b →
      Binders.empty.Follows (calls.foldl (fun b c => (b.call c).binders) b) from
    hfrom _ (.refl _)
  induction calls with
  | nil => exact fun b hb => hb
  | cons c calls ih =>
    rw [List.all_cons, Bool.and_eq_true] at h
    exact fun b hb => ih h.2 _ (.call c hb h.1)

/-- A binder of a service elsewhere and a parcel for it: the guest's slot
has the parcel's handle. -/
theorem transact_owns_remote :
    TransactArgs.Owns ⟨0xB1D00001, 7, 0x100, 0x108, 0⟩
        ⟨.afterCalls [.serviceLookup (ascii "clock") false, .prepareTransaction 0xB1D00001 1],
          fun _ => 0xB1D10001⟩
        (GuestWorld.transact
          ⟨.afterCalls [.serviceLookup (ascii "clock") false, .prepareTransaction 0xB1D00001 1],
            fun _ => 0xB1D10001⟩
          ⟨0xB1D00001, 7, 0x100, 0x108, 0⟩ (fun _ w => (w, 0)) true none).1 :=
  (transact_owns_iff (Binders.follows_afterCalls rfl) (s := { name := ascii "clock" }) rfl
    (by decide) (by decide) (p := { targetBinder := 0xB1D00001 }) rfl _ _ _).mpr
    ⟨fun s hlocal => absurd hlocal.home (by rw [← Option.some_inj.mp hlocal.found]; decide),
      fun s clazz hlocal => absurd hlocal.home (by rw [← Option.some_inj.mp hlocal.found]; decide)⟩

/-- **A class without `on_transact` keeps the input.** The class is defined
so, a binder of it is made, and a parcel for the binder. -/
theorem transact_keeps_input :
    ¬ TransactArgs.Owns ⟨0xB1D00001, 7, 0x100, 0x108, 0⟩
        ⟨.afterCalls [.classDefine (ascii "deaf") 0 0 0, .new 0xB1C00001 0 0,
            .prepareTransaction 0xB1D00001 1], fun _ => 0xB1D10001⟩
        (GuestWorld.transact
          ⟨.afterCalls [.classDefine (ascii "deaf") 0 0 0, .new 0xB1C00001 0 0,
            .prepareTransaction 0xB1D00001 1], fun _ => 0xB1D10001⟩
          ⟨0xB1D00001, 7, 0x100, 0x108, 0⟩ (fun _ w => (w, 0)) true none).1 := by
  intro howns
  have hkept := howns.zeroed
  have hslot : (GuestWorld.transact
      ⟨.afterCalls [.classDefine (ascii "deaf") 0 0 0, .new 0xB1C00001 0 0,
        .prepareTransaction 0xB1D00001 1], fun _ => 0xB1D10001⟩
      ⟨0xB1D00001, 7, 0x100, 0x108, 0⟩ (fun _ w => (w, 0)) true none).1.slots 0x100 =
      0xB1D10001 := by decide +kernel
  rw [hslot] at hkept
  cases hkept

end Android

end Muplar
