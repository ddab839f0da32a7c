import Muplar.Daemon.Delivery
import Muplar.Daemon.Desk
/-!
# muplard — who decides a permission

The answer about a permission depends on two settings: the one under its
key and the list of users. In every run these two are what the requests
that write them left there, so two runs with the same such requests give
the same answer (`permission_noninterference`). Which requests write the
first one is not what the names say: the three parts of the key are
joined by colons, which the parts may hold themselves, and `PutSetting`
takes any key.
-/

namespace Muplar

namespace Daemon

open Machine

variable {F : Floats} {env : Environment} {d : State (Variables F)}

/-! ## What a request writes -/

/-- The setting a request writes, and its value. -/
def settingWrite : Opcode × Bytes → Option (Bytes × Bytes)
  | (.putSetting, payload) => putRequest payload
  | (.setPermission, payload) => (setRequest payload).map fun r => (r.key, r.value)
  | _ => none

/-- A map after a write. -/
def Settings.after (settings : Settings) : Option (Bytes × Bytes) → Settings
  | some (key, value) => settings.insert key value
  | none => settings

theorem serveVariables_settings (d : State (Variables F)) (info : ClientInfo) (op : Opcode)
    (payload : Bytes) (husers : usersKey ∈ d.desk.settings) :
    (serveVariables env d info op payload).desk.settings =
      Settings.after d.desk.settings (settingWrite (op, payload)) := by
  cases op <;> try rfl
  case putSetting =>
    simp only [serveVariables, putSetting, settingWrite]
    split <;> next h => simp only [h, Settings.after]
  case queryUsers =>
    obtain ⟨users, hlook⟩ := Option.isSome_iff_exists.mp (AList.lookup_isSome.mpr husers)
    simp only [serveVariables, queryUsers, hlook, settingWrite, Settings.after]
  case setPermission =>
    simp only [serveVariables, setPermission, settingWrite]
    split <;> next h => simp only [h, Settings.after, Option.map_some, Option.map_none]
  case applySurfaceTransaction =>
    simp only [serveVariables, settingWrite, Settings.after]
    split <;> rfl

/-- **What an event does to the settings** is what its request writes. -/
theorem next_settings {e : Event} (h : d.Admits e) (husers : usersKey ∈ d.desk.settings) :
    (d.next (desk F env) e).desk.settings =
      Settings.after d.desk.settings (e.request.bind settingWrite) := by
  have hdid := step_did (desk F env) h
  rw [State.next]
  generalize d.step (desk F env) e = r at hdid
  cases hdid with
  | accepted => rfl
  | announced =>
    simp only [announce, desk, tickVariables, Event.request]
    split <;> rfl
  | @aside i poll r _ hrouted hapart =>
    rw [hapart.desk]
    cases hreq : (Event.turn i poll).request with
    | none => rfl
    | some request =>
      obtain ⟨op, payload⟩ := request
      have hop := hrouted op payload hreq
      cases op <;> first | rfl | cases hop
  | left hc hl => simp [Event.request, Poll.request_of_leaves hl, Settings.after, removeClient]
  | served hc hreq hcode hdesk =>
    rw [request_turn hreq hcode, Option.bind_some]
    exact serveVariables_settings d _ _ _ husers

theorem mem_after {settings : Settings} {key : Bytes} (h : key ∈ settings)
    (write : Option (Bytes × Bytes)) : key ∈ Settings.after settings write := by
  cases write with
  | none => exact h
  | some kv => exact (AList.mem_insert settings).mpr (Or.inr h)

/-! ## The two settings an answer depends on -/

section View

variable (p u q : Bytes)

/-- The decision under the key, and the users. -/
def Settings.view (settings : Settings) : Option Bytes × Option Bytes :=
  (settings.lookup (permissionKey p u q), settings.lookup usersKey)

/-- The two settings after a request. -/
def viewStep (view : Option Bytes × Option Bytes) (request : Opcode × Bytes) :
    Option Bytes × Option Bytes :=
  match settingWrite request with
  | some (key, value) =>
    (if key = permissionKey p u q then some value else view.1,
      if key = usersKey then some value else view.2)
  | none => view

theorem view_after (settings : Settings) (request : Opcode × Bytes) :
    Settings.view p u q (Settings.after settings (settingWrite request)) =
      viewStep p u q (Settings.view p u q settings) request := by
  have hinsert : ∀ key value k : Bytes, (settings.insert key value).lookup k =
      if key = k then some value else settings.lookup k := by
    intro key value k
    by_cases hk : key = k
    · subst hk
      rw [AList.lookup_insert, if_pos rfl]
    · rw [AList.lookup_insert_ne (Ne.symm hk), if_neg hk]
  simp only [viewStep]
  cases settingWrite request with
  | none => rfl
  | some kv => exact Prod.ext (hinsert _ _ _) (hinsert _ _ _)

theorem permissionGranted_eq_of_view {s s' : Settings}
    (h : Settings.view p u q s = Settings.view p u q s') :
    permissionGranted s p u q = permissionGranted s' p u q := by
  obtain ⟨hkey, husers⟩ := Prod.mk.inj h
  simp only [permissionGranted, userExists, hkey, husers]

/-- A decision about the permission itself, or a new list of users. -/
def Concerns : Opcode × Bytes → Bool
  | (.setPermission, payload) => match setRequest payload with
    | some r => r.package = p && r.user = u && r.permission = q
    | none => false
  | (.putSetting, payload) => match putRequest payload with
    | some (key, _) => key = usersKey
    | none => false
  | _ => false

/-- Some other request that writes the permission's key all the same. -/
def Clashes (request : Opcode × Bytes) : Prop :=
  Concerns p u q request = false ∧ ∃ value, settingWrite request = some (permissionKey p u q, value)

instance (request : Opcode × Bytes) : Decidable (Clashes p u q request) :=
  decidable_of_iff (Concerns p u q request = false ∧
      (settingWrite request).map Prod.fst = some (permissionKey p u q)) <| by
    rw [Clashes, Option.map_eq_some_iff]
    constructor
    · rintro ⟨hc, ⟨key, value⟩, hw, rfl⟩
      exact ⟨hc, value, hw⟩
    · rintro ⟨hc, value, hw⟩
      exact ⟨hc, _, hw, rfl⟩

theorem permissionKey_ne_usersKey (p u q : Bytes) : permissionKey p u q ≠ usersKey := by
  intro h
  have hhead := congrArg (List.take 1) h
  have hp : ascii "permission:" = 112 :: ascii "ermission:" := by decide
  have hu : usersKey = 117 :: ascii "sers" := by decide
  rw [permissionKey, hp, hu] at hhead
  simp at hhead

/-- A request that neither concerns the permission nor clashes with it
leaves both settings alone. -/
theorem viewStep_other {request : Opcode × Bytes} (hc : Concerns p u q request = false)
    (hclash : ¬Clashes p u q request) (view : Option Bytes × Option Bytes) :
    viewStep p u q view request = view := by
  simp only [viewStep]
  cases hw : settingWrite request with
  | none => rfl
  | some kv =>
    obtain ⟨key, value⟩ := kv
    have hkey : key ≠ permissionKey p u q := by
      rintro rfl
      exact hclash ⟨hc, value, hw⟩
    have husers : key ≠ usersKey := by
      rintro rfl
      obtain ⟨op, payload⟩ := request
      cases op <;> try cases hw
      case putSetting =>
        have hput : putRequest payload = some (usersKey, value) := hw
        simp [Concerns, hput] at hc
      case setPermission =>
        obtain ⟨r, -, hr⟩ := Option.map_eq_some_iff.mp hw
        exact permissionKey_ne_usersKey _ _ _ (congrArg Prod.fst hr)
    simp only [if_neg hkey, if_neg husers]

theorem foldl_filter_of_idle {α β : Type*} {f : β → α → β} {keep : α → Bool} {l : List α}
    (h : ∀ a ∈ l, keep a = false → ∀ b, f b a = b) (b : β) :
    (l.filter keep).foldl f b = l.foldl f b := by
  induction l generalizing b with
  | nil => rfl
  | cons a l ih =>
    have htail := ih fun a' ha' => h a' (List.mem_cons_of_mem _ ha')
    cases hk : keep a with
    | true => rw [List.filter_cons_of_pos hk, List.foldl_cons, List.foldl_cons, htail]
    | false =>
      rw [List.filter_cons_of_neg (by simp [hk]), List.foldl_cons, htail,
        h a List.mem_cons_self hk]

/-- **The two settings at the end of a run** are what its requests made of
them. -/
theorem view_run {es : List Event}
    (hm : Meets (State.next (desk F env)) State.Admits d es) (husers : usersKey ∈ d.desk.settings) :
    Settings.view p u q (run (State.next (desk F env)) d es).desk.settings =
      (es.filterMap Event.request).foldl (viewStep p u q) (Settings.view p u q d.desk.settings) := by
  induction es generalizing d with
  | nil => rfl
  | cons e es ih =>
    have hs : (d.next (desk F env) e).desk.settings =
        Settings.after d.desk.settings (e.request.bind settingWrite) := next_settings hm.1 husers
    have husers' : usersKey ∈ (d.next (desk F env) e).desk.settings := by
      rw [hs]
      exact mem_after husers _
    rw [run_cons, ih hm.2 husers', hs]
    cases hreq : e.request with
    | none =>
      rw [List.filterMap_cons_none hreq]
      rfl
    | some request =>
      rw [List.filterMap_cons_some hreq, List.foldl_cons, ← view_after]
      rfl

/-- The requests of a run that concern the permission. -/
def concerning (es : List Event) : List (Opcode × Bytes) :=
  (es.filterMap Event.request).filter (Concerns p u q)

/-- No request of the run clashes with the permission. -/
def NoClash (es : List Event) : Prop :=
  ∀ request ∈ es.filterMap Event.request, ¬Clashes p u q request

theorem view_run_concerning {es : List Event}
    (hm : Meets (State.next (desk F env)) State.Admits d es) (husers : usersKey ∈ d.desk.settings)
    (hno : NoClash p u q es) :
    Settings.view p u q (run (State.next (desk F env)) d es).desk.settings =
      (concerning p u q es).foldl (viewStep p u q) (Settings.view p u q d.desk.settings) := by
  rw [view_run p u q hm husers, concerning, foldl_filter_of_idle]
  intro request hmem hc view
  exact viewStep_other p u q hc (hno request hmem) view

end View

/-! ## Two runs -/

/-- The settings at the end of a run. -/
def settingsAfter (F : Floats) (env : Environment) (loaded : Settings) (stamp : UInt64)
    (es : List Event) : Settings :=
  (stateAfter F env loaded stamp es).desk.settings

instance (p u q : Bytes) (es : List Event) : Decidable (NoClash p u q es) :=
  inferInstanceAs (Decidable (∀ request ∈ es.filterMap Event.request, ¬Clashes p u q request))

/-- **What others do does not matter, short of a clash.** Two runs of the
daemon from the same settings, whatever the clients, the order of the
events and the disk: where the requests that concern a permission are the
same in both, and no other request of either writes the permission's
key, both end with the same answer. -/
theorem permission_noninterference (F : Floats) (env env' : Environment) (loaded : Settings)
    (stamp stamp' : UInt64) (es es' : List Event) (p u q : Bytes)
    (hm : Possible F env loaded stamp es) (hm' : Possible F env' loaded stamp' es')
    (hsame : concerning p u q es = concerning p u q es')
    (hno : NoClash p u q es) (hno' : NoClash p u q es') :
    permissionGranted (settingsAfter F env loaded stamp es) p u q =
      permissionGranted (settingsAfter F env' loaded stamp' es') p u q := by
  apply permissionGranted_eq_of_view
  rw [settingsAfter, settingsAfter, stateAfter, stateAfter,
    view_run_concerning p u q hm (mem_startSettings loaded) hno,
    view_run_concerning p u q hm' (mem_startSettings loaded) hno', hsame]
  rfl

/-- A client connects and sends `SetPermission` requests. -/
def decisions (payloads : List Bytes) : List Event :=
  .accept 4 1 1 :: payloads.map fun payload => .turn 0 (message 20 1 payload)

/-- The app `a` is denied `C`, whether or not `b` is granted it. -/
theorem permission_noninterference_decisions :
    permissionGranted
        (settingsAfter wholeNumbers stillness ∅ 0 (decisions [ascii "a\n0\nC\ndeny"]))
        (ascii "a") (ascii "0") (ascii "C") =
      permissionGranted
        (settingsAfter wholeNumbers stillness ∅ 0
          (decisions [ascii "a\n0\nC\ndeny", ascii "b\n0\nC\ngrant"]))
        (ascii "a") (ascii "0") (ascii "C") :=
  permission_noninterference wholeNumbers stillness stillness ∅ 0 0 _ _ _ _ _ (by decide)
    (by decide) (by decide) (by decide) (by decide)

/-- **A permission decided by a decision about another app.** The app
`a:b` is denied `c`; what was answered about the app `a` and the
permission `b:c` was yes before, and is no afterwards. -/
theorem permission_keys_collide :
    ¬∀ es es' : List Event, ∀ p u q : Bytes,
      Possible wholeNumbers stillness ∅ 0 es → Possible wholeNumbers stillness ∅ 0 es' →
      concerning p u q es = concerning p u q es' →
      permissionGranted (settingsAfter wholeNumbers stillness ∅ 0 es) p u q =
        permissionGranted (settingsAfter wholeNumbers stillness ∅ 0 es') p u q := by
  intro hall
  have h := hall (decisions []) (decisions [ascii "a:b\n0\nc\ndeny"]) (ascii "a") (ascii "0")
    (ascii "b:c") (by decide) (by decide) (by decide)
  revert h
  decide

end Daemon

end Muplar
