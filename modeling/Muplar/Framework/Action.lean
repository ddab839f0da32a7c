import Muplar.Common.JavaText
import Muplar.Common.PathText
import Muplar.Daemon.Sizes
/-!
# The framework — device actions

A device action goes to the daemon as lines, one a field, and comes back
to every subscriber as labelled lines. Two sides write it, `launchApp` of
the framework and `MuplardClient`, and one side reads it, `parseAction`.

What a client sends is read back as it was given wherever the fields are
text, the announcement has room and the generation is a `long`. What
`launchApp` sends is never read back, since it is never sent: the table of
`FrameworkServiceClient` does not know the operation. `survives_iff` says
both.
-/

namespace Muplar

namespace Framework

open Daemon

/-! ## Actions -/

/-- What an action is given besides its name. -/
structure LaunchFields (α : Type) where
  tab : α
  apk : α
  packageName : α
  activity : α
  application : α
  deriving DecidableEq

namespace LaunchFields

variable {α β : Type}

/-- The fields in the order they are sent. -/
def values (f : LaunchFields α) : List α :=
  [f.tab, f.apk, f.packageName, f.activity, f.application]

def map (g : α → β) (f : LaunchFields α) : LaunchFields β :=
  ⟨g f.tab, g f.apk, g f.packageName, g f.activity, g f.application⟩

end LaunchFields

/-- `DeviceAction`. -/
structure DeviceAction where
  generation : Int64
  action : JavaString := []
  fields : LaunchFields JavaString := ⟨[], [], [], [], []⟩
  deriving DecidableEq

/-- `clean`: `null` is the empty string. -/
def clean (value : Option JavaString) : JavaString :=
  value.getD []

/-- A string as `+` writes it. -/
def concatenated (value : Option JavaString) : JavaString :=
  value.getD (java "null")

/-! ## Sending -/

/-- `FrameworkServiceClient.opcodeFor`. -/
def opcodeFor (operation : JavaString) : ℤ :=
  if operation = java "tab-finished" then 30
  else if operation = java "query-packages" then 8
  else -1

/-- What `FrameworkServiceClient.request` brings to the daemon where there
is a socket: the opcode and the payload. -/
def request (operation payload : JavaString) : Option (UInt16 × Bytes) :=
  let opcode := opcodeFor operation
  if opcode < 0 then none else some (UInt16.ofNat opcode.toNat, payload.getBytes)

/-- The payload `launchApp` puts together. -/
def launchPayload (f : LaunchFields (Option JavaString)) : JavaString :=
  java "focus-tab\n" ++ concatenated f.tab ++ java "\n" ++ concatenated f.apk ++ java "\n" ++
    concatenated f.packageName ++ java "\n" ++ concatenated f.activity ++ java "\n" ++
    concatenated f.application

/-- What a call of `launchApp` does: the action that is dispatched, and
what the daemon is sent. -/
structure Launch where
  action : DeviceAction
  sent : Option (UInt16 × Bytes)

/-- `launchApp`, at the generation it finds; `none` where it returns at
once. -/
def launchApp (generation : Int64) (apkPath packageName activityName applicationName :
    Option JavaString) : Option Launch :=
  if clean packageName = [] then none
  else
    let fields := ⟨packageName, apkPath, packageName, activityName, applicationName⟩
    some {
      action := { generation := generation + 1, action := java "focus-tab",
                  fields := fields.map clean }
      sent := request (java "device-action") (launchPayload fields) }

/-- `MuplardClient::device_action`: what it sends, where the payload is
not too long. -/
def clientAction (action : Bytes) (f : LaunchFields Bytes) : Option (UInt16 × Bytes) :=
  let payload := action ++ [newline] ++ f.tab ++ [newline] ++ f.apk ++ [newline] ++
    f.packageName ++ [newline] ++ f.activity ++ [newline] ++ f.application
  if payload.length > kMaxPayloadSize.toNat then none
  else some (23, payload)

/-- What the daemon announces to subscribers: a device action it accepts. -/
def announcement (state : DeviceState) (sent : UInt16 × Bytes) : Option Bytes :=
  if Opcode.ofCode sent.1 = some .deviceAction then
    (applyDeviceAction state sent.2).map deviceStateReply
  else none

/-- The daemon's table of requests says the same. -/
theorem announcement_eq_notice {F : Floats} (env : Environment) (d : State (Variables F))
    (info : ClientInfo) {sent : UInt16 × Bytes}
    (h : Opcode.ofCode sent.1 = some .deviceAction) :
    (serveVariables env d info .deviceAction sent.2).notice =
      (announcement d.desk.deviceState sent).map fun text => (.deviceActionChanged, text) := by
  rw [announcement, if_pos h, Option.map_map]
  rfl

/-! ## Reading -/

/-- The payload of the frame that `readFrame` returns. -/
def readFrame (J : JavaLibrary) (payload : Bytes) : Option JavaString :=
  if payload.length ≤ 1024 * 1024 then some (J.decodeUtf8 payload) else none

/-- One line for `parseAction`; `generation` is the framework's own. -/
def parseLine (J : JavaLibrary) (generation : Int64) (next : DeviceAction) (line : JavaString) :
    DeviceAction :=
  if (java "generation=").isPrefixOf line then
    { next with generation := (J.parseLong (line.drop 11)).getD generation }
  else if (java "action=").isPrefixOf line then { next with action := line.drop 7 }
  else if (java "tab=").isPrefixOf line then
    { next with fields := { next.fields with tab := line.drop 4 } }
  else if (java "apk=").isPrefixOf line then
    { next with fields := { next.fields with apk := line.drop 4 } }
  else if (java "package=").isPrefixOf line then
    { next with fields := { next.fields with packageName := line.drop 8 } }
  else if (java "activity=").isPrefixOf line then
    { next with fields := { next.fields with activity := line.drop 9 } }
  else if (java "application=").isPrefixOf line then
    { next with fields := { next.fields with application := line.drop 12 } }
  else next

/-- `parseAction`. -/
def parseAction (J : JavaLibrary) (generation : Int64) (payload : JavaString) : DeviceAction :=
  (payload.splitOn 10).foldl (parseLine J generation) { generation }

/-- What the framework makes of an announcement. -/
def echo (J : JavaLibrary) (generation : Int64) (text : Bytes) : Option DeviceAction :=
  (readFrame J text).map (parseAction J generation)

/-! ## What survives -/

/-- The two are one text. -/
def Spells (s : JavaString) (bytes : Bytes) : Prop :=
  ∃ text, s = utf16 text ∧ bytes = utf8 text

/-- The bytes are text. -/
def IsText (bytes : Bytes) : Prop :=
  ∃ text, bytes = utf8 text

/-- **The action is the one that was sent**, with the generation it was
given. -/
structure DeviceAction.Describes (a : DeviceAction) (generation : UInt64) (action : Bytes)
    (f : LaunchFields Bytes) : Prop where
  generation : a.generation.toInt = generation.toNat
  action : Spells a.action action
  tab : Spells a.fields.tab f.tab
  apk : Spells a.fields.apk f.apk
  packageName : Spells a.fields.packageName f.packageName
  activity : Spells a.fields.activity f.activity
  application : Spells a.fields.application f.application

/-- The two ways to ask for an action. -/
inductive Request
  | client (action : Bytes) (f : LaunchFields Bytes)
  | launch (apkPath packageName activityName applicationName : Option JavaString)

/-- The daemon knows the action, and no field has a line break. -/
def Request.Plain : Request → Prop
  | .client action f => validDeviceAction action = true ∧ ∀ v ∈ f.values, newline ∉ v
  | .launch apkPath packageName activityName applicationName =>
    ∀ v ∈ [apkPath, packageName, activityName, applicationName], ∀ s ∈ v, (10 : UInt16) ∉ s

/-- **The fields survive.** What a client has accepted is read back as it
was given. What a launch dispatches is announced as well, with the same
action and fields and the daemon's generation. -/
def Request.Survives (J : JavaLibrary) (state : DeviceState) (generation : Int64) :
    Request → Prop
  | .client action f => ∀ sent text, clientAction action f = some sent →
    announcement state sent = some text →
    ∃ a, echo J generation text = some a ∧ a.Describes (state.generation + 1) action f
  | .launch apkPath packageName activityName applicationName => ∀ launch,
    launchApp generation apkPath packageName activityName applicationName = some launch →
    ∃ sent text a, launch.sent = some sent ∧ announcement state sent = some text ∧
      echo J launch.action.generation text = some a ∧ a.action = launch.action.action ∧
      a.fields = launch.action.fields ∧
      a.generation.toInt = (state.generation + 1).toNat

/-- The bytes of the fields. -/
def LaunchFields.size (f : LaunchFields Bytes) : ℕ :=
  (f.values.map List.length).sum

/-- **Where they do.** A client's payload is too long to be sent, or its
fields are text, there is room for the labels and the generation, and that
is a `long`. A launch has no package to launch. -/
def Request.Carried (state : DeviceState) : Request → Prop
  | .client action f =>
    kMaxPayloadSize.toNat < action.length + f.size + 5 ∨
    ((∀ v ∈ f.values, IsText v) ∧
      61 + digits (state.generation + 1).toNat + action.length + f.size ≤ 1024 * 1024 ∧
      (state.generation + 1).toNat < 2 ^ 63)
  | .launch _ packageName _ _ => clean packageName = []

/-! ## What is sent -/

variable {J : JavaLibrary} {s : DeviceState} {g : Int64}

/-- No call of `launchApp` reaches the daemon. -/
theorem request_deviceAction (payload : JavaString) :
    request (java "device-action") payload = none := by
  rw [request, if_pos (by decide)]

/-- The payload is its lines. -/
theorem clientAction_eq (action : Bytes) (f : LaunchFields Bytes) :
    clientAction action f =
      if kMaxPayloadSize.toNat < action.length + f.size + 5 then none
      else some (23, [newline].intercalate (action :: f.values)) := by
  have hlines : action ++ [newline] ++ f.tab ++ [newline] ++ f.apk ++ [newline] ++
      f.packageName ++ [newline] ++ f.activity ++ [newline] ++ f.application =
      [newline].intercalate (action :: f.values) := by
    simp [LaunchFields.values, List.intercalate]
  have hlen : ([newline].intercalate (action :: f.values)).length =
      action.length + f.size + 5 := by
    rw [← hlines]
    simp only [LaunchFields.size, LaunchFields.values, List.length_append, List.length_singleton,
      List.map_cons, List.map_nil, List.sum_cons, List.sum_nil]
    omega
  simp only [clientAction, hlines, hlen, gt_iff_lt]

theorem deviceActions_plain : ∀ action ∈ deviceActions, newline ∉ action := by decide

theorem deviceActions_text : ∀ action ∈ deviceActions, IsText action := by
  simp only [deviceActions, List.forall_mem_cons, ascii_eq_utf8]
  refine ⟨⟨_, rfl⟩, ⟨_, rfl⟩, ⟨_, rfl⟩, ⟨_, rfl⟩, ⟨_, rfl⟩, ⟨_, rfl⟩, ⟨_, rfl⟩, ⟨_, rfl⟩, ⟨_, rfl⟩,
    fun _ h => absurd h List.not_mem_nil⟩

/-- The daemon's state after an action. -/
def accepted (state : DeviceState) (action : Bytes) (f : LaunchFields Bytes) : DeviceState where
  generation := state.generation + 1
  action := action
  tab := f.tab
  apk := f.apk
  packageName := f.packageName
  activity := f.activity
  application := f.application

/-- **The daemon takes the lines apart** as they were put together. -/
theorem announcement_lines {action : Bytes} {f : LaunchFields Bytes}
    (hvalid : validDeviceAction action = true) (hplain : ∀ v ∈ f.values, newline ∉ v) :
    announcement s (23, [newline].intercalate (action :: f.values)) =
      some (deviceStateReply (accepted s action f)) := by
  have haction : newline ∉ action := deviceActions_plain action (of_decide_eq_true hvalid)
  have hlines : ([newline].intercalate (action :: f.values)).splitOn newline =
      action :: f.values :=
    List.splitOn_intercalate newline (List.forall_mem_cons.mpr ⟨haction, hplain⟩)
      (List.cons_ne_nil _ _)
  have hcode : Opcode.ofCode 23 = some .deviceAction := by decide
  rw [announcement, if_pos hcode, applyDeviceAction]
  simp only [hlines]
  change Option.map _ (if validDeviceAction action = true then _ else none) = _
  rw [if_pos hvalid]
  rfl

/-! ## What is read -/

/-- Two labels in ASCII, neither of which begins with the other. -/
def Apart (label key : String) : Prop :=
  IsAscii label ∧ IsAscii key ∧ ¬ascii label <+: ascii key ∧ ¬ascii key <+: ascii label

instance decidableApart (label key : String) : Decidable (Apart label key) :=
  inferInstanceAs (Decidable (_ ∧ _))

theorem isPrefixOf_label {label key : String} (value : JavaString) (h : Apart label key) :
    (java label).isPrefixOf (java key ++ value) = false := by
  obtain ⟨hlabelAscii, hkeyAscii, hlabel, hkey⟩ := h
  have hinj : Function.Injective UInt8.toUInt16 := fun _ _ => UInt8.toUInt16_inj.mp
  rw [java_of_ascii hlabelAscii, java_of_ascii hkeyAscii, Bool.eq_false_iff, ne_eq,
    List.isPrefixOf_iff_prefix]
  intro hprefix
  rcases List.prefix_or_prefix_of_prefix hprefix (List.prefix_append _ value) with hl | hl
  · exact hlabel ((List.prefix_map_iff_of_injective hinj).mp hl)
  · exact hkey ((List.prefix_map_iff_of_injective hinj).mp hl)

theorem isPrefixOf_self (label value : JavaString) :
    label.isPrefixOf (label ++ value) = true :=
  List.isPrefixOf_iff_prefix.mpr (List.prefix_append label value)

theorem drop_label {label : String} {k : ℕ} (value : JavaString)
    (h : IsAscii label ∧ (ascii label).length = k) :
    (java label ++ value).drop k = value := by
  refine List.drop_left' ?_
  rw [java_of_ascii h.1, List.length_map, h.2]

/-- A line of an announcement. -/
def keyed (label : String) (value : List Char) : List Char :=
  label.toList ++ value

theorem utf8_keyed (label : String) (value : List Char) :
    utf8 (keyed label value) = ascii label ++ utf8 value := by
  rw [keyed, utf8_append, ascii_eq_utf8]

theorem utf16_keyed (label : String) (value : List Char) :
    utf16 (keyed label value) = java label ++ utf16 value :=
  utf16_append _ _

/-- The lines of an announcement whose fields are text. -/
def replyLines (n : ℕ) (action : List Char) (f : LaunchFields (List Char)) : List (List Char) :=
  [keyed "generation=" (Nat.toDigits 10 n), keyed "action=" action, keyed "tab=" f.tab,
    keyed "apk=" f.apk, keyed "package=" f.packageName, keyed "activity=" f.activity,
    keyed "application=" f.application]

theorem deviceStateReply_text (state : DeviceState) (action : List Char)
    (f : LaunchFields (List Char)) :
    deviceStateReply (accepted state (utf8 action) (f.map utf8)) =
      [newline].intercalate ((replyLines (state.generation + 1).toNat action f).map utf8) := by
  have hlabels : ascii "\naction=" = newline :: ascii "action=" ∧
      ascii "\ntab=" = newline :: ascii "tab=" ∧ ascii "\napk=" = newline :: ascii "apk=" ∧
      ascii "\npackage=" = newline :: ascii "package=" ∧
      ascii "\nactivity=" = newline :: ascii "activity=" ∧
      ascii "\napplication=" = newline :: ascii "application=" := by decide +kernel
  obtain ⟨h₁, h₂, h₃, h₄, h₅, h₆⟩ := hlabels
  rw [deviceStateReply, h₁, h₂, h₃, h₄, h₅, h₆]
  simp only [replyLines, List.map_cons, List.map_nil, utf8_keyed, ← decimal_eq_utf8]
  simp [accepted, LaunchFields.map, List.intercalate]

theorem plain_replyLines (n : ℕ) {action : List Char} {f : LaunchFields (List Char)}
    (haction : '\n' ∉ action) (hplain : ∀ v ∈ f.values, '\n' ∉ v) :
    ∀ line ∈ replyLines n action f, '\n' ∉ line := by
  have hdigits : '\n' ∉ Nat.toDigits 10 n := fun h =>
    absurd (Nat.isDigit_of_mem_toDigits (by decide) (by decide) h) (by decide)
  have hbytes : ∀ label ∈ ["generation=", "action=", "tab=", "apk=", "package=", "activity=",
      "application="], newline ∉ ascii label := by decide +kernel
  have hlabels := fun label h => newline_not_mem_literal (hbytes label h)
  simp only [LaunchFields.values, List.forall_mem_cons] at hplain
  obtain ⟨htab, hapk, hpackage, hactivity, happlication, -⟩ := hplain
  simp only [replyLines, keyed, List.forall_mem_cons, List.mem_append, not_or]
  simp only [List.forall_mem_cons] at hlabels
  obtain ⟨h₁, h₂, h₃, h₄, h₅, h₆, h₇, -⟩ := hlabels
  exact ⟨⟨h₁, hdigits⟩, ⟨h₂, haction⟩, ⟨h₃, htab⟩, ⟨h₄, hapk⟩, ⟨h₅, hpackage⟩, ⟨h₆, hactivity⟩,
    ⟨h₇, happlication⟩, fun _ h => absurd h List.not_mem_nil⟩

/-- **What `parseAction` reads** from an announcement whose fields have no
line break. -/
theorem parseAction_reply (J : JavaLibrary) (state : DeviceState) (generation : Int64)
    {action : List Char} {f : LaunchFields (List Char)} (haction : '\n' ∉ action)
    (hplain : ∀ v ∈ f.values, '\n' ∉ v) :
    parseAction J generation
        (J.decodeUtf8 (deviceStateReply (accepted state (utf8 action) (f.map utf8)))) =
      { generation := if (state.generation + 1).toNat < 2 ^ 63 then
          Int64.ofInt (state.generation + 1).toNat else generation
        action := utf16 action
        fields := f.map utf16 } := by
  have hne : replyLines (state.generation + 1).toNat action f ≠ [] := List.cons_ne_nil _ _
  rw [deviceStateReply_text, parseAction,
    splitOn_decodeUtf8 J hne (plain_replyLines _ haction hplain), replyLines]
  simp only [List.map_cons, List.map_nil, utf16_keyed]
  simp (disch := decide +kernel) only [List.foldl_cons, List.foldl_nil, parseLine, isPrefixOf_self,
    isPrefixOf_label, if_true, Bool.false_eq_true, if_false, drop_label, parseLong_decimal]
  by_cases hlong : (state.generation + 1).toNat < 2 ^ 63
  · rw [if_pos hlong, if_pos hlong]
    rfl
  · rw [if_neg hlong, if_neg hlong]
    rfl

/-! ## The fields survive -/

theorem spells_iff_isText {s : JavaString} {bytes : Bytes} (h : Spells s bytes) : IsText bytes :=
  h.imp fun _ h => h.2

theorem spells_utf16 (text : List Char) : Spells (utf16 text) (utf8 text) :=
  ⟨text, rfl, rfl⟩

theorem plain_text {text : List Char} (h : newline ∉ utf8 text) : '\n' ∉ text :=
  fun hmem => h (newline_mem_utf8.mpr hmem)

/-- Fields of text are the bytes of their texts. -/
theorem exists_texts {f : LaunchFields Bytes} (h : ∀ v ∈ f.values, IsText v) :
    ∃ texts : LaunchFields (List Char), f = texts.map utf8 := by
  simp only [LaunchFields.values, List.forall_mem_cons] at h
  obtain ⟨⟨tab, htab⟩, ⟨apk, hapk⟩, ⟨package, hpackage⟩, ⟨activity, hactivity⟩,
    ⟨application, happlication⟩, -⟩ := h
  refine ⟨⟨tab, apk, package, activity, application⟩, ?_⟩
  rw [LaunchFields.map, ← htab, ← hapk, ← hpackage, ← hactivity, ← happlication]

/-- The room an announcement takes. -/
theorem length_accepted (state : DeviceState) (action : Bytes) (f : LaunchFields Bytes) :
    (deviceStateReply (accepted state action f)).length =
      61 + digits (state.generation + 1).toNat + action.length + f.size := by
  rw [length_deviceStateReply, DeviceState.size]
  simp only [accepted, LaunchFields.size, LaunchFields.values, List.map_cons, List.map_nil,
    List.sum_cons, List.sum_nil]
  omega

/-- A generation that is a `long` is read as it is, and no other is. -/
theorem toInt_generation {n : ℕ} (h : n < 2 ^ 63) : (Int64.ofInt n).toInt = n :=
  Int64.toInt_ofInt_of_le (by omega) (by omega)

/-- **What a client sends**: it is read back exactly where it is text, has
room and is numbered by a `long`. -/
theorem echo_describes_iff {action : Bytes} {f : LaunchFields Bytes}
    (hvalid : validDeviceAction action = true) (hplain : ∀ v ∈ f.values, newline ∉ v) :
    (∃ a, echo J g (deviceStateReply (accepted s action f)) = some a ∧
        a.Describes (s.generation + 1) action f) ↔
      (∀ v ∈ f.values, IsText v) ∧
        61 + digits (s.generation + 1).toNat + action.length + f.size ≤ 1024 * 1024 ∧
        (s.generation + 1).toNat < 2 ^ 63 := by
  rw [← length_accepted]
  constructor
  · rintro ⟨a, hecho, hd⟩
    refine ⟨?_, ?_, ?_⟩
    · simp only [LaunchFields.values, List.forall_mem_cons]
      exact ⟨spells_iff_isText hd.tab, spells_iff_isText hd.apk, spells_iff_isText hd.packageName,
        spells_iff_isText hd.activity, spells_iff_isText hd.application,
        fun _ h => absurd h List.not_mem_nil⟩
    · by_contra hroom
      rw [echo, readFrame, if_neg hroom] at hecho
      cases hecho
    · have hlt := a.generation.toInt_lt
      have hgen := hd.generation
      omega
  · rintro ⟨htext, hroom, hlong⟩
    obtain ⟨texts, rfl⟩ := exists_texts htext
    obtain ⟨atext, hatext⟩ := deviceActions_text action (of_decide_eq_true hvalid)
    subst hatext
    have haction : '\n' ∉ atext :=
      plain_text (deviceActions_plain _ (of_decide_eq_true hvalid))
    have hvalues : ∀ v ∈ texts.values, '\n' ∉ v := by
      intro v hv
      exact plain_text (hplain (utf8 v) (List.mem_map_of_mem (f := utf8) hv))
    refine ⟨_, by rw [echo, readFrame, if_pos hroom, Option.map_some,
      parseAction_reply J s g haction hvalues, if_pos hlong], ?_⟩
    exact {
      generation := toInt_generation hlong
      action := spells_utf16 _
      tab := spells_utf16 _
      apk := spells_utf16 _
      packageName := spells_utf16 _
      activity := spells_utf16 _
      application := spells_utf16 _ }

/-- **Which fields survive.** For every daemon and every framework, and
for all actions the daemon knows with fields that have no line break: what
a client sends survives exactly where its payload is refused for its
length, or its fields are text, the announcement has room and its
generation is a `long`; a launch does only where there is nothing to
launch. -/
theorem survives_iff (J : JavaLibrary) (state : DeviceState) (generation : Int64) (r : Request)
    (h : r.Plain) : r.Survives J state generation ↔ r.Carried state := by
  cases r with
  | client action f =>
    obtain ⟨hvalid, hplain⟩ := h
    have hiff := echo_describes_iff (J := J) (s := state) (g := generation) hvalid hplain
    have hannounce := announcement_lines (s := state) hvalid hplain
    have hsends := clientAction_eq action f
    constructor
    · intro hall
      by_cases hlong : kMaxPayloadSize.toNat < action.length + f.size + 5
      · exact .inl hlong
      · rw [if_neg hlong] at hsends
        exact .inr (hiff.mp (hall _ _ hsends hannounce))
    · rintro hcarried sent text hsent htext
      rcases hcarried with hlong | hcarried
      · rw [hsends, if_pos hlong] at hsent
        cases hsent
      · rw [hsends] at hsent
        split at hsent
        · cases hsent
        · obtain rfl := Option.some.inj hsent
          obtain rfl := Option.some.inj (hannounce.symm.trans htext)
          exact hiff.mpr hcarried
  | launch apkPath packageName activityName applicationName =>
    simp only [Request.Survives, Request.Carried, launchApp]
    by_cases hpackage : clean packageName = []
    · simp [hpackage]
    · -- The action is dispatched here, and nothing reaches the daemon.
      refine iff_of_false (fun hall => ?_) hpackage
      rw [if_neg hpackage] at hall
      obtain ⟨sent, -, -, hsent, -⟩ := hall _ rfl
      rw [request_deviceAction] at hsent
      cases hsent

/-- A library that knows the digits of ASCII only. -/
def asciiLibrary : JavaLibrary where
  malformed := fun _ => 0
  digit := fun u => if 48 ≤ u ∧ u ≤ 57 then some (u.toNat - 48) else none
  digit_ascii := fun _ _ => rfl

/-- A client asks for the settings in a tab of its own. -/
def openSettings : LaunchFields Bytes :=
  ⟨ascii "t", [], [], [], []⟩

theorem survives_openSettings :
    (Request.client (ascii "settings") openSettings).Survives asciiLibrary {} 0 := by
  refine (survives_iff asciiLibrary {} 0 (.client (ascii "settings") openSettings) ?_).mpr ?_
  · exact ⟨by decide, by decide⟩
  · refine .inr ⟨?_, by decide, by decide⟩
    simp only [LaunchFields.values, openSettings, List.forall_mem_cons, ascii_eq_utf8]
    exact ⟨⟨_, rfl⟩, ⟨[], rfl⟩, ⟨[], rfl⟩, ⟨[], rfl⟩, ⟨[], rfl⟩,
      fun _ h => absurd h List.not_mem_nil⟩

/-- **A launch nobody is told of.** The launcher starts an app: the action
is dispatched in this process, and the daemon hears nothing. -/
theorem launch_not_announced :
    (Request.launch none (some (java "app")) none none).Plain ∧
      ¬(Request.launch none (some (java "app")) none none).Survives asciiLibrary {} 0 := by
  have happ : (10 : UInt16) ∉ java "app" :=
    newline_mem_utf16.not.mpr (newline_not_mem_literal (by decide))
  refine ⟨by simpa [Request.Plain] using happ, fun hall => ?_⟩
  obtain ⟨sent, -, -, hsent, -⟩ := hall _ rfl
  rw [request_deviceAction] at hsent
  cases hsent

end Framework

end Muplar
