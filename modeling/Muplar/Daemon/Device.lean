import Mathlib.Data.Int.Notation
import Muplar.Common.Text
/-!
# muplard — the device

The last action on the device, the last input event and the last tab that
was closed. Each is replaced by a request that is understood and counted
by a generation of 64 bits; a request that is not understood changes
nothing.

Coordinates are single-precision numbers the daemon reads and writes and
never computes with, so all that is asked of them is how the library
reads and writes them.
-/

namespace Muplar

namespace Daemon

/-- The library's way with single-precision numbers: `std::stof`, with the
bytes it used, and `std::to_string`. -/
structure Floats where
  Float : Type
  zero : Float
  one : Float
  stof : Bytes → Option (Float × ℕ)
  toString : Float → Bytes

variable {F : Floats}

/-! ## Actions -/

/-- `DeviceState`. -/
structure DeviceState where
  generation : UInt64 := 0
  action : Bytes := []
  tab : Bytes := []
  apk : Bytes := []
  packageName : Bytes := []
  activity : Bytes := []
  application : Bytes := []
  deriving DecidableEq

/-- The actions of `valid_device_action`. -/
def deviceActions : List Bytes :=
  [ascii "back", ascii "home", ascii "recents", ascii "settings", ascii "install-apk",
   ascii "focus-tab", ascii "close-tab", ascii "package-installed", ascii "all-apps"]

/-- `valid_device_action`. -/
def validDeviceAction (action : Bytes) : Bool :=
  action ∈ deviceActions

/-- `apply_device_action`: fields that are missing are empty, and `none` is
a request that is refused. -/
def applyDeviceAction (state : DeviceState) (payload : Bytes) : Option DeviceState :=
  let fields := payload.splitOn newline
  let field := fun i => (fields[i]?).getD []
  if validDeviceAction (field 0) then
    some {
      generation := state.generation + 1
      action := field 0
      tab := field 1
      apk := field 2
      packageName := field 3
      activity := field 4
      application := field 5 }
  else none

/-- `device_state_reply`. -/
def deviceStateReply (state : DeviceState) : Bytes :=
  ascii "generation=" ++ decimal state.generation.toNat ++ ascii "\naction=" ++ state.action ++
    ascii "\ntab=" ++ state.tab ++ ascii "\napk=" ++ state.apk ++
    ascii "\npackage=" ++ state.packageName ++ ascii "\nactivity=" ++ state.activity ++
    ascii "\napplication=" ++ state.application

/-! ## Inputs -/

/-- `DeviceInputState`. -/
structure DeviceInputState (F : Floats) where
  generation : UInt64 := 0
  tab : Bytes := []
  type : ℤ := 0
  action : ℤ := 0
  source : ℤ := 0
  deviceId : ℤ := 0
  keyCode : ℤ := 0
  x : F.Float := F.zero
  y : F.Float := F.zero

/-- `parse_int32`: the whole text is one number of 32 bits. -/
def parseInt32 (value : Bytes) : Option ℤ := do
  let (converted, parsed) ← stol value
  if parsed = value.length ∧ -(2 ^ 31) ≤ converted ∧ converted ≤ 2 ^ 31 - 1 then some converted
    else none

/-- `parse_float`: the whole text is one number. -/
def parseFloat (F : Floats) (value : Bytes) : Option F.Float := do
  let (converted, parsed) ← F.stof value
  if parsed = value.length then some converted else none

/-- `apply_device_input`: eight fields, of one of the two kinds of
event. -/
def applyDeviceInput (state : DeviceInputState F) (payload : Bytes) :
    Option (DeviceInputState F) :=
  match payload.splitOn newline with
  | [tab, type, action, source, deviceId, keyCode, x, y] => do
    let type ← parseInt32 type
    let action ← parseInt32 action
    let source ← parseInt32 source
    let deviceId ← parseInt32 deviceId
    let keyCode ← parseInt32 keyCode
    let x ← parseFloat F x
    let y ← parseFloat F y
    if type ≠ 1 ∧ type ≠ 2 then none
    else some {
      generation := state.generation + 1
      tab, type, action, source, deviceId, keyCode, x, y }
  | _ => none

/-- `device_input_reply`. -/
def deviceInputReply (state : DeviceInputState F) : Bytes :=
  ascii "generation=" ++ decimal state.generation.toNat ++ ascii "\ntab=" ++ state.tab ++
    ascii "\ntype=" ++ decimalInt state.type ++ ascii "\naction=" ++ decimalInt state.action ++
    ascii "\nsource=" ++ decimalInt state.source ++
    ascii "\ndeviceId=" ++ decimalInt state.deviceId ++
    ascii "\nkeyCode=" ++ decimalInt state.keyCode ++
    ascii "\nx=" ++ F.toString state.x ++ ascii "\ny=" ++ F.toString state.y

/-! ## Closed tabs -/

/-- `TabFinishedState`. -/
structure TabFinishedState where
  generation : UInt64 := 0
  tab : Bytes := []
  deriving DecidableEq

/-- `apply_tab_finished`. -/
def applyTabFinished (state : TabFinishedState) (payload : Bytes) : Option TabFinishedState :=
  if payload.isEmpty then none
  else some { generation := state.generation + 1, tab := payload }

/-- `tab_finished_reply`. -/
def tabFinishedReply (state : TabFinishedState) : Bytes :=
  ascii "generation=" ++ decimal state.generation.toNat ++ ascii "\ntab=" ++ state.tab

end Daemon

end Muplar
