import Muplar.Daemon.Run
import Muplar.Daemon.Settings
import Muplar.Daemon.Surfaces
/-!
# muplard — the desk

The remaining variables of `main` and the handlers that work on them: one
branch for each opcode the routing does not take. What the handlers learn
from outside (whether the settings reached the disk, what the registry
file holds, the clock) differs each time they look, so the desk counts
its looks and takes what the environment shows at that time.
-/

namespace Muplar

namespace Daemon

open Machine

variable {F : Floats}

/-- What is there to be seen outside. -/
structure Outside where
  /-- `save_settings` succeeds -/
  saved : Bool
  /-- the registry file, where it can be read -/
  registry : Option Bytes
  /-- `registry_stamp` -/
  stamp : UInt64
  /-- the size of the file whose descriptor came with the message -/
  fileSize : Option Int64
  /-- milliseconds since the start -/
  uptime : Int64

/-- The process the loop runs in: its number, and what it sees at each
look. -/
structure Environment where
  pid : UInt64
  outside : ℕ → Outside

/-- The variables of `main` that do not route binder traffic. -/
structure Variables (F : Floats) where
  settings : Settings
  surfaces : Surfaces F
  surfaceGeneration : UInt64
  deviceState : DeviceState
  deviceInputState : DeviceInputState F
  tabFinishedState : TabFinishedState
  packageGeneration : UInt64
  previousRegistryStamp : UInt64
  /-- looks at the outside so far -/
  looks : ℕ

/-- The variables as `main` sets them up before the loop. -/
def Variables.start (loaded : Settings) (stamp : UInt64) : Variables F where
  settings := startSettings loaded
  surfaces := ∅
  surfaceGeneration := 0
  deviceState := {}
  deviceInputState := {}
  tabFinishedState := {}
  packageGeneration := 1
  previousRegistryStamp := stamp
  looks := 0

/-- `framework_service_state`. -/
def frameworkServiceState (services : AList fun _ : Bytes => ℤ) (generation : UInt64)
    (uptime : Int64) : Bytes :=
  ascii "state=ready\ngeneration=" ++ decimal generation.toNat ++
    ascii "\nuptimeMillis=" ++ decimalInt uptime.toInt ++
    ascii "\nservices=" ++ decimal services.keys.length ++
    ascii "\nserviceNames=" ++ serviceList services

/-- One line of `QueryTasks`. -/
def taskLine (info : ClientInfo) : Bytes :=
  info.appPackage ++ ascii "\t" ++ info.appActivity ++ ascii "\t" ++ decimalInt info.pid ++
    ascii "\t" ++ decimalInt info.uid

/-- `QueryTasks`: the clients that have said which app they run. -/
def queryTasks (clients : List Client) : Bytes :=
  (((clients.map Client.info).filter fun info => !info.appPackage.isEmpty).map taskLine).intersperse
    [newline] |>.flatten

/-- The answer to a request that counts up a generation, or is refused
with zero. -/
def generationReply {α : Type} (generation : α → UInt64) : Option α → Bytes
  | some state => decimal (generation state).toNat
  | none => ascii "0"

/-- The branches of the loop for the opcodes of the desk. -/
def serveVariables (env : Environment) (d : State (Variables F)) (info : ClientInfo)
    (op : Opcode) (payload : Bytes) : DeskReply (Variables F) :=
  let v := d.desk
  let seen := env.outside v.looks
  let desk := { v with looks := v.looks + 1 }
  match op with
  | .ping => { desk, info, reply := ascii "pong" }
  | .subscribePackages =>
    { desk, info := { info with packageSubscriber := true }
      reply := decimal v.packageGeneration.toNat }
  | .clientInfo =>
    { desk, info
      reply := ascii "pid=" ++ decimalInt info.pid ++ ascii "\nuid=" ++ decimalInt info.uid }
  | .queryPackages => { desk, info, reply := seen.registry.getD (ascii "count=0\n") }
  | .appSession =>
    let (appPackage, appActivity) := cut newline payload
    { desk, info := { info with appPackage, appActivity := appActivity.getD [] }
      reply := if appPackage.isEmpty then ascii "0" else ascii "1" }
  | .queryTasks => { desk, info, reply := queryTasks d.clients }
  | .fdEcho =>
    { desk, info, reply := (seen.fileSize.map fun size => decimalInt size.toInt).getD (ascii "-1") }
  | .getSetting => { desk, info, reply := getSetting v.settings payload }
  | .putSetting =>
    let (settings, reply) := putSetting v.settings seen.saved payload
    { desk := { desk with settings }, info, reply }
  | .serviceState =>
    { desk, info, reply := frameworkServiceState d.services env.pid seen.uptime }
  | .queryUsers =>
    let (settings, reply) := queryUsers v.settings
    { desk := { desk with settings }, info, reply }
  | .checkPermission => { desk, info, reply := checkPermission v.settings payload }
  | .setPermission =>
    let (settings, reply) := setPermission v.settings seen.saved payload
    { desk := { desk with settings }, info, reply }
  | .applySurfaceTransaction => match applySurfaceTransaction v.surfaces payload with
    | some surfaces =>
      { desk := { desk with surfaces, surfaceGeneration := v.surfaceGeneration + 1 }, info
        reply := decimal (v.surfaceGeneration + 1).toNat }
    | none => { desk, info, reply := ascii "0" }
  | .querySurfaces => { desk, info, reply := surfaceList v.surfaces v.surfaceGeneration }
  | .subscribeDeviceActions =>
    { desk, info := { info with deviceActionSubscriber := true }
      reply := deviceStateReply v.deviceState }
  | .subscribeDeviceInputs =>
    { desk, info := { info with deviceInputSubscriber := true }
      reply := deviceInputReply v.deviceInputState }
  | .deviceAction =>
    let applied := applyDeviceAction v.deviceState payload
    { desk := { desk with deviceState := applied.getD v.deviceState }, info
      reply := generationReply DeviceState.generation applied
      notice := applied.map fun state => (.deviceActionChanged, deviceStateReply state) }
  | .deviceInput =>
    let applied := applyDeviceInput v.deviceInputState payload
    { desk := { desk with deviceInputState := applied.getD v.deviceInputState }, info
      reply := generationReply DeviceInputState.generation applied
      notice := applied.map fun state => (.deviceInputChanged, deviceInputReply state) }
  | .queryDeviceState => { desk, info, reply := deviceStateReply v.deviceState }
  | .tabFinished =>
    let applied := applyTabFinished v.tabFinishedState payload
    { desk := { desk with tabFinishedState := applied.getD v.tabFinishedState }, info
      reply := generationReply TabFinishedState.generation applied }
  | .queryTabFinished => { desk, info, reply := tabFinishedReply v.tabFinishedState }
  -- the opcodes of the routing do not come here
  | _ => { desk, info, reply := [] }

/-- The end of a cycle: a stamp that is not the last one counts the
packages up. -/
def tickVariables (env : Environment) (v : Variables F) : Variables F × Option Bytes :=
  let stamp := (env.outside v.looks).stamp
  let v := { v with looks := v.looks + 1 }
  if stamp ≠ v.previousRegistryStamp then
    ({ v with previousRegistryStamp := stamp, packageGeneration := v.packageGeneration + 1 },
      some (decimal (v.packageGeneration + 1).toNat))
  else (v, none)

/-- The desk of `main`. -/
def desk (F : Floats) (env : Environment) : Desk (Variables F) where
  serve := serveVariables env
  tick := tickVariables env

/-- The daemon as `main` starts its loop. -/
def State.boot (loaded : Settings) (stamp : UInt64) : State (Variables F) :=
  State.start (Variables.start loaded stamp)

/-- What the loop can meet with in a run from there. -/
def Possible (F : Floats) (env : Environment) (loaded : Settings) (stamp : UInt64)
    (es : List Event) : Prop :=
  Meets (State.next (desk F env)) State.Admits (State.boot loaded stamp) es

instance (F : Floats) (env : Environment) (loaded : Settings) (stamp : UInt64) (es : List Event) :
    Decidable (Possible F env loaded stamp es) :=
  decidableMeets (State.boot loaded stamp) es

/-- The daemon at the end of the run. -/
def stateAfter (F : Floats) (env : Environment) (loaded : Settings) (stamp : UInt64)
    (es : List Event) : State (Variables F) :=
  run (State.next (desk F env)) (State.boot loaded stamp) es

theorem Possible.nodup {F : Floats} {env : Environment} {loaded : Settings} {stamp : UInt64}
    {es : List Event} (h : Possible F env loaded stamp es) :
    (stateAfter F env loaded stamp es).fds.Nodup :=
  (throughout_of_invariant (K := fun d => d.fds.Nodup) (fun _ _ hnd hadm => nodup_next _ hnd hadm)
    List.nodup_nil h).last

/-- Whole numbers, read and written as the library does where they are
exact. -/
def wholeNumbers : Floats where
  Float := ℤ
  zero := 0
  one := 1
  stof := stol
  toString x := decimalInt x ++ ascii ".000000"

/-- An environment where nothing happens. -/
def stillness : Environment where
  pid := 1
  outside _ := { saved := true, registry := none, stamp := 0, fileSize := none, uptime := 0 }

end Daemon

end Muplar
