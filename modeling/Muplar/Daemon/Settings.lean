import Muplar.Common.KeyMap
import Muplar.Common.Text
/-!
# muplard — settings and permissions

One map holds the settings clients store, the list of users and the
permissions that were decided, each under a key of its own making. The
requests that read and write it are functions of the map and the payload;
whether the map then reaches the disk only decides the answer.
-/

namespace Muplar

namespace Daemon

/-- The `settings` map. -/
abbrev Settings := AList fun _ : Bytes => Bytes

/-- The key of the user list. -/
def usersKey : Bytes := ascii "users"

/-- `user_exists`: the users are separated by commas. -/
def userExists (settings : Settings) (user : Bytes) : Bool :=
  user ∈ ((settings.lookup usersKey).getD (ascii "0")).splitOn 44

/-- `permission_key`. -/
def permissionKey (package user permission : Bytes) : Bytes :=
  ascii "permission:" ++ user ++ ascii ":" ++ package ++ ascii ":" ++ permission

/-- The permissions nobody has unless they were granted. -/
def dangerous : List Bytes :=
  [ascii "android.permission.CAMERA",
   ascii "android.permission.RECORD_AUDIO",
   ascii "android.permission.READ_CONTACTS",
   ascii "android.permission.WRITE_CONTACTS",
   ascii "android.permission.ACCESS_FINE_LOCATION",
   ascii "android.permission.ACCESS_COARSE_LOCATION",
   ascii "android.permission.READ_EXTERNAL_STORAGE",
   ascii "android.permission.WRITE_EXTERNAL_STORAGE"]

/-- `permission_granted`. -/
def permissionGranted (settings : Settings) (package user permission : Bytes) : Bool :=
  match settings.lookup (permissionKey package user permission) with
  | some value => value = ascii "grant"
  | none => userExists settings user && !package.isEmpty && !permission.isEmpty &&
      permission ∉ dangerous

/-! ## The requests -/

/-- The setting a `PutSetting` payload asks for: a key that is not empty,
and the rest after the first newline. -/
def putRequest (payload : Bytes) : Option (Bytes × Bytes) :=
  match cut newline payload with
  | (key, some value) => if key.isEmpty then none else some (key, value)
  | (_, none) => none

/-- The fields of a `CheckPermission` payload; what is missing is empty. -/
def checkRequest (payload : Bytes) : Bytes × Bytes × Bytes :=
  let (package, rest) := cut newline payload
  let (user, rest) := match rest with
    | some rest => cut newline rest
    | none => ([], none)
  (package, user, rest.getD [])

/-- A decision about a permission. -/
structure PermissionRequest where
  package : Bytes
  user : Bytes
  permission : Bytes
  value : Bytes
  deriving DecidableEq

/-- The decision a `SetPermission` payload asks for: four fields, none of
the first three empty, and one of two values. -/
def setRequest (payload : Bytes) : Option PermissionRequest :=
  match cut newline payload with
  | (_, none) => none
  | (package, some rest) => match cut newline rest with
    | (_, none) => none
    | (user, some rest) => match cut newline rest with
      | (_, none) => none
      | (permission, some value) =>
        if !package.isEmpty && !user.isEmpty && !permission.isEmpty &&
            (value = ascii "grant" || value = ascii "deny") then
          some { package, user, permission, value }
        else none

/-- Where a decision is stored. -/
def PermissionRequest.key (r : PermissionRequest) : Bytes :=
  permissionKey r.package r.user r.permission

/-- `GetSetting`. -/
def getSetting (settings : Settings) (payload : Bytes) : Bytes :=
  (settings.lookup payload).getD []

/-- `PutSetting`: the map is written before the file is, and stays so
where the file cannot be. -/
def putSetting (settings : Settings) (saved : Bool) (payload : Bytes) : Settings × Bytes :=
  match putRequest payload with
  | some (key, value) => (settings.insert key value, if saved then ascii "1" else ascii "0")
  | none => (settings, ascii "0")

/-- `QueryUsers`: `settings["users"]`, which makes the entry where there is
none. -/
def queryUsers (settings : Settings) : Settings × Bytes :=
  match settings.lookup usersKey with
  | some users => (settings, users)
  | none => (settings.insert usersKey [], [])

/-- `CheckPermission`. -/
def checkPermission (settings : Settings) (payload : Bytes) : Bytes :=
  let (package, user, permission) := checkRequest payload
  if permissionGranted settings package user permission then ascii "0" else ascii "-1"

/-- `SetPermission`. -/
def setPermission (settings : Settings) (saved : Bool) (payload : Bytes) : Settings × Bytes :=
  match setRequest payload with
  | some r => (settings.insert r.key r.value, if saved then ascii "1" else ascii "0")
  | none => (settings, ascii "0")

/-- The settings as the loop starts with them: those of the file, and the
first user where the file has no list. -/
def startSettings (loaded : Settings) : Settings :=
  if usersKey ∈ loaded then loaded else loaded.insert usersKey (ascii "0")

theorem mem_startSettings (loaded : Settings) : usersKey ∈ startSettings loaded := by
  rw [startSettings]
  by_cases h : usersKey ∈ loaded
  · rw [if_pos h]
    exact h
  · rw [if_neg h]
    exact (AList.mem_insert loaded).mpr (Or.inl rfl)

end Daemon

end Muplar
