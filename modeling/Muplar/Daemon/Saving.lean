import Muplar.Daemon.SettingsFile
/-!
# muplard — saving the settings

`save_settings` writes a temporary file and renames it over the settings
file; where the rename fails it removes the settings file and tries once
more. The two requests that change a setting change the map first and save
it then, and neither puts the map back where the save fails.
-/

namespace Muplar

namespace Daemon

namespace Saving

/-! ## The file operations -/

/-- The settings file and the temporary file beside it. -/
structure Disk where
  file : Option Bytes
  temporary : Option Bytes
  deriving DecidableEq

/-- What becomes of the file operations of one save. -/
structure Fate where
  /-- the temporary file can be opened -/
  opens : Bool := true
  /-- what reaches it, where not all of it does -/
  cutShort : Option Bytes := none
  /-- the rename succeeds -/
  renames : Bool := true
  /-- the settings file can be removed -/
  removes : Bool := true
  /-- the second rename succeeds -/
  renamesAgain : Bool := true

/-- `fs::rename(temporary, path, ec)`: the disk, and `!ec`. -/
def Disk.rename (disk : Disk) (succeeds : Bool) : Disk × Bool :=
  if succeeds then ({ file := disk.temporary, temporary := none }, true) else (disk, false)

/-- `fs::remove(path, ec)`. -/
def Disk.remove (disk : Disk) (succeeds : Bool) : Disk :=
  if succeeds then { disk with file := none } else disk

/-- `save_settings`: the disk it leaves, and what it returns. -/
def saveSettings (disk : Disk) (settings : Settings) (fate : Fate) : Disk × Bool :=
  if fate.opens then
    match fate.cutShort with
    | some part => ({ disk with temporary := some part }, false)
    | none =>
      let written := { disk with temporary := some (settingsText settings) }
      let (renamed, done) := written.rename fate.renames
      if done then (renamed, true)
      else (renamed.remove fate.removes).rename fate.renamesAgain
  else (disk, false)

/-! ## The requests -/

/-- The settings in memory and on the disk. -/
structure Store where
  settings : Settings
  disk : Disk

/-- The two requests that change a setting. -/
inductive Request
  | putSetting (payload : Bytes)
  | setPermission (payload : Bytes)

/-- The key and the value a request asks to be stored, where it is
understood. -/
def Request.asks : Request → Option (Bytes × Bytes)
  | .putSetting payload => putRequest payload
  | .setPermission payload => (setRequest payload).map fun r => (r.key, r.value)

/-- The branch of the loop for `PutSetting`. -/
def servePutSetting (store : Store) (fate : Fate) (payload : Bytes) : Store × Bytes :=
  match putRequest payload with
  | some (key, value) =>
    let settings := store.settings.insert key value
    let (disk, valid) := saveSettings store.disk settings fate
    ({ settings, disk }, if valid then ascii "1" else ascii "0")
  | none => (store, ascii "0")

/-- The branch of the loop for `SetPermission`. -/
def serveSetPermission (store : Store) (fate : Fate) (payload : Bytes) : Store × Bytes :=
  match setRequest payload with
  | some r =>
    let settings := store.settings.insert r.key r.value
    let (disk, valid) := saveSettings store.disk settings fate
    ({ settings, disk }, if valid then ascii "1" else ascii "0")
  | none => (store, ascii "0")

/-- The store a request leaves, and the answer. -/
def serve (store : Store) (fate : Fate) : Request → Store × Bytes
  | .putSetting payload => servePutSetting store fate payload
  | .setPermission payload => serveSetPermission store fate payload

/-! ## What a save comes to -/

/-- The file operations that matter succeed: one of the two renames does,
with the whole text in the temporary file. -/
def Fate.saves (fate : Fate) : Bool :=
  fate.opens && fate.cutShort.isNone && (fate.renames || fate.renamesAgain)

/-- The settings file is removed and nothing takes its place. -/
def Fate.loses (fate : Fate) : Bool :=
  fate.opens && fate.cutShort.isNone && !fate.renames && fate.removes && !fate.renamesAgain

theorem saveSettings_eq (disk : Disk) (settings : Settings) (fate : Fate) :
    (saveSettings disk settings fate).2 = fate.saves ∧
      (saveSettings disk settings fate).1.file =
        if fate.saves then some (settingsText settings)
        else if fate.loses then none else disk.file := by
  obtain ⟨opens, cutShort, renames, removes, renamesAgain⟩ := fate
  cases opens with
  | false => exact ⟨rfl, rfl⟩
  | true =>
    cases cutShort with
    | some part => exact ⟨rfl, rfl⟩
    | none => cases renames <;> cases removes <;> cases renamesAgain <;> exact ⟨rfl, rfl⟩

/-- Both requests do the same with what they ask for. -/
theorem serve_eq (store : Store) (fate : Fate) (request : Request) :
    serve store fate request = match request.asks with
      | some (key, value) =>
        ({ settings := store.settings.insert key value
           disk := (saveSettings store.disk (store.settings.insert key value) fate).1 },
          if fate.saves then ascii "1" else ascii "0")
      | none => (store, ascii "0") := by
  cases request with
  | putSetting payload =>
    rw [serve, servePutSetting, Request.asks]
    cases putRequest payload with
    | none => rfl
    | some asked =>
      dsimp only
      rw [(saveSettings_eq _ _ _).1]
  | setPermission payload =>
    rw [serve, serveSetPermission, Request.asks]
    cases setRequest payload with
    | none => rfl
    | some r =>
      dsimp only [Option.map_some]
      rw [(saveSettings_eq _ _ _).1]

/-- The requests are served as the daemon's variables are, with the save
coming to what its file operations do. -/
theorem serve_variables (store : Store) (fate : Fate) (payload : Bytes) :
    putSetting store.settings fate.saves payload =
        ((serve store fate (.putSetting payload)).1.settings,
          (serve store fate (.putSetting payload)).2) ∧
      setPermission store.settings fate.saves payload =
        ((serve store fate (.setPermission payload)).1.settings,
          (serve store fate (.setPermission payload)).2) := by
  rw [serve_eq, serve_eq, putSetting, setPermission, Request.asks, Request.asks]
  constructor
  · cases putRequest payload <;> rfl
  · cases setRequest payload <;> rfl

/-! ## A save that fails -/

/-- **A request that fails changes nothing**: where the answer is zero, the
map is what it was, and so is the file. -/
def Harmless (store : Store) (fate : Fate) (request : Request) : Prop :=
  (serve store fate request).2 = ascii "0" →
    (∀ key, (serve store fate request).1.settings.lookup key = store.settings.lookup key) ∧
      (serve store fate request).1.disk.file = store.disk.file

/-- The request is not understood, or its save succeeds, or there is
nothing it could change: the map has the setting, and no file is lost. -/
def Spared (store : Store) (fate : Fate) (request : Request) : Prop :=
  match request.asks with
  | none => True
  | some (key, value) => fate.saves = true ∨
      store.settings.lookup key = some value ∧ (fate.loses = true → store.disk.file = none)

theorem lookup_insert_eq_iff {settings : Settings} {key value : Bytes} :
    (∀ k, (settings.insert key value).lookup k = settings.lookup k) ↔
      settings.lookup key = some value := by
  constructor
  · intro h
    rw [← h key, AList.lookup_insert]
  · intro h k
    by_cases hk : k = key
    · subst hk
      rw [AList.lookup_insert, h]
    · rw [AList.lookup_insert_ne hk]

/-- **When a request that fails changes nothing.** -/
theorem harmless_iff (store : Store) (fate : Fate) (request : Request) :
    Harmless store fate request ↔ Spared store fate request := by
  rw [Harmless, Spared, serve_eq]
  cases request.asks with
  | none => exact ⟨fun _ => trivial, fun _ _ => ⟨fun _ => rfl, rfl⟩⟩
  | some asked =>
    dsimp only
    rw [lookup_insert_eq_iff, (saveSettings_eq _ _ _).2]
    cases hsaves : fate.saves with
    | true =>
      refine ⟨fun _ => .inl rfl, fun _ h => ?_⟩
      exact absurd h (by decide)
    | false =>
      have hfile : (if fate.loses = true then none else store.disk.file) = store.disk.file ↔
          (fate.loses = true → store.disk.file = none) := by
        cases fate.loses with
        | false => exact ⟨fun _ h => (nomatch h), fun _ => rfl⟩
        | true => exact ⟨fun h _ => h.symm, fun h => (h rfl).symm⟩
      rw [if_neg Bool.false_ne_true, if_neg Bool.false_ne_true, hfile]
      exact ⟨fun h => .inr (h rfl), fun h _ => h.resolve_left Bool.false_ne_true⟩

/-- A save that fails at its first operation leaves the setting, or the
grant, in memory; one that fails at its last leaves no file. -/
theorem failed_save_changes :
    let store : Store :=
      { settings := ∅, disk := { file := some (settingsText ∅), temporary := none } }
    let put := Request.putSetting (ascii "theme\ndark")
    let grant := Request.setPermission (ascii "app\n0\nandroid.permission.CAMERA\ngrant")
    let unopened : Fate := { opens := false }
    let unrenamed : Fate := { renames := false, renamesAgain := false }
    (¬Harmless store unopened put ∧ ¬Harmless store unopened grant) ∧
      ¬Harmless store unrenamed put ∧ ¬Harmless store unrenamed grant := by
  refine ⟨⟨fun h => ?_, fun h => ?_⟩, fun h => ?_, fun h => ?_⟩
  · exact absurd ((h (by decide +kernel)).1 (ascii "theme")) (by decide +kernel)
  · exact absurd ((h (by decide +kernel)).1
      (ascii "permission:0:app:android.permission.CAMERA")) (by decide +kernel)
  · exact absurd (h (by decide +kernel)).2 (by decide +kernel)
  · exact absurd (h (by decide +kernel)).2 (by decide +kernel)

end Saving

end Daemon

end Muplar
