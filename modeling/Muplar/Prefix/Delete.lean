import Muplar.Prefix.Registry
/-!
# Prefixes — deleting one

`delete_prefix` takes a root and a name from its spec. It goes ahead when
the root is a prefix, or in the prefix store, or when some entry of the
registry has the root or the name; afterwards it drops the entries that
have the root or the name.

The name of a path is its last component, which says nothing about the
instance of that name. So a path authorises its removal by bearing the
name of an instance that lives elsewhere, and that instance is
unregistered with it. `delete_safe_iff` says exactly when none of this
happens.
-/

namespace Muplar

namespace Prefix

/-! ## The file system -/

/-- A prefix directory of the store, with the name its `prefix.toml`
has. -/
structure Found where
  root : Path
  storedName : Option Bytes
  deriving DecidableEq

/-- What `delete_prefix` can see of the file system: the registry file
(absent, unreadable or a list), the prefixes in the store, and whether
the registry can be written; `removed` records the calls of
`remove_all`. -/
structure Disk where
  registry : Option (Except Bytes (List Entry))
  found : Except Bytes (List Found)
  writeError : Option Bytes
  removed : List Path

/-- What a call of `remove_all` does. It may fail half-way, and the
registry file may be among what it takes. -/
structure Removal where
  error : Option Bytes
  keepsRegistry : Bool
  found : Except Bytes (List Found)
  writeError : Option Bytes

/-- The file system's part in the matter. -/
structure FileSystem where
  isPrefixRoot : Path → Bool
  removeAll : Path → Removal

/-- An entry of `migrate_legacy_prefixes`. -/
def Found.entry (env : Env) (f : Found) : Entry :=
  { name := (nonEmpty f.storedName).getD (prefixNameFromRoot f.root)
    root := absoluteNormalPath env f.root }

/-- The registry file of a disk. -/
def files (env : Env) : Files Disk where
  load := do
    let _ ← Op.lift (muplarHome env)
    match (← get).registry with
    | none => return none
    | some (.ok entries) => return some entries
    | some (.error e) => throw e
  legacy := do
    let _ ← Op.lift (prefixStore env)
    let found ← Op.lift (← get).found
    return found.map (·.entry env)
  store entries := do
    match (← get).writeError with
    | some e => throw e
    | none => modify fun d => { d with registry := some (.ok entries) }

/-- `remove_all`. -/
def removeAll (fs : FileSystem) (root : Path) : Op Disk (Option Bytes) := do
  let removal := fs.removeAll root
  modify fun d =>
    { registry := if removal.keepsRegistry then d.registry else none
      found := removal.found
      writeError := removal.writeError
      removed := d.removed ++ [root] }
  return removal.error

/-- The name `delete_prefix` takes from its spec. -/
def specName (spec : Bytes) (root : Path) : Bytes :=
  if looksLikePath spec then prefixNameFromRoot root else spec

/-- The test of `delete_prefix`. -/
def isDeletable (env : Env) (fs : FileSystem) (root : Path) (registered : Bool) :
    Except Bytes Bool :=
  if fs.isPrefixRoot root || registered then .ok true
  else isManagedPrefixStoreChild env root

/-- `delete_prefix`. -/
def deletePrefix (env : Env) (fs : FileSystem) (spec : Bytes) : Op Disk Unit := do
  let root ← resolvePrefixRoot env (files env) spec
  let name := specName spec root
  let registered ← isRegisteredInstanceRootOrName env (files env) root name
  if !(← Op.lift (isDeletable env fs root registered)) then
    throw (ascii "not a Muplar prefix: " ++ root.string)
  match ← removeAll fs root with
  | some message => throw (ascii "unable to delete prefix " ++ root.string ++ ascii ": " ++ message)
  | none => unregisterInstanceRootOrName env (files env) root name

/-! ## What a call may do -/

/-- The instances a disk has: the registry's, or those it would be made
from. -/
def instances (env : Env) (d : Disk) : List Entry :=
  match d.registry with
  | some (.ok entries) => entries
  | some (.error _) => []
  | none => match d.found with
    | .ok found => found.map (·.entry env)
    | .error _ => []

/-- The disk after `delete_prefix`, with the removals it made. -/
def deleted (env : Env) (fs : FileSystem) (spec : Bytes) (d : Disk) : Disk :=
  (Op.exec (deletePrefix env fs spec) { d with removed := [] }).2

/-- A directory that may be removed: a prefix, the root of an instance, or
a child of the prefix store. -/
def Authorised (env : Env) (fs : FileSystem) (d : Disk) (root : Path) : Prop :=
  fs.isPrefixRoot root ∨ (∃ e ∈ instances env d, dirOf env e.root = dirOf env root) ∨
    ∃ store, prefixStore env = .ok store ∧ dirOf env root ≠ [] ∧
      (dirOf env root).dropLast = dirOf env store

/-- An instance that is still there: an entry with its name, for its
directory. -/
def Kept (env : Env) (e : Entry) (entries : List Entry) : Prop :=
  ∃ e' ∈ entries, e'.name = e.name ∧ dirOf env e'.root = dirOf env e.root

/-- **A safe deletion.** Only authorised directories are removed, and only
instances that lived in one of them are dropped. -/
structure SafeDelete (env : Env) (fs : FileSystem) (spec : Bytes) (d : Disk) : Prop where
  authorised : ∀ root ∈ (deleted env fs spec d).removed, Authorised env fs d root
  others : ∀ e ∈ instances env d,
    (∃ root ∈ (deleted env fs spec d).removed, dirOf env e.root = dirOf env root) ∨
      Kept env e (instances env (deleted env fs spec d))

/-! ## Reading the registry -/

variable {env : Env} {fs : FileSystem} {spec : Bytes} {d : Disk}

/-- The registry can be read: it is a list, or it is absent and can be
made. -/
def Readable (env : Env) (d : Disk) : Prop :=
  (∃ home, muplarHome env = .ok home) ∧
    match d.registry with
    | some (.ok _) => True
    | some (.error _) => False
    | none => (∃ found, d.found = .ok found) ∧ d.writeError = none

/-- The disk once the registry has been read. -/
def Disk.settled (env : Env) (d : Disk) : Disk :=
  { d with registry := some (.ok (instances env d)) }

theorem prefixStore_of_home {home : Path} (h : muplarHome env = .ok home) :
    prefixStore env = .ok (home.join (.ofString (ascii "prefixes"))) := by
  rw [prefixStore, h]
  rfl

theorem exec_load {home : Path} (h : muplarHome env = .ok home) :
    Op.exec (files env).load d = match d.registry with
      | none => (.ok none, d)
      | some (.ok entries) => (.ok (some entries), d)
      | some (.error e) => (.error e, d) := by
  simp only [files, Op.exec_bind, Op.exec_lift, Op.exec_get, h]
  rcases d.registry with _ | _ | _
  · exact Op.exec_pure none d
  · exact Op.exec_throw _ d
  · exact Op.exec_pure _ d

theorem exec_store (env : Env) (entries : List Entry) :
    Op.exec ((files env).store entries) d = match d.writeError with
      | some e => (.error e, d)
      | none => (.ok (), { d with registry := some (.ok entries) }) := by
  obtain ⟨registry, found, writeError, removed⟩ := d
  cases writeError with
  | none => rfl
  | some e => rfl

theorem exec_legacy {home : Path} (h : muplarHome env = .ok home) :
    Op.exec (files env).legacy d = match d.found with
      | .ok found => (.ok (found.map (·.entry env)), d)
      | .error e => (.error e, d) := by
  simp only [files, Op.exec_bind, Op.exec_lift, Op.exec_get, prefixStore_of_home h]
  cases d.found with
  | ok found => exact Op.exec_pure _ d
  | error e => rfl

/-- Instances from the store have normal roots. -/
theorem normal_entries (found : List Found) :
    (found.map (·.entry env)).map (fun e => { e with root := absoluteNormalPath env e.root }) =
      found.map (·.entry env) := by
  rw [List.map_map]
  apply List.map_congr_left
  intro f _
  simp [Found.entry]

/-- **Reading the registry.** It gives the instances and leaves them in
the file, or it throws and leaves everything as it was. -/
theorem exec_read (env : Env) (d : Disk) :
    (Readable env d ∧ Op.exec (readInstanceRegistry env (files env)) d =
      (.ok (instances env d), d.settled env)) ∨
    (¬Readable env d ∧ ∃ e, Op.exec (readInstanceRegistry env (files env)) d = (.error e, d)) := by
  unfold Readable
  cases hhome : muplarHome env with
  | error e =>
    right
    refine ⟨fun h => ?_, e, ?_⟩
    · obtain ⟨⟨home, hbad⟩, -⟩ := h
      exact nomatch hbad
    · simp [readInstanceRegistry, files, Op.exec_bind, hhome]
  | ok home =>
    obtain ⟨registry, found, writeError, removed⟩ := d
    have hload := exec_load (d := ⟨registry, found, writeError, removed⟩) hhome
    have hlegacy := exec_legacy (d := ⟨registry, found, writeError, removed⟩) hhome
    rcases registry with _ | e | entries
    · -- the file is absent, and made from the store
      rw [readInstanceRegistry, Op.exec_bind_ok hload]
      cases found with
      | error e =>
        right
        refine ⟨fun h => ?_, e, Op.exec_bind_error hlegacy _⟩
        obtain ⟨-, ⟨found, hbad⟩, -⟩ := h
        exact nomatch hbad
      | ok found =>
        have hstore := exec_store (d := ⟨none, .ok found, writeError, removed⟩) env
          (found.map (·.entry env))
        simp only [Op.exec_bind_ok hlegacy, writeInstanceRegistry, normal_entries]
        cases writeError with
        | some e =>
          right
          refine ⟨fun h => ?_, e, Op.exec_bind_error hstore _⟩
          exact nomatch h.2.2
        | none =>
          left
          refine ⟨⟨⟨home, rfl⟩, ⟨found, rfl⟩, rfl⟩, ?_⟩
          rw [Op.exec_bind_ok hstore]
          rfl
    · right
      exact ⟨fun h => h.2, e, Op.exec_bind_error hload _⟩
    · left
      refine ⟨⟨⟨home, rfl⟩, trivial⟩, ?_⟩
      rw [readInstanceRegistry, Op.exec_bind_ok hload]
      rfl

@[simp] theorem instances_settled : instances env (d.settled env) = instances env d := rfl

@[simp] theorem settled_settled : (d.settled env).settled env = d.settled env := rfl

@[simp] theorem removed_settled : (d.settled env).removed = d.removed := rfl

theorem Readable.settled (h : Readable env d) : Readable env (d.settled env) :=
  ⟨h.1, trivial⟩

/-! ## From the spec to the removal -/

/-- What `resolve_prefix_root` makes of a spec, given the instances. -/
def resolved (env : Env) (entries : List Entry) (spec : Bytes) : Except Bytes Path :=
  if spec = [] then do return (← prefixStore env).join (.ofString (ascii "default"))
  else if looksLikePath spec then do return absoluteNormalPath env (← expandUserPath env spec)
  else match entries.find? (·.name = spec) with
    | some entry => .ok (absoluteNormalPath env entry.root)
    | none => do return (← prefixStore env).join (.ofString spec)

theorem exec_lift_map {α β : Type} (x : Except Bytes α) (f : α → β) (d : Disk) :
    Op.exec (do return f (← Op.lift x) : Op Disk β) d = (do return f (← x), d) := by
  rw [Op.exec_bind, Op.exec_lift]
  cases x with
  | ok a => rfl
  | error e => rfl

/-- Resolving a spec at most reads the registry. -/
theorem exec_resolve (env : Env) (d : Disk) (spec : Bytes) :
    ∃ r d', Op.exec (resolvePrefixRoot env (files env) spec) d = (r, d') ∧
      (d' = d ∨ Readable env d ∧ d' = d.settled env) ∧
      (Readable env d → r = resolved env (instances env d) spec) := by
  unfold resolvePrefixRoot resolved
  by_cases hempty : spec = []
  · refine ⟨_, d, ?_, Or.inl rfl, fun _ => rfl⟩
    simp only [if_pos hempty]
    exact exec_lift_map _ _ d
  simp only [if_neg hempty]
  by_cases hpath : looksLikePath spec
  · refine ⟨_, d, ?_, Or.inl rfl, fun _ => rfl⟩
    simp only [if_pos hpath]
    exact exec_lift_map _ _ d
  simp only [if_neg hpath]
  rcases exec_read env d with ⟨hread, hexec⟩ | ⟨hunread, e, hexec⟩
  · have hfind : Op.exec (findRegisteredInstance env (files env) spec) d =
        (.ok ((instances env d).find? (·.name = spec)), d.settled env) := by
      rw [findRegisteredInstance, Op.exec_bind_ok hexec]
      rfl
    refine ⟨_, d.settled env, ?_, Or.inr ⟨hread, rfl⟩, fun _ => rfl⟩
    rw [Op.exec_bind_ok hfind]
    cases (instances env d).find? (·.name = spec) with
    | some entry => rfl
    | none => exact exec_lift_map _ _ _
  · have hfind : Op.exec (findRegisteredInstance env (files env) spec) d = (.error e, d) :=
      Op.exec_bind_error hexec _
    exact ⟨.error e, d, Op.exec_bind_error hfind _, Or.inl rfl, fun hread => absurd hread hunread⟩

/-- The instances a removal leaves. -/
def Removal.leaves (env : Env) (r : Removal) (entries : List Entry) : List Entry :=
  if r.keepsRegistry then entries
  else match r.found with
    | .ok found => found.map (·.entry env)
    | .error _ => []

/-- The removal succeeds and the registry can be rewritten after it. -/
def Removal.Completes (r : Removal) : Prop :=
  r.error = none ∧ r.writeError = none ∧ (r.keepsRegistry ∨ ∃ found, r.found = .ok found)

/-- The call comes to `remove_all` with this root. -/
structure Removes (env : Env) (fs : FileSystem) (spec : Bytes) (d : Disk) (root : Path) :
    Prop where
  readable : Readable env d
  root_eq : resolved env (instances env d) spec = .ok root
  deletable : isDeletable env fs root
    ((instances env d).any (·.isRootOrName env root (specName spec root))) = .ok true

/-- The disk a removal leaves. -/
def Removal.apply (r : Removal) (root : Path) (d : Disk) : Disk where
  registry := if r.keepsRegistry then d.registry else none
  found := r.found
  writeError := r.writeError
  removed := d.removed ++ [root]

/-- The last part of `delete_prefix`, from `remove_all` on. -/
def finish (env : Env) (fs : FileSystem) (root : Path) (name : Bytes) : Op Disk Unit := do
  match ← removeAll fs root with
  | some message => throw (ascii "unable to delete prefix " ++ root.string ++ ascii ": " ++ message)
  | none => unregisterInstanceRootOrName env (files env) root name

/-- **The two ends of a call.** It comes to `remove_all`, with the
registry read, or it throws and has at most read the registry. -/
theorem exec_delete (env : Env) (fs : FileSystem) (spec : Bytes) (d : Disk) :
    (∃ root, Removes env fs spec d root ∧ Op.exec (deletePrefix env fs spec) d =
      Op.exec (finish env fs root (specName spec root)) (d.settled env)) ∨
    ((¬∃ root, Removes env fs spec d root) ∧
      ((Op.exec (deletePrefix env fs spec) d).2 = d ∨
        (Op.exec (deletePrefix env fs spec) d).2 = d.settled env)) := by
  obtain ⟨r, d₁, hresolve, hstate, hr⟩ := exec_resolve env d spec
  unfold deletePrefix
  cases r with
  | error e =>
    right
    rw [Op.exec_bind_error hresolve]
    refine ⟨?_, hstate.imp id And.right⟩
    rintro ⟨root, hroot⟩
    exact nomatch (hr hroot.readable).trans hroot.root_eq
  | ok root =>
    rw [Op.exec_bind_ok hresolve]
    by_cases hread : Readable env d
    · have hagain : Op.exec (readInstanceRegistry env (files env)) d₁ =
          (.ok (instances env d), d.settled env) := by
        rcases hstate with rfl | ⟨-, rfl⟩
        · exact (exec_read env d₁).elim And.right fun h => absurd hread h.1
        · exact (exec_read env _).elim And.right fun h => absurd hread.settled h.1
      have hregistered : Op.exec (isRegisteredInstanceRootOrName env (files env) root
          (specName spec root)) d₁ =
          (.ok ((instances env d).any (·.isRootOrName env root (specName spec root))),
            d.settled env) := by
        rw [isRegisteredInstanceRootOrName, Op.exec_bind_ok hagain]
        rfl
      simp only [Op.exec_bind_ok hregistered]
      rw [Op.exec_bind, Op.exec_lift]
      have hroot : ∀ root', Removes env fs spec d root' → root' = root := by
        intro root' h
        exact Except.ok.inj (h.root_eq.symm.trans (hr hread).symm)
      cases hguard : isDeletable env fs root
          ((instances env d).any (·.isRootOrName env root (specName spec root))) with
      | error e =>
        right
        refine ⟨?_, Or.inr rfl⟩
        rintro ⟨root', h⟩
        obtain rfl := hroot root' h
        exact nomatch hguard.symm.trans h.deletable
      | ok passed =>
        cases passed with
        | false =>
          right
          refine ⟨?_, Or.inr rfl⟩
          rintro ⟨root', h⟩
          obtain rfl := hroot root' h
          exact nomatch hguard.symm.trans h.deletable
        | true =>
          left
          exact ⟨root, ⟨hread, (hr hread).symm, hguard⟩, rfl⟩
    · right
      -- the registry has to be read before anything is removed
      obtain rfl : d₁ = d := hstate.resolve_right fun h => hread h.1
      obtain ⟨e, hfail⟩ : ∃ e, Op.exec (readInstanceRegistry env (files env)) d₁ = (.error e, d₁) :=
        (exec_read env d₁).elim (fun h => absurd h.1 hread) And.right
      have hregistered : Op.exec (isRegisteredInstanceRootOrName env (files env) root
          (specName spec root)) d₁ = (.error e, d₁) :=
        Op.exec_bind_error hfail _
      refine ⟨fun ⟨root, h⟩ => hread h.readable, Or.inl ?_⟩
      simp only [Op.exec_bind_error hregistered]

theorem instances_apply (env : Env) (r : Removal) (root : Path) (d : Disk) :
    instances env (r.apply root (d.settled env)) = r.leaves env (instances env d) := by
  unfold Removal.leaves Removal.apply
  by_cases hkeeps : r.keepsRegistry
  · rw [if_pos hkeeps, if_pos hkeeps]
    rfl
  · rw [if_neg hkeeps, if_neg hkeeps]
    rfl

/-- Where the registry can be read after a removal. -/
theorem readable_apply {home : Path} (hhome : muplarHome env = .ok home) (r : Removal)
    (root : Path) (d : Disk) :
    Readable env (r.apply root (d.settled env)) ↔
      r.keepsRegistry ∨ (∃ found, r.found = .ok found) ∧ r.writeError = none := by
  unfold Readable Removal.apply
  by_cases hkeeps : r.keepsRegistry
  · simp [hkeeps, hhome, Disk.settled]
  · simp [hkeeps, hhome]

/-- The entries a completed call writes back. -/
def remaining (env : Env) (root : Path) (name : Bytes) (entries : List Entry) : List Entry :=
  (entries.filter fun e => !e.isRootOrName env root name).map fun e =>
    { e with root := absoluteNormalPath env e.root }

/-- **The end of a deletion.** One directory is removed; of what the
removal leaves, the entries with the root or the name are dropped if the
call completes, and none otherwise. -/
theorem finish_instances {home : Path} (hhome : muplarHome env = .ok home) (fs : FileSystem)
    (root : Path) (name : Bytes) (d : Disk) :
    let r := fs.removeAll root
    let d' := (Op.exec (finish env fs root name) (d.settled env)).2
    d'.removed = d.removed ++ [root] ∧
      (r.Completes → instances env d' = remaining env root name (r.leaves env (instances env d))) ∧
      (¬r.Completes → instances env d' = r.leaves env (instances env d)) := by
  intro r d'
  have hremove : Op.exec (removeAll fs root) (d.settled env) =
      (.ok r.error, r.apply root (d.settled env)) := rfl
  have hleaves := instances_apply env r root d
  have hreadable := readable_apply hhome r root d
  have hd' : d' = (Op.exec (finish env fs root name) (d.settled env)).2 := rfl
  rw [finish, Op.exec_bind_ok hremove] at hd'
  cases herror : r.error with
  | some message =>
    rw [herror] at hd'
    have hend : d' = r.apply root (d.settled env) := hd'
    refine ⟨by rw [hend]; rfl, fun hc => ?_, fun _ => by rw [hend, hleaves]⟩
    exact nomatch herror.symm.trans hc.1
  | none =>
    rw [herror] at hd'
    change d' = (Op.exec (unregisterInstanceRootOrName env (files env) root name)
      (r.apply root (d.settled env))).2 at hd'
    rw [unregisterInstanceRootOrName] at hd'
    rcases exec_read env (r.apply root (d.settled env)) with ⟨hread, hexec⟩ | ⟨hunread, e, hexec⟩
    · rw [Op.exec_bind_ok hexec, writeInstanceRegistry, exec_store, hleaves] at hd'
      have hwriteError : (Disk.settled env (r.apply root (d.settled env))).writeError =
          r.writeError := rfl
      rw [hwriteError] at hd'
      cases hwrite : r.writeError with
      | some e =>
        rw [hwrite] at hd'
        refine ⟨by rw [hd']; rfl, fun hc => ?_, fun _ => by rw [hd', instances_settled, hleaves]⟩
        exact nomatch hwrite.symm.trans hc.2.1
      | none =>
        rw [hwrite] at hd'
        refine ⟨by rw [hd']; rfl, fun _ => by rw [hd']; rfl, fun hnot => absurd ?_ hnot⟩
        exact ⟨herror, hwrite, (hreadable.mp hread).imp id And.left⟩
    · rw [Op.exec_bind_error hexec] at hd'
      have hend : d' = r.apply root (d.settled env) := hd'
      refine ⟨by rw [hend]; rfl, fun hc => absurd ?_ hunread, fun _ => by rw [hend, hleaves]⟩
      exact hreadable.mpr (hc.2.2.imp id fun hfound => ⟨hfound, hc.2.1⟩)

/-! ## When a deletion is safe -/

/-- No instance of another directory is in the way: none bears the name
the spec gives, and the removal takes none of them along with the
registry file. Where the call fails half-way the name does no harm by
itself, and the directory has to be authorised without it. -/
structure Clear (env : Env) (fs : FileSystem) (spec : Bytes) (d : Disk) (root : Path) : Prop where
  name : (fs.removeAll root).Completes → ∀ e ∈ instances env d,
    specName spec root ≠ [] → e.name = specName spec root → dirOf env e.root = dirOf env root
  unfinished : ¬(fs.removeAll root).Completes → Authorised env fs d root
  registry : ∀ e ∈ instances env d, dirOf env e.root ≠ dirOf env root →
    Kept env e ((fs.removeAll root).leaves env (instances env d))

theorem Entry.isRootOrName_iff {root : Path} {name : Bytes} {e : Entry} :
    e.isRootOrName env root name ↔ (name ≠ [] ∧ e.name = name) ∨ samePath env e.root root := by
  simp [Entry.isRootOrName]

/-- What a completed call keeps of a list. -/
theorem kept_remaining_iff {root : Path} {name : Bytes} {entries : List Entry} {e : Entry}
    (hother : dirOf env e.root ≠ dirOf env root) :
    Kept env e (remaining env root name entries) ↔
      Kept env e entries ∧ ¬(name ≠ [] ∧ e.name = name) := by
  constructor
  · rintro ⟨e', he', hname, hdir⟩
    obtain ⟨e'', he'', rfl⟩ := List.mem_map.mp he'
    obtain ⟨hmem, hkeep⟩ := List.mem_filter.mp he''
    rw [dirOf_absoluteNormalPath] at hdir
    refine ⟨⟨e'', hmem, hname, hdir⟩, fun hmatch => ?_⟩
    have hdropped : e''.isRootOrName env root name :=
      Entry.isRootOrName_iff.mpr (Or.inl ⟨hmatch.1, hname.trans hmatch.2⟩)
    rw [hdropped] at hkeep
    exact nomatch hkeep
  · rintro ⟨⟨e', hmem, hname, hdir⟩, hmatch⟩
    have hkeep : ¬e'.isRootOrName env root name := by
      rw [Entry.isRootOrName_iff]
      rintro (⟨hne, hsame⟩ | hsame)
      · exact hmatch ⟨hne, hname.symm.trans hsame⟩
      · exact hother (hdir.symm.trans (dirOf_eq_of_samePath hsame))
    refine ⟨_, List.mem_map_of_mem (List.mem_filter.mpr ⟨hmem, ?_⟩), hname, ?_⟩
    · simpa using hkeep
    · rw [dirOf_absoluteNormalPath, hdir]

/-- A call that comes to `remove_all` is authorised, or has the name of
some instance. -/
theorem Removes.authorised_or_name {root : Path} (h : Removes env fs spec d root) :
    Authorised env fs d root ∨
      ∃ e ∈ instances env d, specName spec root ≠ [] ∧ e.name = specName spec root := by
  have hguard := h.deletable
  unfold isDeletable at hguard
  split at hguard
  · rename_i hpass
    rw [Bool.or_eq_true] at hpass
    rcases hpass with hisRoot | hregistered
    · exact Or.inl (Or.inl hisRoot)
    · obtain ⟨e, he, hmatch⟩ := List.any_eq_true.mp hregistered
      rcases Entry.isRootOrName_iff.mp hmatch with hname | hsame
      · exact Or.inr ⟨e, he, hname⟩
      · exact Or.inl (Or.inr (Or.inl ⟨e, he, dirOf_eq_of_samePath hsame⟩))
  · obtain ⟨home, hhome⟩ := h.readable.1
    have hstore := prefixStore_of_home hhome
    obtain ⟨hne, hchild⟩ := dropLast_dirOf_of_managed hstore hguard
    exact Or.inl (Or.inr (Or.inr ⟨_, hstore, hne, hchild⟩))

/-- **When a deletion is safe.** A call is safe exactly if, where it comes
to remove a directory, no instance of another directory is in the way. -/
theorem delete_safe_iff (env : Env) (fs : FileSystem) (spec : Bytes) (d : Disk) :
    SafeDelete env fs spec d ↔
      ∀ root, Removes env fs spec d root → Clear env fs spec d root := by
  rcases exec_delete env fs spec { d with removed := [] } with
    ⟨root, hremoves, hexec⟩ | ⟨hnone, hstate⟩
  · have hremoves : Removes env fs spec d root :=
      ⟨hremoves.readable, hremoves.root_eq, hremoves.deletable⟩
    have hunique : ∀ root', Removes env fs spec d root' → root' = root := by
      intro root' h
      exact Except.ok.inj (h.root_eq.symm.trans hremoves.root_eq)
    obtain ⟨home, hhome⟩ := hremoves.readable.1
    obtain ⟨hremoved, hcompleted, hstopped⟩ :=
      finish_instances hhome fs root (specName spec root) { d with removed := [] }
    rw [← hexec] at hremoved hcompleted hstopped
    change (deleted env fs spec d).removed = [root] at hremoved
    change _ → instances env (deleted env fs spec d) = _ at hcompleted hstopped
    change _ → _ = remaining env root _ ((fs.removeAll root).leaves env (instances env d))
      at hcompleted
    change _ → _ = (fs.removeAll root).leaves env (instances env d) at hstopped
    constructor
    · rintro ⟨hauthorised, hothers⟩ root' hroot'
      obtain rfl := hunique root' hroot'
      rw [hremoved] at hauthorised hothers
      -- an instance of another directory is still there
      have hkept : ∀ e ∈ instances env d, dirOf env e.root ≠ dirOf env root' →
          Kept env e (instances env (deleted env fs spec d)) := by
        intro e he hother
        refine (hothers e he).resolve_left ?_
        rintro ⟨root, hroot, hsame⟩
        rw [List.mem_singleton.mp hroot] at hsame
        exact hother hsame
      refine ⟨fun hc e he hne hname => ?_, fun _ => ?_, fun e he hother => ?_⟩
      · by_contra hother
        have h := hkept e he hother
        rw [hcompleted hc, kept_remaining_iff hother] at h
        exact h.2 ⟨hne, hname⟩
      · exact hauthorised root' (by simp)
      · have h := hkept e he hother
        by_cases hc : (fs.removeAll root').Completes
        · rw [hcompleted hc, kept_remaining_iff hother] at h
          exact h.1
        · rwa [hstopped hc] at h
    · intro hclear
      obtain ⟨hname, hhalf, hregistry⟩ := hclear root hremoves
      constructor
      · intro root' hroot'
        rw [hremoved] at hroot'
        rw [List.mem_singleton.mp hroot']
        by_cases hc : (fs.removeAll root).Completes
        · rcases hremoves.authorised_or_name with hauth | ⟨e, he, hne, hsame⟩
          · exact hauth
          · exact Or.inr (Or.inl ⟨e, he, hname hc e he hne hsame⟩)
        · exact hhalf hc
      · intro e he
        rw [hremoved]
        by_cases hother : dirOf env e.root = dirOf env root
        · exact Or.inl ⟨root, by simp, hother⟩
        · right
          by_cases hc : (fs.removeAll root).Completes
          · rw [hcompleted hc, kept_remaining_iff hother]
            exact ⟨hregistry e he hother, fun hmatch => hother (hname hc e he hmatch.1 hmatch.2)⟩
          · rw [hstopped hc]
            exact hregistry e he hother
  · have hnone : ∀ root, ¬Removes env fs spec d root := by
      intro root h
      exact hnone ⟨root, h.readable, h.root_eq, h.deletable⟩
    have hremoved : (deleted env fs spec d).removed = [] := by
      unfold deleted
      rcases hstate with h | h
      · rw [h]
      · rw [h]
        rfl
    have hinstances : instances env (deleted env fs spec d) = instances env d := by
      unfold deleted
      rcases hstate with h | h
      · rw [h]
        rfl
      · rw [h]
        rfl
    constructor
    · exact fun _ root hroot => absurd hroot (hnone root)
    · intro _
      constructor
      · rw [hremoved]
        simp
      · intro e he
        rw [hinstances]
        exact Or.inr ⟨e, he, rfl, rfl⟩

/-! ## An instance that lives elsewhere -/

/-- A user with one instance, `game`, in the prefix store. -/
def userEnv : Env where
  currentPath := ⟨true, []⟩
  home := some (ascii "/home/u")
  muplarHome := none
  rooted := by decide

def gameEntry : Entry :=
  ⟨ascii "game", .ofString (ascii "/home/u/.muplar/prefixes/main")⟩

def gameDisk : Disk where
  registry := some (.ok [gameEntry])
  found := .ok []
  writeError := none
  removed := []

/-- A file system where no prefix is in sight and every removal works. -/
def plainFileSystem : FileSystem where
  isPrefixRoot _ := false
  removeAll _ := ⟨none, true, .ok [], none⟩

/-- `muplar delete /work/game` removes a directory that is no prefix, and
unregisters the instance `game`, which lives elsewhere. -/
theorem delete_by_name :
    (deleted userEnv plainFileSystem (ascii "/work/game") gameDisk).removed =
        [.ofString (ascii "/work/game")] ∧
      instances userEnv (deleted userEnv plainFileSystem (ascii "/work/game") gameDisk) = [] ∧
      ¬SafeDelete userEnv plainFileSystem (ascii "/work/game") gameDisk := by
  have hremoved : (deleted userEnv plainFileSystem (ascii "/work/game") gameDisk).removed =
      [.ofString (ascii "/work/game")] := by
    decide
  have hinstances :
      instances userEnv (deleted userEnv plainFileSystem (ascii "/work/game") gameDisk) = [] := by
    decide
  refine ⟨hremoved, hinstances, fun hsafe => ?_⟩
  rcases hsafe.others gameEntry (by simp [instances, gameDisk]) with ⟨root, hroot, hdir⟩ | hkept
  · rw [hremoved, List.mem_singleton] at hroot
    subst hroot
    exact absurd hdir (by decide)
  · obtain ⟨e, he, -⟩ := hkept
    rw [hinstances] at he
    exact absurd he List.not_mem_nil

end Prefix

end Muplar
