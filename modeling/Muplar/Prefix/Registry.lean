import Muplar.Common.Path
/-!
# Prefixes — the instance registry

Muplar keeps a list of its instances, a name and a root each, in one file
under its home. This module has the part of `prefix.cpp` that goes from a
spec on the command line to a root, and reads and rewrites the list. It
is written over any state `D` and any way to load and store the list
(`Files`), so that the operations built on it can choose how much of the
file system they look at.

An operation may throw after it has changed something; `Op` keeps the
state in that case too.
-/

namespace Muplar

namespace Prefix

/-! ## Operations -/

/-- Code that may throw, over a state that survives the throw. -/
abbrev Op (D : Type) := ExceptT Bytes (StateM D)

namespace Op

variable {D α β : Type}

/-- How an operation ends, and the state it leaves. -/
def exec (x : Op D α) (d : D) : Except Bytes α × D :=
  x d

/-- Code that may throw and touches nothing. -/
def lift (x : Except Bytes α) : Op D α :=
  fun d => (x, d)

@[simp] theorem exec_pure (a : α) (d : D) : exec (pure a : Op D α) d = (.ok a, d) := rfl

@[simp] theorem exec_throw (e : Bytes) (d : D) : exec (throw e : Op D α) d = (.error e, d) := rfl

@[simp] theorem exec_lift (x : Except Bytes α) (d : D) : exec (lift x) d = (x, d) := rfl

@[simp] theorem exec_get (d : D) : exec (get : Op D D) d = (.ok d, d) := rfl

@[simp] theorem exec_modify (f : D → D) (d : D) :
    exec (modify f : Op D Unit) d = (.ok (), f d) := rfl

theorem exec_lift_inv {x : Except Bytes α} {d d' : D} {a : α}
    (h : exec (lift x) d = (.ok a, d')) : x = .ok a ∧ d' = d :=
  ⟨(Prod.mk.inj h).1, (Prod.mk.inj h).2.symm⟩

/-- What comes before decides whether the rest runs. -/
theorem exec_bind (x : Op D α) (f : α → Op D β) (d : D) :
    exec (x >>= f) d = match exec x d with
      | (.ok a, d') => exec (f a) d'
      | (.error e, d') => (.error e, d') := by
  simp only [exec, bind, ExceptT.bind, ExceptT.mk, StateT.bind]
  rcases x d with ⟨r, d'⟩
  cases r with
  | ok a => rfl
  | error e => rfl

theorem exec_bind_ok {x : Op D α} {d d' : D} {a : α} (h : exec x d = (.ok a, d'))
    (f : α → Op D β) : exec (x >>= f) d = exec (f a) d' := by
  rw [exec_bind, h]

theorem exec_bind_error {x : Op D α} {d d' : D} {e : Bytes} (h : exec x d = (.error e, d'))
    (f : α → Op D β) : exec (x >>= f) d = (.error e, d') := by
  rw [exec_bind, h]

/-- An operation that returns has run to its end, part by part. -/
theorem exec_bind_inv {x : Op D α} {f : α → Op D β} {d d' : D} {b : β}
    (h : exec (x >>= f) d = (.ok b, d')) :
    ∃ a d₁, exec x d = (.ok a, d₁) ∧ exec (f a) d₁ = (.ok b, d') := by
  rw [exec_bind] at h
  rcases hx : exec x d with ⟨e | a, d₁⟩
  · rw [hx] at h
    exact nomatch h
  · rw [hx] at h
    exact ⟨a, d₁, rfl, h⟩

end Op

/-! ## Specs and paths -/

/-- What the process has from its environment. -/
structure Env where
  currentPath : Path
  home : Option Bytes
  muplarHome : Option Bytes
  rooted : currentPath.rooted

/-- `std::getenv`, where an empty value counts as none. -/
def nonEmpty (value : Option Bytes) : Option Bytes :=
  value.filter (· ≠ [])

/-- `home_dir`. -/
def homeDir (env : Env) : Except Bytes Path :=
  match nonEmpty env.home with
  | some home => .ok (.ofString home)
  | none => .error (ascii "HOME is not set; cannot resolve Muplar prefix")

/-- `expand_user_path`. -/
def expandUserPath (env : Env) (spec : Bytes) : Except Bytes Path :=
  if spec = ascii "~" then homeDir env
  else if ascii "~/" <+: spec then do
    return (← homeDir env).join (.ofString (spec.drop 2))
  else .ok (.ofString spec)

/-- `std::filesystem::absolute`. -/
def absolute (env : Env) (p : Path) : Path :=
  if p.rooted then p else env.currentPath.join p

/-- `absolute_normal_path`. -/
def absoluteNormalPath (env : Env) (p : Path) : Path :=
  (absolute env p).lexicallyNormal

/-- `same_path`. -/
def samePath (env : Env) (a b : Path) : Bool :=
  absoluteNormalPath env a = absoluteNormalPath env b

/-- `muplar_home`. -/
def muplarHome (env : Env) : Except Bytes Path :=
  match nonEmpty env.muplarHome with
  | some home => expandUserPath env home
  | none => do return (← homeDir env).join (.ofString (ascii ".muplar"))

/-- `looks_like_path`: the other tests of the source ask for a slash
too. -/
def looksLikePath (spec : Bytes) : Bool :=
  Path.slash ∈ spec ∨ ascii "./" <+: spec ∨ ascii "../" <+: spec ∨ ascii "~/" <+: spec

/-- `prefix_name_from_root`. -/
def prefixNameFromRoot (root : Path) : Bytes :=
  if root.filename = [] then ascii "default" else root.filename

/-- `muplar_home() / "prefixes"`. -/
def prefixStore (env : Env) : Except Bytes Path := do
  return (← muplarHome env).join (.ofString (ascii "prefixes"))

/-- `is_managed_prefix_store_child`. -/
def isManagedPrefixStoreChild (env : Env) (root : Path) : Except Bytes Bool := do
  let managedBase := absoluteNormalPath env (← prefixStore env)
  let normalizedRoot := absoluteNormalPath env root
  return normalizedRoot.parent = managedBase ∧ normalizedRoot.filename ≠ []

/-! ## The registry -/

/-- `InstanceRegistryEntry`. -/
structure Entry where
  name : Bytes
  root : Path
  deriving DecidableEq

/-- How the registry file is reached: `load` finds no file, or a list, or
throws; `legacy` is `migrate_legacy_prefixes`; `store` writes a list whose
roots are absolute normal paths. -/
structure Files (D : Type) where
  load : Op D (Option (List Entry))
  legacy : Op D (List Entry)
  store : List Entry → Op D Unit

variable {D : Type}

/-- `write_instance_registry`. -/
def writeInstanceRegistry (env : Env) (files : Files D) (entries : List Entry) : Op D Unit :=
  files.store (entries.map fun e => { e with root := absoluteNormalPath env e.root })

/-- `read_instance_registry`: the first read makes the file. -/
def readInstanceRegistry (env : Env) (files : Files D) : Op D (List Entry) := do
  match ← files.load with
  | some entries => return entries
  | none =>
    let migrated ← files.legacy
    writeInstanceRegistry env files migrated
    return migrated

/-- `find_registered_instance`. -/
def findRegisteredInstance (env : Env) (files : Files D) (name : Bytes) : Op D (Option Entry) := do
  let entries ← readInstanceRegistry env files
  return entries.find? (·.name = name)

/-- The test that both functions below make of an entry. -/
def Entry.isRootOrName (env : Env) (root : Path) (name : Bytes) (e : Entry) : Bool :=
  (name ≠ [] ∧ e.name = name) ∨ samePath env e.root root

/-- `is_registered_instance_root_or_name`. -/
def isRegisteredInstanceRootOrName (env : Env) (files : Files D) (root : Path) (name : Bytes) :
    Op D Bool := do
  let entries ← readInstanceRegistry env files
  return entries.any (·.isRootOrName env root name)

/-- `unregister_instance_root_or_name`. -/
def unregisterInstanceRootOrName (env : Env) (files : Files D) (root : Path) (name : Bytes) :
    Op D Unit := do
  let entries ← readInstanceRegistry env files
  writeInstanceRegistry env files (entries.filter fun e => !e.isRootOrName env root name)

/-- `register_instance`. -/
def registerInstance (env : Env) (files : Files D) (name : Bytes) (root : Path) : Op D Unit := do
  if name = [] then return
  let entries ← readInstanceRegistry env files
  let root := absoluteNormalPath env root
  let filtered := entries.filter fun e => !(decide (e.name = name) || samePath env e.root root)
  writeInstanceRegistry env files (filtered ++ [⟨name, root⟩])

/-- `resolve_prefix_root`. -/
def resolvePrefixRoot (env : Env) (files : Files D) (spec : Bytes) : Op D Path := do
  if spec = [] then
    return (← Op.lift (prefixStore env)).join (.ofString (ascii "default"))
  else if looksLikePath spec then
    return absoluteNormalPath env (← Op.lift (expandUserPath env spec))
  else match ← findRegisteredInstance env files spec with
    | some entry => return absoluteNormalPath env entry.root
    | none => return (← Op.lift (prefixStore env)).join (.ofString spec)

/-! ## Directories -/

/-- The directory a path leads to, as the names below the root. -/
def dirOf (env : Env) (p : Path) : List Bytes :=
  (absolute env p).walk

theorem absolute_rooted (env : Env) (p : Path) : (absolute env p).rooted := by
  unfold absolute
  split
  · assumption
  · exact Path.rooted_join env.rooted

theorem absolute_absoluteNormalPath (env : Env) (p : Path) :
    absolute env (absoluteNormalPath env p) = absoluteNormalPath env p := by
  unfold absolute
  exact if_pos (Path.rooted_lexicallyNormal (absolute_rooted env p))

@[simp] theorem absoluteNormalPath_idem (env : Env) (p : Path) :
    absoluteNormalPath env (absoluteNormalPath env p) = absoluteNormalPath env p := by
  have hfixed := absolute_absoluteNormalPath env p
  rw [absoluteNormalPath, hfixed]
  exact Path.lexicallyNormal_idem (absolute_rooted env p)

@[simp] theorem dirOf_absoluteNormalPath (env : Env) (p : Path) :
    dirOf env (absoluteNormalPath env p) = dirOf env p := by
  unfold dirOf
  rw [absolute_absoluteNormalPath]
  exact Path.walk_lexicallyNormal (absolute_rooted env p)

/-- Paths with one normal form lead to one directory; the converse fails,
for a separator at the end. -/
theorem dirOf_eq_of_samePath {env : Env} {a b : Path} (h : samePath env a b) :
    dirOf env a = dirOf env b := by
  rw [samePath, decide_eq_true_eq] at h
  rw [← dirOf_absoluteNormalPath, h, dirOf_absoluteNormalPath]

/-- The directory of a path, from its names and where it starts. -/
theorem dirOf_eq (env : Env) (p : Path) :
    dirOf env p = (p.names.foldl (Path.visit true)
      (if p.rooted then [] else env.currentPath.walk.reverse)).reverse := by
  unfold dirOf absolute
  by_cases hp : p.rooted
  · rw [if_pos hp, if_pos hp, Path.walk, hp]
  · rw [if_neg hp, if_neg hp, Path.walk_join (by simpa using hp), env.rooted]

/-- One more name leads one directory further. -/
theorem dirOf_join (env : Env) (p : Path) {name : Bytes} (hname : Path.Plain name) :
    dirOf env (p.join ⟨false, [name]⟩) = dirOf env p ++ [name] := by
  have hjoin : p.join ⟨false, [name]⟩ = ⟨p.rooted, Path.closed p.names ++ [name]⟩ := by
    simp [Path.join]
  rw [hjoin, dirOf_eq, dirOf_eq, List.foldl_append, Path.foldl_visit_closed]
  simp [Path.visit_plain hname]

/-- And the parent of that is where it started. -/
theorem dirOf_parent_join (env : Env) (p : Path) (name : Bytes) :
    dirOf env (p.join ⟨false, [name]⟩).parent = dirOf env p := by
  have hparent : (p.join ⟨false, [name]⟩).parent = ⟨p.rooted, Path.closed p.names⟩ := by
    simp [Path.join, Path.parent]
  rw [hparent, dirOf_eq, dirOf_eq, Path.foldl_visit_closed]

/-- What passes for a child of the prefix store is one. -/
theorem dropLast_dirOf_of_managed {env : Env} {root store : Path}
    (hstore : prefixStore env = .ok store)
    (h : isManagedPrefixStoreChild env root = .ok true) :
    dirOf env root ≠ [] ∧ (dirOf env root).dropLast = dirOf env store := by
  have hroot := Path.lexicallyNormal_eq (absolute_rooted env root)
  have hbase := Path.lexicallyNormal_eq (absolute_rooted env store)
  have hplain := Path.walk_plain (absolute_rooted env root)
  simp only [isManagedPrefixStoreChild, hstore, bind, Except.bind, pure, Except.pure,
    Except.ok.injEq, decide_eq_true_eq] at h
  obtain ⟨hparent, hname⟩ := h
  rw [absoluteNormalPath] at hparent hname
  rw [absoluteNormalPath] at hparent
  rw [hroot] at hparent hname
  rw [hbase] at hparent
  have hclosed : (absolute env root).keepsSeparator = false := by
    by_contra hopen
    rw [if_pos (by simpa using hopen)] at hname
    exact hname (by simp [Path.filename])
  rw [hclosed] at hparent hname
  have hnames := congrArg Path.names hparent
  change (absolute env root).walk.dropLast = _ at hnames
  split at hnames
  · -- the names of the parent are plain, so the base has no separator at its end
    have hmem : [] ∈ (absolute env root).walk.dropLast := by
      rw [hnames]
      simp
    exact absurd rfl (hplain [] (List.dropLast_subset _ hmem)).1
  · refine ⟨fun hnil => hname ?_, hnames⟩
    change (absolute env root).walk.getLastD [] = []
    rw [dirOf] at hnil
    rw [hnil]
    rfl

end Prefix

end Muplar
