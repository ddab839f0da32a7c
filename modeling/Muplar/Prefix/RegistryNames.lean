import Mathlib.Data.List.Nodup
import Muplar.Common.Run
import Muplar.Prefix.Delete
/-!
# Prefixes — names in the registry

An entry comes into the registry by `register_instance`, which drops what
has its name or its root, or by the migration that makes the file, which
drops nothing. The migration names a directory of the prefix store by what
its `prefix.toml` says, and two directories may say the same.

Every command is a sequence of small changes: the registry is read, and
made where there is none; it is written with one instance more or with
some fewer; and things happen on the disk around it. The names are unique
throughout just where those are that a migration finds
(`names_unique_iff`).
-/

namespace Muplar

namespace Prefix

/-! ## Changes -/

/-- The prefixes of the store, by the names of their directories: each
stands there once. -/
structure Listing where
  prefixes : List (Bytes × Option Bytes)
  nodup : (prefixes.map Prod.fst).Nodup
  plain : ∀ p ∈ prefixes, Path.Plain p.1

/-- What `migrate_legacy_prefixes` goes over. -/
def Listing.found (listing : Listing) (env : Env) : Except Bytes (List Found) := do
  let store ← prefixStore env
  return listing.prefixes.map fun p => ⟨store.join ⟨false, [p.1]⟩, p.2⟩

/-- A change: of the registry by its functions, or of the disk around it.
What happens there may take the registry away, and never writes it. -/
inductive Change
  | read
  | put (name : Bytes) (root : Path)
  | drop (root : Path) (name : Bytes)
  | disk (keepsRegistry : Bool) (listing : Listing) (writeError : Option Bytes) (removed : List Path)

/-- `register_instance` between reading and writing. -/
def withInstance (env : Env) (name : Bytes) (root : Path) (entries : List Entry) : List Entry :=
  (entries.filter fun e =>
      !(decide (e.name = name) || samePath env e.root (absoluteNormalPath env root)))
    ++ [⟨name, absoluteNormalPath env root⟩]

/-- `unregister_instance_root_or_name` between reading and writing. -/
def withoutInstance (env : Env) (root : Path) (name : Bytes) (entries : List Entry) : List Entry :=
  entries.filter fun e => !e.isRootOrName env root name

/-- A registry that is there is written anew. -/
def rewrite (env : Env) (f : List Entry → List Entry) (d : Disk) : Disk :=
  match d.registry with
  | some (.ok entries) => (Op.exec (writeInstanceRegistry env (files env) (f entries)) d).2
  | _ => d

def Disk.change (env : Env) (d : Disk) : Change → Disk
  | .read => (Op.exec (readInstanceRegistry env (files env)) d).2
  | .put name root => rewrite env (withInstance env name root) d
  | .drop root name => rewrite env (withoutInstance env root name) d
  | .disk keepsRegistry listing writeError removed =>
    { registry := if keepsRegistry then d.registry else none
      found := listing.found env
      writeError
      removed }

/-! ## Operations -/

/-- What a command does beside the registry: from the roots it was given
to the name and the root it registers. -/
structure Work (env : Env) where
  run : List Path → Op Disk (Bytes × Path)
  confined : ∀ roots d, ∃ keepsRegistry listing writeError removed,
    (Op.exec (run roots) d).2 = d.change env (.disk keepsRegistry listing writeError removed)

/-- A file system whose removals leave a store that can be listed. -/
def FileSystem.Lists (env : Env) (fs : FileSystem) : Prop :=
  ∀ root, ∃ listing : Listing, (fs.removeAll root).found = listing.found env

/-- The commands that change the registry. -/
inductive Operation (env : Env)
  | register (name : Bytes) (root : Path)
  | unregister (root : Path) (name : Bytes)
  | create (spec : Bytes) (work : Work env)
  | clone (sourceSpec destSpec : Bytes) (work : Work env)
  | delete (fs : FileSystem) (lists : fs.Lists env) (spec : Bytes)

/-- `open_prefix` with `create_if_missing`, and `clone_prefix`, are their
resolution of specs, their work, and `register_instance` at the end. -/
def Operation.perform {env : Env} : Operation env → Op Disk Unit
  | register name root => registerInstance env (files env) name root
  | unregister root name => unregisterInstanceRootOrName env (files env) root name
  | create spec work => do
    let root ← resolvePrefixRoot env (files env) spec
    let (name, root) ← work.run [root]
    registerInstance env (files env) name root
  | clone sourceSpec destSpec work => do
    let destRoot ← resolvePrefixRoot env (files env) destSpec
    let sourceRoot ← resolvePrefixRoot env (files env) sourceSpec
    let (name, root) ← work.run [sourceRoot, destRoot]
    registerInstance env (files env) name root
  | delete fs _ spec => deletePrefix env fs spec

/-! ## What is asked -/

/-- **Unique.** No two entries have one name, and no two one root. -/
def Unique (d : Disk) : Prop :=
  ∀ entries, d.registry = some (.ok entries) →
    (entries.map (·.name)).Nodup ∧ (entries.map (·.root)).Nodup

/-- **Distinct names.** A read that has to make the registry finds no two
prefixes of one name in the store. -/
def DistinctNames (env : Env) (d : Disk) : Change → Prop
  | .read => d.registry = none → Readable env d → ((instances env d).map (·.name)).Nodup
  | _ => True

variable {env : Env} {d : Disk}

/-- **The invariant.** The registry is absent or a list of distinct names
and distinct normal roots, and the store can be listed. -/
structure Orderly (env : Env) (d : Disk) : Prop where
  registry : d.registry = none ∨ ∃ entries, d.registry = some (.ok entries) ∧
    (entries.map (·.name)).Nodup ∧ (entries.map (·.root)).Nodup ∧
    ∀ e ∈ entries, absoluteNormalPath env e.root = e.root
  listed : ∃ listing : Listing, d.found = listing.found env

theorem Orderly.unique (h : Orderly env d) : Unique d := by
  intro entries hentries
  rcases h.registry with hnone | ⟨entries', hsome, hnames, hroots, -⟩
  · rw [hnone] at hentries
    cases hentries
  · rw [hsome] at hentries
    cases hentries
    exact ⟨hnames, hroots⟩

/-- Directories of the store have different normal roots. -/
theorem Listing.roots_nodup (listing : Listing) {found : List Found}
    (h : listing.found env = .ok found) :
    ((found.map (·.entry env)).map (·.root)).Nodup := by
  unfold Listing.found at h
  cases hstore : prefixStore env with
  | error e =>
    rw [hstore] at h
    cases h
  | ok store =>
    rw [hstore] at h
    obtain rfl := Except.ok.inj h
    rw [List.map_map, List.map_map]
    refine List.Nodup.map_on (fun p hp q hq heq => ?_) (List.Nodup.of_map _ listing.nodup)
    have hdir := congrArg (dirOf env) heq
    simp only [Function.comp_apply, Found.entry, dirOf_absoluteNormalPath] at hdir
    rw [dirOf_join env store (listing.plain p hp), dirOf_join env store (listing.plain q hq)] at hdir
    have hname : p.1 = q.1 := by simpa using hdir
    exact List.inj_on_of_nodup_map listing.nodup hp hq hname

/-- **The migration.** -/
theorem Orderly.read (h : Orderly env d) (hok : DistinctNames env d .read) :
    Orderly env (d.change env .read) := by
  rcases exec_read env d with ⟨hreadable, hexec⟩ | ⟨-, e, hexec⟩
  · rw [Disk.change, hexec]
    refine ⟨Or.inr ⟨instances env d, rfl, ?_⟩, h.listed⟩
    rcases h.registry with hnone | ⟨entries, hsome, hunique⟩
    · obtain ⟨listing, hlisting⟩ := h.listed
      have hfound : ∃ found, d.found = .ok found := by
        have hpart := hreadable.2
        rw [hnone] at hpart
        exact hpart.1
      obtain ⟨found, hfound⟩ := hfound
      have hinstances : instances env d = found.map (·.entry env) := by
        rw [instances, hnone, hfound]
      refine ⟨hok hnone hreadable, ?_, ?_⟩
      · rw [hinstances]
        exact listing.roots_nodup (hlisting.symm.trans hfound)
      · rw [hinstances]
        intro e he
        obtain ⟨f, -, rfl⟩ := List.mem_map.mp he
        exact absoluteNormalPath_idem env f.root
    · have hinstances : instances env d = entries := by rw [instances, hsome]
      rw [hinstances]
      exact hunique
  · rw [Disk.change, hexec]
    exact h

/-- A registry that is written anew is what was made of it, or what it
was. -/
theorem rewrite_registry (env : Env) (f : List Entry → List Entry) (d : Disk) :
    rewrite env f d = d ∨ ∃ entries, d.registry = some (.ok entries) ∧
      rewrite env f d = { d with registry := some (.ok ((f entries).map fun e =>
        { e with root := absoluteNormalPath env e.root })) } := by
  unfold rewrite
  split
  · next entries hsome =>
    rw [writeInstanceRegistry, exec_store]
    cases d.writeError with
    | some e => exact Or.inl rfl
    | none => exact Or.inr ⟨entries, hsome, rfl⟩
  · exact Or.inl rfl

theorem Orderly.rewrite (h : Orderly env d) {f : List Entry → List Entry}
    (hf : ∀ entries : List Entry, (entries.map (·.name)).Nodup → (entries.map (·.root)).Nodup →
      (∀ e ∈ entries, absoluteNormalPath env e.root = e.root) →
      ((f entries).map (·.name)).Nodup ∧ ((f entries).map (·.root)).Nodup ∧
        ∀ e ∈ f entries, absoluteNormalPath env e.root = e.root) :
    Orderly env (Prefix.rewrite env f d) := by
  rcases rewrite_registry env f d with heq | ⟨entries, hsome, heq⟩
  · rw [heq]
    exact h
  rw [heq]
  refine ⟨Or.inr ⟨_, rfl, ?_⟩, h.listed⟩
  rcases h.registry with hnone | ⟨entries', hsome', hnames, hroots, hnormal⟩
  · rw [hnone] at hsome
    cases hsome
  rw [hsome'] at hsome
  cases hsome
  obtain ⟨hnames', hroots', hnormal'⟩ := hf entries hnames hroots hnormal
  have hsame : (f entries).map (fun e => { e with root := absoluteNormalPath env e.root }) =
      f entries := by
    conv_rhs => rw [← List.map_id (f entries)]
    refine List.map_congr_left fun e he => ?_
    rw [hnormal' e he]
    rfl
  rw [hsame]
  exact ⟨hnames', hroots', hnormal'⟩

/-- **One instance more**, in the place of those with its name or root. -/
theorem Orderly.put (h : Orderly env d) (name : Bytes) (root : Path) :
    Orderly env (d.change env (.put name root)) := by
  refine h.rewrite fun entries hnames hroots hnormal => ?_
  rw [withInstance, List.map_append, List.map_append]
  have hsub := List.filter_sublist (p := fun e : Entry =>
    !(decide (e.name = name) || samePath env e.root (absoluteNormalPath env root))) (l := entries)
  refine ⟨?_, ?_, fun e he => ?_⟩
  · refine ((hsub.map _).nodup hnames).append (List.nodup_singleton _) ?_
    rw [List.map_singleton, List.disjoint_singleton]
    intro hmem
    obtain ⟨e, he, heq⟩ := List.mem_map.mp hmem
    have htest := (List.mem_filter.mp he).2
    simp [heq] at htest
  · refine ((hsub.map _).nodup hroots).append (List.nodup_singleton _) ?_
    rw [List.map_singleton, List.disjoint_singleton]
    intro hmem
    obtain ⟨e, he, heq⟩ := List.mem_map.mp hmem
    have htest := (List.mem_filter.mp he).2
    simp [samePath, heq] at htest
  · rcases List.mem_append.mp he with he | he
    · exact hnormal e (hsub.subset he)
    · rw [List.mem_singleton.mp he]
      exact absoluteNormalPath_idem env root

/-- **Some instances fewer.** -/
theorem Orderly.drop (h : Orderly env d) (root : Path) (name : Bytes) :
    Orderly env (d.change env (.drop root name)) := by
  refine h.rewrite fun entries hnames hroots hnormal => ?_
  have hsub := List.filter_sublist (p := fun e : Entry => !e.isRootOrName env root name) (l := entries)
  exact ⟨(hsub.map _).nodup hnames, (hsub.map _).nodup hroots, fun e he => hnormal e (hsub.subset he)⟩

theorem change_orderly (h : Orderly env d) {c : Change} (hok : DistinctNames env d c) :
    Orderly env (d.change env c) := by
  cases c with
  | read => exact h.read hok
  | put name root => exact h.put name root
  | drop root name => exact h.drop root name
  | disk keepsRegistry listing writeError removed =>
    refine ⟨?_, listing, rfl⟩
    cases keepsRegistry with
    | true => exact h.registry
    | false => exact Or.inl rfl

/-- A migration that finds a name twice writes it twice. -/
theorem not_unique_of_migration {c : Change} (h : ¬DistinctNames env d c) :
    ¬Unique (d.change env c) := by
  cases c with
  | read =>
    simp only [DistinctNames, not_forall] at h
    obtain ⟨hnone, hreadable, hdup⟩ := h
    rcases exec_read env d with ⟨-, hexec⟩ | ⟨hnot, -⟩
    · intro hunique
      rw [Disk.change, hexec] at hunique
      exact hdup (hunique _ rfl).1
    · exact absurd hreadable hnot
  | put name root => exact absurd trivial h
  | drop root name => exact absurd trivial h
  | disk keepsRegistry listing writeError removed => exact absurd trivial h

/-! ## Operations are changes -/

/-- The operation comes to its end by changes. -/
def Performs (env : Env) {α : Type} (x : Op Disk α) : Prop :=
  ∀ d, ∃ cs, Machine.run (Disk.change env) d cs = (Op.exec x d).2

variable {α β : Type}

theorem performs_of_same {x : Op Disk α} (h : ∀ d, (Op.exec x d).2 = d) : Performs env x :=
  fun d => ⟨[], (h d).symm⟩

theorem Performs.bind {x : Op Disk α} {f : α → Op Disk β} (hx : Performs env x)
    (hf : ∀ a, Performs env (f a)) : Performs env (x >>= f) := by
  intro d
  obtain ⟨cs, hcs⟩ := hx d
  rw [Op.exec_bind]
  rcases hexec : Op.exec x d with ⟨e | a, d'⟩
  · rw [hexec] at hcs
    exact ⟨cs, hcs⟩
  · rw [hexec] at hcs
    obtain ⟨cs', hcs'⟩ := hf a d'
    refine ⟨cs ++ cs', ?_⟩
    rw [← hcs', Machine.run, List.foldl_append]
    exact congrArg (fun s => cs'.foldl (Disk.change env) s) hcs

theorem performs_read : Performs env (readInstanceRegistry env (files env)) :=
  fun _ => ⟨[.read], rfl⟩

theorem performs_lift (x : Except Bytes α) : Performs env (Op.lift x) :=
  performs_of_same fun _ => rfl

/-- Reading and then writing what became of it. -/
theorem performs_rewrite {c : Change} {f : List Entry → List Entry}
    (hc : ∀ d, Disk.change env d c = rewrite env f d) :
    Performs env (do
      let entries ← readInstanceRegistry env (files env)
      writeInstanceRegistry env (files env) (f entries)) := by
  intro d
  rcases exec_read env d with ⟨-, hexec⟩ | ⟨-, e, hexec⟩
  · refine ⟨[.read, c], ?_⟩
    rw [Op.exec_bind_ok hexec]
    show Disk.change env (Disk.change env d .read) c = _
    rw [hc, Disk.change, hexec]
    rfl
  · refine ⟨[.read], ?_⟩
    rw [Op.exec_bind_error hexec]
    show (Op.exec (readInstanceRegistry env (files env)) d).2 = d
    rw [hexec]

theorem performs_register (name : Bytes) (root : Path) :
    Performs env (registerInstance env (files env) name root) := by
  unfold registerInstance
  split
  · exact performs_of_same fun _ => rfl
  · exact performs_rewrite (c := .put name root) fun _ => rfl

theorem performs_unregister (root : Path) (name : Bytes) :
    Performs env (unregisterInstanceRootOrName env (files env) root name) :=
  performs_rewrite (c := .drop root name) fun _ => rfl

theorem performs_resolve (spec : Bytes) : Performs env (resolvePrefixRoot env (files env) spec) := by
  unfold resolvePrefixRoot
  split
  · exact (performs_lift _).bind fun _ => performs_of_same fun _ => rfl
  split
  · exact (performs_lift _).bind fun _ => performs_of_same fun _ => rfl
  · refine Performs.bind (performs_read.bind fun _ => performs_of_same fun _ => rfl) fun found => ?_
    cases found with
    | some entry => exact performs_of_same fun _ => rfl
    | none => exact (performs_lift _).bind fun _ => performs_of_same fun _ => rfl

theorem Work.performs (work : Work env) (roots : List Path) : Performs env (work.run roots) := by
  intro d
  obtain ⟨keepsRegistry, listing, writeError, removed, h⟩ := work.confined roots d
  exact ⟨[.disk keepsRegistry listing writeError removed], h.symm⟩

theorem performs_removeAll {fs : FileSystem} (hlists : fs.Lists env) (root : Path) :
    Performs env (removeAll fs root) := by
  intro d
  obtain ⟨listing, hlisting⟩ := hlists root
  refine ⟨[.disk (fs.removeAll root).keepsRegistry listing (fs.removeAll root).writeError
    (d.removed ++ [root])], ?_⟩
  show Disk.mk _ (listing.found env) _ _ = _
  rw [← hlisting]
  rfl

theorem performs_delete {fs : FileSystem} (hlists : fs.Lists env) (spec : Bytes) :
    Performs env (deletePrefix env fs spec) := by
  unfold deletePrefix
  refine (performs_resolve spec).bind fun root => ?_
  refine Performs.bind (performs_read.bind fun _ => performs_of_same fun _ => rfl) fun registered => ?_
  refine (performs_lift _).bind fun deletable => ?_
  simp only
  split
  · exact performs_of_same fun _ => rfl
  refine (performs_removeAll hlists root).bind fun error => ?_
  cases error with
  | some message => exact performs_of_same fun _ => rfl
  | none => exact performs_unregister root _

/-- **Every operation is a run of changes.** -/
theorem Operation.performs (op : Operation env) : Performs env op.perform := by
  cases op with
  | register name root => exact performs_register name root
  | unregister root name => exact performs_unregister root name
  | create spec work =>
    exact (performs_resolve spec).bind fun root => (work.performs [root]).bind fun p =>
      performs_register p.1 p.2
  | clone sourceSpec destSpec work =>
    exact (performs_resolve destSpec).bind fun destRoot => (performs_resolve sourceSpec).bind
      fun sourceRoot => (work.performs _).bind fun p => performs_register p.1 p.2
  | delete fs lists spec => exact performs_delete lists spec

/-! ## All runs -/

/-- A disk without a registry. -/
def Disk.unregistered (env : Env) (listing : Listing) (writeError : Option Bytes) : Disk where
  registry := none
  found := listing.found env
  writeError := writeError
  removed := []

/-- **Names and roots are unique**, in every state of a run from a disk
without a registry, just where every migration of the run finds distinct
names. And every operation is a run. -/
theorem names_unique_iff (env : Env) (listing : Listing) (writeError : Option Bytes) :
    (∀ cs, Machine.Throughout (Disk.change env) Unique (.unregistered env listing writeError) cs ↔
      Machine.Meets (Disk.change env) (DistinctNames env) (.unregistered env listing writeError) cs) ∧
    ∀ (op : Operation env) d, ∃ cs, Machine.run (Disk.change env) d cs = (Op.exec op.perform d).2 := by
  refine ⟨fun cs => ?_, fun op => op.performs⟩
  exact Machine.throughout_iff_meets_of_breaks (fun _ _ h hok => change_orderly h hok)
    (fun _ h => h.unique) (fun _ _ _ hno => not_unique_of_migration hno)
    ⟨Or.inl rfl, listing, rfl⟩

/-- Two directories whose `prefix.toml` says `game`. -/
def twoGames : Listing where
  prefixes := [(ascii "a", some (ascii "game")), (ascii "b", some (ascii "game"))]
  nodup := by decide
  plain := by decide

/-- **Migration gives two entries one name.** -/
theorem migration_duplicates :
    ¬Machine.Throughout (Disk.change userEnv) Unique (.unregistered userEnv twoGames none) [.read] := by
  intro h
  have hnames := (h.last _ rfl).1
  revert hnames
  decide +kernel

end Prefix

end Muplar
