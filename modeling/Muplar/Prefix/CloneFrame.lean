import Muplar.Prefix.Clone
/-!
# Prefixes — what a clone touches

Every operation of `clone_prefix_into` leaves most of the tree alone.
`Stays` says where, and composes: opening the source touches the registry
at most, copying touches the destination, what is above it, and the
registry.
-/

namespace Muplar

namespace Prefix

/-! ## What an operation leaves alone -/

section Stays

variable {α β : Type} {P : Location → Prop}

/-- The nodes at the locations of `P` are as they were, however the
operation ends. -/
def Stays (P : Location → Prop) (x : Op FileTree α) : Prop :=
  ∀ t l, P l → (Op.exec x t).2.node l = t.node l

theorem stays_pure (a : α) : Stays P (pure a : Op FileTree α) :=
  fun _ _ _ => rfl

theorem stays_throw (e : Bytes) : Stays P (throw e : Op FileTree α) :=
  fun _ _ _ => rfl

theorem stays_lift (x : Except Bytes α) : Stays P (Op.lift x : Op FileTree α) :=
  fun _ _ _ => rfl

theorem stays_get : Stays P (get : Op FileTree FileTree) :=
  fun _ _ _ => rfl

theorem stays_bind {x : Op FileTree α} {f : α → Op FileTree β} (hx : Stays P x)
    (hf : ∀ a, Stays P (f a)) : Stays P (x >>= f) := by
  intro t l hl
  rw [Op.exec_bind]
  have hfirst := hx t l hl
  generalize Op.exec x t = out at hfirst ⊢
  rcases out with ⟨e | a, t'⟩
  · exact hfirst
  · exact (hf a t' l hl).trans hfirst

/-- What follows a value that may be missing has to stay only where there
is one. -/
theorem stays_lift_bind {x : Except Bytes α} {f : α → Op FileTree β}
    (hf : ∀ a, x = .ok a → Stays P (f a)) : Stays P (Op.lift x >>= f) := by
  intro t l hl
  rw [Op.exec_bind, Op.exec_lift]
  cases x with
  | error e => rfl
  | ok a => exact hf a rfl t l hl

theorem stays_ite {c : Prop} [Decidable c] {x y : Op FileTree α} (hx : Stays P x)
    (hy : Stays P y) : Stays P (if c then x else y) := by
  split
  · exact hx
  · exact hy

theorem stays_removeTree (env : Env) {p : Path} (hP : ∀ l, P l → ¬dirOf env p <+: l) :
    Stays P (removeTree env p) := by
  intro t l hl
  change (if pathExists env t p then t.remove (dirOf env p) else t).node l = t.node l
  split
  · exact FileTree.remove_of_not_under (hP l hl)
  · rfl

theorem stays_createDirectories (env : Env) {p : Path} (hP : ∀ l, P l → ¬l <+: dirOf env p) :
    Stays P (createDirectories env p) := by
  intro t l hl
  change (Op.exec (if t.isFree (dirOf env p) then set (t.makeDirs (dirOf env p)) else
    throw _) t).2.node l = t.node l
  split
  · exact FileTree.makeDirs_of_not_above (hP l hl)
  · rfl

theorem stays_writeText (env : Env) {p : Path} (text message : Bytes)
    (hP : ∀ l, P l → l ≠ dirOf env p) : Stays P (writeText env p text message) := by
  intro t l hl
  change (Op.exec (if h : t.isWritable (dirOf env p) then
    set (t.writeFile (dirOf env p) text h) else throw _) t).2.node l = t.node l
  split
  · rename_i h
    exact FileTree.writeFile_of_ne h (hP l hl)
  · rfl

theorem stays_copyTree (env : Env) (source : Path) {dest : Path}
    (hP : ∀ l, P l → ¬dirOf env dest <+: l) : Stays P (copyTree env source dest) := by
  intro t l hl
  change (Op.exec (if h : t.isCopyable (dirOf env source) (dirOf env dest) then
    set (t.copyDir (dirOf env source) (dirOf env dest) h) else throw _) t).2.node l = t.node l
  split
  · rename_i h
    exact FileTree.copyDir_of_not_under h (hP l hl)
  · rfl

end Stays

/-! ## The registry file -/

variable {env : Env} {host : Host} {t : FileTree}

/-- Where the registry is. -/
def registryLocation (home : Path) (env : Env) : Location :=
  dirOf env home ++ [ascii "instances.json"]

theorem instances_json : Path.ofString (ascii "instances.json") = ⟨false, [ascii "instances.json"]⟩ := by
  decide

theorem prefix_toml : Path.ofString (ascii "prefix.toml") = ⟨false, [ascii "prefix.toml"]⟩ := by
  decide

theorem plain_instances_json : Path.Plain (ascii "instances.json") := by
  decide

theorem plain_prefix_toml : Path.Plain (ascii "prefix.toml") := by
  decide

theorem dirOf_registry (home : Path) (env : Env) :
    dirOf env (home.join (.ofString (ascii "instances.json"))) = registryLocation home env := by
  rw [instances_json]
  exact dirOf_join env home plain_instances_json

theorem dirOf_prefixToml (env : Env) (root : Path) :
    dirOf env (root.join (.ofString (ascii "prefix.toml"))) =
      dirOf env root ++ [ascii "prefix.toml"] := by
  rw [prefix_toml]
  exact dirOf_join env root plain_prefix_toml

theorem registryPath_of_home {home : Path} (h : muplarHome env = .ok home) :
    instanceRegistryPath env = .ok (home.join (.ofString (ascii "instances.json"))) := by
  rw [instanceRegistryPath, h]
  rfl

section RegistryStays

variable {P : Location → Prop}

theorem stays_load (env : Env) (host : Host) : Stays P (treeFiles env host).load := by
  refine stays_bind (stays_lift _) fun path => stays_bind stays_get fun t => ?_
  refine stays_ite (stays_pure _) ?_
  cases readFile env t path with
  | none => exact stays_throw _
  | some text => exact stays_bind (stays_lift _) fun _ => stays_pure _

theorem stays_legacy (env : Env) (host : Host) : Stays P (treeFiles env host).legacy := by
  refine stays_bind (stays_lift _) fun base => stays_bind stays_get fun t => ?_
  exact stays_ite (stays_pure _) (stays_ite (stays_throw _) (stays_pure _))

/-- Writing the registry touches the file and what is above it. -/
theorem stays_store (hP : ∀ home, muplarHome env = .ok home → ∀ l, P l →
    ¬l <+: registryLocation home env) (entries : List Entry) :
    Stays P ((treeFiles env host).store entries) := by
  refine stays_lift_bind fun path hpath => ?_
  obtain ⟨home, hhome, rfl⟩ : ∃ home, muplarHome env = .ok home ∧
      home.join (.ofString (ascii "instances.json")) = path := by
    unfold instanceRegistryPath at hpath
    cases hhome : muplarHome env with
    | error e =>
      rw [hhome] at hpath
      exact nomatch hpath
    | ok home =>
      rw [hhome] at hpath
      exact ⟨home, rfl, Except.ok.inj hpath⟩
  refine stays_bind (stays_createDirectories env fun l hl habove => ?_) fun _ =>
    stays_writeText env _ _ fun l hl hself => ?_
  · rw [instances_json, dirOf_parent_join] at habove
    exact hP home hhome l hl (habove.trans (List.prefix_append _ _))
  · rw [dirOf_registry] at hself
    exact hP home hhome l hl (by rw [hself])

theorem stays_read (hP : ∀ home, muplarHome env = .ok home → ∀ l, P l →
    ¬l <+: registryLocation home env) :
    Stays P (readInstanceRegistry env (treeFiles env host)) := by
  refine stays_bind (stays_load env host) fun found => ?_
  cases found with
  | some entries => exact stays_pure _
  | none =>
    exact stays_bind (stays_legacy env host) fun migrated =>
      stays_bind (stays_store hP _) fun _ => stays_pure _

theorem stays_registerInstance (hP : ∀ home, muplarHome env = .ok home → ∀ l, P l →
    ¬l <+: registryLocation home env) (name : Bytes) (root : Path) :
    Stays P (registerInstance env (treeFiles env host) name root) := by
  unfold registerInstance
  refine stays_ite (stays_pure _) ?_
  exact stays_bind (stays_read hP) fun entries => stays_store hP _

end RegistryStays

/-! ## What a clone leaves alone -/

/-- The directory above a normal path. -/
theorem dirOf_parent_above (env : Env) (p : Path) :
    dirOf env (absoluteNormalPath env p).parent <+: dirOf env p := by
  have hplain : ∀ n ∈ dirOf env p, Path.Plain n := Path.walk_plain (absolute_rooted env p)
  have hform : absoluteNormalPath env p =
      ⟨true, if (absolute env p).keepsSeparator then dirOf env p ++ [[]] else dirOf env p⟩ :=
    Path.lexicallyNormal_eq (absolute_rooted env p)
  have hdir : ∀ names : List Bytes, (∀ n ∈ names, Path.Plain n) → dirOf env ⟨true, names⟩ = names := by
    intro names h
    exact Path.walk_of_plain h true
  rw [hform, Path.parent]
  split
  · simp only [List.dropLast_concat]
    rw [hdir _ hplain]
  · simp only
    rw [hdir _ fun n hn => hplain n (List.dropLast_subset _ hn)]
    exact List.dropLast_prefix _

theorem dirOf_parent_of_keepsSeparator {env : Env} {p : Path}
    (h : (absolute env p).keepsSeparator) :
    dirOf env (absoluteNormalPath env p).parent = dirOf env p := by
  have hplain : ∀ n ∈ dirOf env p, Path.Plain n := Path.walk_plain (absolute_rooted env p)
  have hform : absoluteNormalPath env p = ⟨true, dirOf env p ++ [[]]⟩ := by
    rw [absoluteNormalPath, Path.lexicallyNormal_eq (absolute_rooted env p), if_pos h]
    rfl
  rw [hform, Path.parent]
  simp only [List.dropLast_concat]
  exact Path.walk_of_plain hplain true

section CloneStays

variable {P : Location → Prop}

theorem stays_loadPrefixAtRoot (env : Env) (root : Path) (instanceName : Bytes) (sysroot : Path)
    (kind : PrefixKind) (arch : GuestArch) (runner distro : Bytes) :
    Stays P (loadPrefixAtRoot env root instanceName sysroot kind arch runner distro) := by
  refine stays_bind stays_get fun t => ?_
  have hrest : ∀ layout : PrefixLayout, Stays P (if !pathExists env t layout.root then
      throw (ascii "prefix does not exist: " ++ layout.root.string)
    else if !isDirectory env t layout.root then
      throw (ascii "prefix path is not a directory: " ++ layout.root.string)
    else pure layout : Op FileTree PrefixLayout) := by
    intro layout
    exact stays_ite (stays_throw _) (stays_ite (stays_throw _) (stays_pure _))
  refine stays_ite (stays_throw _) ?_
  cases readFile env t ((absoluteNormalPath env root).join (.ofString (ascii "prefix.toml"))) with
  | none => exact hrest _
  | some text => exact stays_bind (stays_lift _) fun layout => hrest _

theorem stays_resolvePrefixRoot (hR : ∀ home, muplarHome env = .ok home → ∀ l, P l →
    ¬l <+: registryLocation home env) (spec : Bytes) :
    Stays P (resolvePrefixRoot env (treeFiles env host) spec) := by
  unfold resolvePrefixRoot
  refine stays_ite (stays_bind (stays_lift _) fun _ => stays_pure _) ?_
  refine stays_ite (stays_bind (stays_lift _) fun _ => stays_pure _) ?_
  refine stays_bind (stays_bind (stays_read hR) fun _ => stays_pure _) fun found => ?_
  cases found with
  | some entry => exact stays_pure _
  | none => exact stays_bind (stays_lift _) fun _ => stays_pure _

/-- Copying touches the destination, what is above it, and the
registry. -/
theorem stays_copyPrefix {source dest : PrefixLayout} {p : Path} (replaceExisting : Bool)
    (hroot : dest.root = absoluteNormalPath env p)
    (hD : ∀ l, P l → ¬dirOf env p <+: l ∧ ¬l <+: dirOf env p)
    (hR : ∀ home, muplarHome env = .ok home → ∀ l, P l → ¬l <+: registryLocation home env) :
    Stays P (copyPrefix env host source dest replaceExisting) := by
  have hdir : dirOf env dest.root = dirOf env p := by
    rw [hroot, dirOf_absoluteNormalPath]
  have hunder : ∀ l, P l → ¬dirOf env dest.root <+: l := by
    intro l hl
    rw [hdir]
    exact (hD l hl).1
  unfold copyPrefix
  refine stays_bind ?_ fun _ => stays_bind ?_ fun _ => stays_bind ?_ fun _ => stays_bind ?_ fun _ =>
    stays_bind ?_ fun _ => stays_bind ?_ fun _ => stays_pure _
  · refine stays_bind stays_get fun t => stays_ite ?_ (stays_pure _)
    exact stays_ite (stays_throw _) (stays_removeTree env hunder)
  · refine stays_createDirectories env fun l hl habove => (hD l hl).2 ?_
    rw [hroot] at habove
    exact habove.trans (dirOf_parent_above env p)
  · exact stays_copyTree env _ hunder
  · refine stays_ite (stays_throw _) (stays_writeText env _ _ fun l hl hself => hunder l hl ?_)
    rw [hself, dirOf_prefixToml]
    exact List.prefix_append _ _
  · exact fun t l hl => host.confined env dest t l (hunder l hl)
  · exact stays_registerInstance hR _ _

end CloneStays

/-! ## The tree after opening the source -/

/-- Nothing that stays everywhere changes the tree. -/
theorem Stays.exec_eq {α : Type} {x : Op FileTree α} (h : Stays (fun _ => True) x)
    (t : FileTree) : (Op.exec x t).2 = t :=
  FileTree.ext_node (funext fun l => h t l trivial)

theorem pathExists_registry (env : Env) (home : Path) (t : FileTree) :
    pathExists env t (home.join (.ofString (ascii "instances.json"))) ↔
      t.node (registryLocation home env) ≠ none := by
  have hlast : (home.join (.ofString (ascii "instances.json"))).names.getLast? ≠ some [] := by
    rw [instances_json]
    have hne : ascii "instances.json" ≠ [] := plain_instances_json.1
    simp [Path.join, hne]
  unfold pathExists lookup
  rw [dirOf_registry]
  cases t.node (registryLocation home env) with
  | none => simp
  | some node =>
    cases node with
    | dir => simp
    | file content => simp [hlast]

/-- The tree in which a missing registry has been made. -/
def RegistryMade (env : Env) (t t' : FileTree) : Prop :=
  ∃ home text, muplarHome env = .ok home ∧ t.node (registryLocation home env) = none ∧
    ∃ h, t' = (t.makeDirs (dirOf env home)).writeFile (registryLocation home env) text h

/-- The registry is there, or will not be looked for. -/
def RegistryThere (env : Env) (spec : Bytes) (t : FileTree) : Prop :=
  spec = [] ∨ looksLikePath spec ∨
    ∃ home, muplarHome env = .ok home ∧ t.node (registryLocation home env) ≠ none

theorem createDirectories_ok {p : Path} {loc : Location} {t' : FileTree} {u : Unit}
    (hloc : dirOf env p = loc) (h : Op.exec (createDirectories env p) t = (.ok u, t')) :
    t' = t.makeDirs loc := by
  subst hloc
  change Op.exec (if t.isFree (dirOf env p) then set (t.makeDirs (dirOf env p)) else throw _) t = _
    at h
  split at h
  · exact (Prod.mk.inj h).2.symm
  · exact nomatch h

theorem writeText_ok {p : Path} {loc : Location} {text message : Bytes} {t' : FileTree} {u : Unit}
    (hloc : dirOf env p = loc) (h : Op.exec (writeText env p text message) t = (.ok u, t')) :
    ∃ h', t' = t.writeFile loc text h' := by
  subst hloc
  change Op.exec (if h : t.isWritable (dirOf env p) then
    set (t.writeFile (dirOf env p) text h) else throw _) t = _ at h
  split at h
  · exact ⟨_, (Prod.mk.inj h).2.symm⟩
  · exact nomatch h

/-- What writing the registry does when it succeeds. -/
theorem store_made {home : Path} {entries : List Entry} {t' : FileTree} {u : Unit}
    (hhome : muplarHome env = .ok home)
    (h : Op.exec ((treeFiles env host).store entries) t = (.ok u, t')) :
    ∃ text h', t' = (t.makeDirs (dirOf env home)).writeFile (registryLocation home env) text h' := by
  obtain ⟨path, t₁, hlift, hrest⟩ := Op.exec_bind_inv h
  obtain ⟨hpath, rfl⟩ := Op.exec_lift_inv hlift
  obtain rfl := Except.ok.inj ((registryPath_of_home hhome).symm.trans hpath)
  obtain ⟨u', t₂, hdirs, hwrite⟩ := Op.exec_bind_inv hrest
  have hparent : dirOf env (home.join (.ofString (ascii "instances.json"))).parent =
      dirOf env home := by
    rw [instances_json, dirOf_parent_join]
  obtain rfl := createDirectories_ok hparent hdirs
  exact ⟨_, writeText_ok (dirOf_registry home env) hwrite⟩

/-- The tree and the result where the registry is looked for. -/
theorem load_state {found : Option (List Entry)} {t' : FileTree}
    (h : Op.exec (treeFiles env host).load t = (.ok found, t')) :
    t' = t ∧ ∃ home, muplarHome env = .ok home ∧
      (found = none ↔ t.node (registryLocation home env) = none) := by
  have hsame := (stays_load env host).exec_eq t
  rw [h] at hsame
  refine ⟨hsame, ?_⟩
  obtain ⟨path, t₁, hlift, hrest⟩ := Op.exec_bind_inv h
  obtain ⟨hpath, rfl⟩ := Op.exec_lift_inv hlift
  cases hhome : muplarHome env with
  | error e =>
    rw [instanceRegistryPath, hhome] at hpath
    exact nomatch hpath
  | ok home =>
    obtain rfl := Except.ok.inj ((registryPath_of_home hhome).symm.trans hpath)
    refine ⟨home, rfl, ?_⟩
    have hexists := pathExists_registry env home t₁
    change Op.exec (if !pathExists env t₁ _ then pure none else _) t₁ = _ at hrest
    by_cases hthere : t₁.node (registryLocation home env) = none
    · have habsent : pathExists env t₁ (home.join (.ofString (ascii "instances.json"))) = false := by
        rw [← Bool.not_eq_true, hexists]
        exact fun hne => hne hthere
      rw [if_pos (by rw [habsent]; rfl)] at hrest
      obtain ⟨hfound, -⟩ := Prod.mk.inj hrest
      exact iff_of_true (Except.ok.inj hfound).symm hthere
    · rw [if_neg (by rw [hexists.mpr hthere]; simp)] at hrest
      refine iff_of_false (fun hnone => ?_) hthere
      subst hnone
      split at hrest
      · exact nomatch hrest
      · obtain ⟨entries, t₂, -, hend⟩ := Op.exec_bind_inv hrest
        exact nomatch (Prod.mk.inj hend).1

/-- Reading the registry leaves the tree alone, or makes what is
missing. -/
theorem read_state {entries : List Entry} {t' : FileTree}
    (h : Op.exec (readInstanceRegistry env (treeFiles env host)) t = (.ok entries, t')) :
    (∃ home, muplarHome env = .ok home ∧ t.node (registryLocation home env) ≠ none ∧ t' = t) ∨
      RegistryMade env t t' := by
  obtain ⟨found, t₁, hload, hrest⟩ := Op.exec_bind_inv h
  obtain ⟨rfl, home, hhome, hfound⟩ := load_state hload
  cases found with
  | some entries =>
    refine Or.inl ⟨home, hhome, fun hnone => ?_, (Prod.mk.inj hrest).2.symm⟩
    exact nomatch hfound.mpr hnone
  | none =>
    right
    obtain ⟨migrated, t₂, hlegacy, hwrite⟩ := Op.exec_bind_inv hrest
    have hsame := (stays_legacy env host).exec_eq t₁
    rw [hlegacy] at hsame
    obtain rfl : t₂ = t₁ := hsame
    obtain ⟨u, t₃, hstore, hend⟩ := Op.exec_bind_inv hwrite
    obtain ⟨text, h', rfl⟩ := store_made hhome hstore
    exact ⟨home, text, hhome, hfound.mp rfl, h', (Prod.mk.inj hend).2.symm⟩

/-- **Opening a prefix** leaves the tree alone, or makes the registry it
looks for. -/
theorem open_state {spec : Bytes} {source : PrefixLayout} {t' : FileTree}
    (h : Op.exec (openPrefix env host spec) t = (.ok source, t')) :
    RegistryThere env spec t ∧ t' = t ∨ ¬RegistryThere env spec t ∧ RegistryMade env t t' := by
  obtain ⟨root, t₁, hresolve, hload⟩ := Op.exec_bind_inv h
  have hsame : t' = t₁ := by
    have hstays := (stays_loadPrefixAtRoot env root (if looksLikePath spec then [] else spec)
      ⟨false, []⟩ .android .aarch64 (ascii "elfuse") []).exec_eq t₁
    rw [← hstays, hload]
  subst hsame
  unfold resolvePrefixRoot at hresolve
  by_cases hempty : spec = []
  · rw [if_pos hempty] at hresolve
    obtain ⟨store, t₂, hlift, hend⟩ := Op.exec_bind_inv hresolve
    obtain ⟨-, rfl⟩ := Op.exec_lift_inv hlift
    exact Or.inl ⟨Or.inl hempty, (Prod.mk.inj hend).2.symm⟩
  rw [if_neg hempty] at hresolve
  by_cases hpath : looksLikePath spec
  · rw [if_pos hpath] at hresolve
    obtain ⟨expanded, t₂, hlift, hend⟩ := Op.exec_bind_inv hresolve
    obtain ⟨-, rfl⟩ := Op.exec_lift_inv hlift
    exact Or.inl ⟨Or.inr (Or.inl hpath), (Prod.mk.inj hend).2.symm⟩
  rw [if_neg hpath] at hresolve
  obtain ⟨found, t₂, hfind, hend⟩ := Op.exec_bind_inv hresolve
  obtain ⟨entries, t₃, hread, hpure⟩ := Op.exec_bind_inv hfind
  obtain rfl : t₃ = t₂ := (Prod.mk.inj hpure).2
  have hlast : t' = t₃ := by
    cases found with
    | some entry => exact (Prod.mk.inj hend).2.symm
    | none =>
      obtain ⟨store, t₄, hlift, hjoin⟩ := Op.exec_bind_inv hend
      obtain ⟨-, rfl⟩ := Op.exec_lift_inv hlift
      exact (Prod.mk.inj hjoin).2.symm
  subst hlast
  rcases read_state hread with ⟨home, hhome, hthere, rfl⟩ | hmade
  · exact Or.inl ⟨Or.inr (Or.inr ⟨home, hhome, hthere⟩), rfl⟩
  · refine Or.inr ⟨?_, hmade⟩
    obtain ⟨home, text, hhome, hnone, -⟩ := hmade
    rintro (h | h | ⟨home', hhome', hthere⟩)
    · exact hempty h
    · exact hpath h
    · obtain rfl := Except.ok.inj (hhome.symm.trans hhome')
      exact hthere hnone

end Prefix

end Muplar
