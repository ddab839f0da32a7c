import Muplar.Prefix.ConfigFile
import Muplar.Prefix.RegistryNames
/-!
# Prefixes — the spelling of a path

A spec with a separator is a path, and a path has many spellings: with a
separator at its end or without, with dots between its names or without.
The normal form that everything is compared by drops the dots, but keeps a
separator at the end, and then the last name is empty. So `/p/a` and
`/p/a/` are two prefixes to the code, named `a` and `default`.

`spelling_iff` says which spellings are taken for one prefix.
-/

namespace Muplar

namespace Prefix

/-! ## Opening a prefix that may be missing -/

/-- `write_prefix_toml`, leaving a file that is there. -/
def writeMissingPrefixToml (env : Env) (layout : PrefixLayout) : Op FileTree Unit := do
  if pathExists env (← get) (layout.root.join (.ofString (ascii "prefix.toml"))) then return
  else writePrefixToml env layout

/-- `load_prefix_at_root` with `create_if_missing`; `initWine` is
`run_wineboot_init`. -/
def createPrefixAtRoot (env : Env) (host : Host) (initWine : PrefixLayout → Op FileTree Unit)
    (root : Path) (instanceName : Bytes) (runtimeSysroot : Path) (kind : PrefixKind) (arch : GuestArch)
    (runner distro : Bytes) : Op FileTree PrefixLayout := do
  let base := loadBase (absoluteNormalPath env root) instanceName runtimeSysroot kind arch runner distro
  let t ← get
  let stored ← match readFile env t (base.root.join (.ofString (ascii "prefix.toml"))) with
    | some text => Op.lift (applyToml text instanceName base)
    | none => pure base
  let layout := if stored.kind = .linux ∧ stored.distro = [] then
    { stored with distro := ascii "ubuntu" } else stored
  if !isSupportedRuntimeTuple layout.kind layout.arch then
    throw (unsupportedRuntimeTuple layout.kind layout.arch)
  if pathExists env t layout.root && !isDirectory env t layout.root then
    throw (ascii "prefix path is not a directory: " ++ layout.root.string)
  -- the first directory that is made brings the root with it
  createDirectories env layout.root
  host.ensureLayoutDirs env layout
  writeMissingPrefixToml env layout
  registerInstance env (treeFiles env host) layout.name layout.root
  -- only a prefix that was missing is booted
  if !pathExists env t layout.root && layout.kind = .wine then
    initWine layout
  return layout

/-- What `open_prefix` gets beside the spec. -/
structure OpenArgs where
  runtimeSysroot : Path
  createIfMissing : Bool
  kind : PrefixKind
  arch : GuestArch
  runner : Bytes
  distro : Bytes

/-- `open_prefix`. -/
def openPrefixWith (env : Env) (host : Host) (initWine : PrefixLayout → Op FileTree Unit)
    (args : OpenArgs) (spec : Bytes) : Op FileTree PrefixLayout := do
  let root ← resolvePrefixRoot env (treeFiles env host) spec
  let name := if looksLikePath spec then [] else spec
  if args.createIfMissing then
    createPrefixAtRoot env host initWine root name args.runtimeSysroot args.kind args.arch args.runner
      args.distro
  else
    loadPrefixAtRoot env root name args.runtimeSysroot args.kind args.arch args.runner args.distro

/-! ## Spellings -/

/-- The names of a spec that a path is made of. -/
def significant (spec : Bytes) : List Bytes :=
  (spec.splitOn Path.slash).filter fun name => name ≠ [] ∧ name ≠ Path.dot

/-- **Two spellings of one path.** They start in the same place and differ
in separators and dots only. -/
structure Respelled (s s' : Bytes) : Prop where
  path : Path.slash ∈ s
  path' : Path.slash ∈ s'
  rooted : s.head? = some Path.slash ↔ s'.head? = some Path.slash
  home : ascii "~/" <+: s ↔ ascii "~/" <+: s'
  names : significant s = significant s'

instance (s s' : Bytes) : Decidable (Respelled s s') :=
  decidable_of_iff (Path.slash ∈ s ∧ Path.slash ∈ s' ∧
    (s.head? = some Path.slash ↔ s'.head? = some Path.slash) ∧
    (ascii "~/" <+: s ↔ ascii "~/" <+: s') ∧ significant s = significant s')
    ⟨fun ⟨h₁, h₂, h₃, h₄, h₅⟩ => ⟨h₁, h₂, h₃, h₄, h₅⟩, fun ⟨h₁, h₂, h₃, h₄, h₅⟩ => ⟨h₁, h₂, h₃, h₄, h₅⟩⟩

/-- **One prefix.** Both specs have one root and one name; opening,
registering and deleting go the same way with either. -/
structure SameInstance (env : Env) (s s' : Bytes) : Prop where
  root : ∀ {D : Type} (files : Files D) (d : D) (r r' : Path),
    (Op.exec (resolvePrefixRoot env files s) d).1 = .ok r →
    (Op.exec (resolvePrefixRoot env files s') d).1 = .ok r' →
      samePath env r r' = true ∧ specName s r = specName s' r'
  opened : ∀ host initWine args t, Op.exec (openPrefixWith env host initWine args s) t =
    Op.exec (openPrefixWith env host initWine args s') t
  registered : ∀ {D : Type} (files : Files D) (d : D) (r r' : Path),
    (Op.exec (resolvePrefixRoot env files s) d).1 = .ok r →
    (Op.exec (resolvePrefixRoot env files s') d).1 = .ok r' →
      ∀ entries, withInstance env (specName s' r') r' (withInstance env (specName s r) r entries) =
        withInstance env (specName s r) r entries
  deleted : ∀ fs d, Op.exec (deletePrefix env fs s) d = Op.exec (deletePrefix env fs s') d

/-- What is behind `~/` starts with a separator, and is taken for an
absolute path. -/
def fromRoot (spec : Bytes) : Prop :=
  ascii "~//" <+: spec

instance (spec : Bytes) : Decidable (fromRoot spec) :=
  inferInstanceAs (Decidable (_ <+: _))

/-- Both end in a separator, a dot or a dot-dot, or neither does, unless
they lead to the root directory; and where a home directory may be lost,
both lead to one directory. -/
def Agrees (env : Env) (s s' : Bytes) : Prop :=
  match expandUserPath env s, expandUserPath env s' with
  | .ok p, .ok p' =>
    (fromRoot s ∨ fromRoot s' → dirOf env p = dirOf env p') ∧
      (dirOf env p = [] ∨ (absolute env p).endsOpen = (absolute env p').endsOpen)
  | _, _ => True

variable {env : Env} {s s' : Bytes}

/-! ## Which specs are spellings of one path -/

/-! ## Where they lead -/

theorem foldl_visit_significant (rooted : Bool) (names kept : List Bytes) :
    (names.filter fun name => name ≠ [] ∧ name ≠ Path.dot).foldl (Path.visit rooted) kept =
      names.foldl (Path.visit rooted) kept := by
  induction names generalizing kept with
  | nil => rfl
  | cons name names ih =>
    by_cases hname : name ≠ [] ∧ name ≠ Path.dot
    · rw [List.filter_cons_of_pos (by simpa using hname), List.foldl_cons, List.foldl_cons, ih]
    · have hskip : Path.visit rooted kept name = kept := by
        unfold Path.visit
        rw [if_pos]
        by_cases hempty : name = []
        · exact .inl hempty
        · exact .inr (not_not.mp fun hdot => hname ⟨hempty, hdot⟩)
      rw [List.filter_cons_of_neg (by simpa using hname), List.foldl_cons, hskip, ih]

/-- The names of the path a text spells. -/
theorem foldl_visit_ofString (rooted : Bool) (text : Bytes) (kept : List Bytes) :
    (Path.ofString text).names.foldl (Path.visit rooted) kept =
      (significant text).foldl (Path.visit rooted) kept := by
  have hparts : ((text.splitOn Path.slash).filter (· ≠ [])).foldl (Path.visit rooted) kept =
      (significant text).foldl (Path.visit rooted) kept := by
    rw [← foldl_visit_significant, List.filter_filter, significant]
    congr 1
    refine List.filter_congr fun name _ => ?_
    by_cases hempty : name = [] <;> simp [hempty]
  rw [Path.ofString]
  split
  · rw [List.foldl_append, hparts]
    rfl
  · exact hparts

theorem dirOf_ofString (env : Env) (text : Bytes) : dirOf env (.ofString text) =
    ((significant text).foldl (Path.visit true)
      (if text.head? = some Path.slash then [] else env.currentPath.walk.reverse)).reverse := by
  rw [dirOf_eq, foldl_visit_ofString]
  simp only [Path.ofString, decide_eq_true_eq]

/-- A relative path below another leads on from there. -/
theorem dirOf_join_ofString (env : Env) (p : Path) {text : Bytes} (h : text.head? ≠ some Path.slash) :
    dirOf env (p.join (.ofString text)) =
      ((significant text).foldl (Path.visit true) (dirOf env p).reverse).reverse := by
  have hroot : (Path.ofString text).rooted = false := decide_eq_false h
  rw [← foldl_visit_ofString, dirOf_eq, dirOf_eq, List.reverse_reverse, Path.join, hroot,
    if_neg Bool.false_ne_true]
  by_cases hnames : (Path.ofString text).names = []
  · rw [if_pos hnames, hnames, List.foldl_nil]
    by_cases hfile : p.filename = []
    · rw [if_pos hfile]
    · rw [if_neg hfile, List.foldl_append]
      rfl
  · rw [if_neg hnames, List.foldl_append, Path.foldl_visit_closed]

/-- **When two paths have one normal form.** -/
theorem absoluteNormalPath_eq_iff (env : Env) (p p' : Path) :
    absoluteNormalPath env p = absoluteNormalPath env p' ↔ dirOf env p = dirOf env p' ∧
      (dirOf env p = [] ∨ (absolute env p).endsOpen = (absolute env p').endsOpen) := by
  have hp := absolute_rooted env p
  have hp' := absolute_rooted env p'
  constructor
  · intro heq
    have hdir : dirOf env p = dirOf env p' := by
      rw [← dirOf_absoluteNormalPath, heq, dirOf_absoluteNormalPath]
    refine ⟨hdir, ?_⟩
    have hkeeps := congrArg Path.keepsSeparator heq
    rw [absoluteNormalPath, absoluteNormalPath, Path.keepsSeparator_lexicallyNormal hp,
      Path.keepsSeparator_lexicallyNormal hp', Path.keepsSeparator, Path.keepsSeparator] at hkeeps
    rw [dirOf, dirOf] at hdir
    by_cases hroot : dirOf env p = []
    · exact .inl hroot
    · rw [dirOf] at hroot
      right
      rw [← hdir] at hkeeps
      simpa [hroot] using hkeeps
  · rintro ⟨hdir, hopen⟩
    have hkeeps : (absolute env p).keepsSeparator = (absolute env p').keepsSeparator := by
      rw [Path.keepsSeparator, Path.keepsSeparator]
      rw [dirOf, dirOf] at hdir
      rw [← hdir]
      rcases hopen with hroot | hopen
      · rw [dirOf] at hroot
        simp [hroot]
      · rw [hopen]
    rw [absoluteNormalPath, absoluteNormalPath, Path.lexicallyNormal_eq hp,
      Path.lexicallyNormal_eq hp', hkeeps]
    rw [dirOf, dirOf] at hdir
    rw [hdir]

/-! ## From the spec to the root -/

theorem expandUserPath_plain (hpath : Path.slash ∈ s) (h : ¬ascii "~/" <+: s) :
    expandUserPath env s = .ok (.ofString s) := by
  have htilde : s ≠ ascii "~" := by
    rintro rfl
    exact absurd hpath (by decide)
  rw [expandUserPath, if_neg htilde, if_neg h]

theorem expandUserPath_home (rest : Bytes) :
    expandUserPath env (ascii "~/" ++ rest) = (homeDir env).map (·.join (.ofString rest)) := by
  have htilde : ascii "~/" ++ rest ≠ ascii "~" := by
    intro heq
    have hlength := congrArg List.length heq
    rw [List.length_append, show (ascii "~/").length = 2 by decide,
      show (ascii "~").length = 1 by decide] at hlength
    omega
  have hrest : (ascii "~/" ++ rest).drop 2 = rest := rfl
  rw [expandUserPath, if_neg htilde, if_pos (List.prefix_append _ _), hrest]
  cases homeDir env <;> rfl

theorem significant_home (rest : Bytes) :
    significant (ascii "~/" ++ rest) = ascii "~" :: significant rest := by
  have hhome : ascii "~/" ++ rest = ascii "~" ++ Path.slash :: rest := rfl
  have htilde : Path.slash ∉ ascii "~" := by decide
  rw [significant, hhome, List.splitOn_append_cons_self_of_not_mem htilde,
    List.filter_cons_of_pos (by decide)]
  rfl

theorem not_fromRoot_iff (rest : Bytes) :
    ¬fromRoot (ascii "~/" ++ rest) ↔ rest.head? ≠ some Path.slash := by
  have htext : ascii "~//" = ascii "~/" ++ [Path.slash] := by decide
  rw [fromRoot, htext, List.prefix_append_right_inj, not_iff_not]
  cases rest <;> simp [Path.slash, eq_comm]

section Respelled

theorem Respelled.symm (h : Respelled s s') : Respelled s' s where
  path := h.path'
  path' := h.path
  rooted := h.rooted.symm
  home := h.home.symm
  names := h.names.symm

variable (h : Respelled s s')

include h

/-- Both specs are in the home directory, or neither is. -/
theorem Respelled.cases (env : Env) : (∃ rest rest', s = ascii "~/" ++ rest ∧ s' = ascii "~/" ++ rest' ∧
      significant rest = significant rest') ∨
    expandUserPath env s = .ok (.ofString s) ∧ expandUserPath env s' = .ok (.ofString s') ∧
      dirOf env (.ofString s) = dirOf env (.ofString s') := by
  by_cases hhome : ascii "~/" <+: s
  · left
    obtain ⟨rest, rfl⟩ := hhome
    obtain ⟨rest', rfl⟩ := h.home.mp (List.prefix_append _ _)
    have hnames := h.names
    rw [significant_home, significant_home] at hnames
    exact ⟨rest, rest', rfl, rfl, (List.cons.inj hnames).2⟩
  · right
    refine ⟨expandUserPath_plain h.path hhome,
      expandUserPath_plain h.path' fun hhome' => hhome (h.home.mpr hhome'), ?_⟩
    rw [dirOf_ofString, dirOf_ofString, h.names]
    simp only [h.rooted]

/-- Only a home directory that is not there keeps a spec from being
expanded. -/
theorem Respelled.error {e : Bytes} (he : expandUserPath env s = .error e) :
    expandUserPath env s' = .error e := by
  rcases h.cases env with ⟨rest, rest', rfl, rfl, -⟩ | ⟨hplain, -⟩
  · rw [expandUserPath_home] at he ⊢
    cases hhome : homeDir env with
    | error e' =>
      rw [hhome] at he
      exact congrArg Except.error (Except.error.inj he)
    | ok home =>
      rw [hhome] at he
      exact nomatch he
  · rw [hplain] at he
    exact nomatch he

/-- **Two spellings lead to one directory**, unless one of them loses the
home directory. -/
theorem Respelled.dirOf_eq {p p' : Path} (hp : expandUserPath env s = .ok p)
    (hp' : expandUserPath env s' = .ok p') (hs : ¬fromRoot s) (hs' : ¬fromRoot s') :
    dirOf env p = dirOf env p' := by
  rcases h.cases env with ⟨rest, rest', rfl, rfl, hnames⟩ | ⟨hplain, hplain', hdir⟩
  · rw [expandUserPath_home] at hp hp'
    cases hhome : homeDir env with
    | error e =>
      rw [hhome] at hp
      exact nomatch hp
    | ok home =>
      rw [hhome] at hp hp'
      rw [← Except.ok.inj hp, ← Except.ok.inj hp', dirOf_join_ofString env home
        ((not_fromRoot_iff rest).mp hs), dirOf_join_ofString env home
        ((not_fromRoot_iff rest').mp hs'), hnames]
  · rw [hplain] at hp
    rw [hplain'] at hp'
    rw [← Except.ok.inj hp, ← Except.ok.inj hp']
    exact hdir

/-- **Which spellings have one root.** -/
theorem Respelled.root_iff :
    (expandUserPath env s).map (absoluteNormalPath env) =
      (expandUserPath env s').map (absoluteNormalPath env) ↔ Agrees env s s' := by
  rw [Agrees]
  rcases hp : expandUserPath env s with e | p
  · rw [h.error hp]
    exact iff_of_true rfl trivial
  · rcases hp' : expandUserPath env s' with e' | p'
    · rw [h.symm.error hp'] at hp
      exact nomatch hp
    · simp only [Except.map, Except.ok.injEq, absoluteNormalPath_eq_iff]
      refine and_congr_left fun _ => ⟨fun hdir _ => hdir, fun hdir => ?_⟩
      by_cases hroot : fromRoot s ∨ fromRoot s'
      · exact hdir hroot
      · rw [not_or] at hroot
        exact h.dirOf_eq hp hp' hroot.1 hroot.2

end Respelled

/-! ## One prefix -/

theorem looksLikePath_of_mem (h : Path.slash ∈ s) : looksLikePath s = true :=
  decide_eq_true (.inl h)

/-- A path is resolved without a look at the registry. -/
theorem resolvePrefixRoot_path {D : Type} (files : Files D) (h : Path.slash ∈ s) :
    resolvePrefixRoot env files s =
      Op.lift ((expandUserPath env s).map (absoluteNormalPath env)) := by
  rw [resolvePrefixRoot, if_neg (List.ne_nil_of_mem h), if_pos (looksLikePath_of_mem h)]
  cases expandUserPath env s <;> rfl

/-- Registering what was registered changes nothing. -/
theorem withInstance_withInstance (env : Env) (name : Bytes) (root : Path) (entries : List Entry) :
    withInstance env name root (withInstance env name root entries) =
      withInstance env name root entries := by
  rw [withInstance, withInstance, List.filter_append, List.filter_filter]
  simp

/-- **Which spellings are one prefix to the code.** -/
theorem spelling_iff (env : Env) {s s' : Bytes} (h : Respelled s s') :
    SameInstance env s s' ↔ Agrees env s s' := by
  have hresolve : ∀ {D : Type} (files : Files D), resolvePrefixRoot env files s =
      Op.lift ((expandUserPath env s).map (absoluteNormalPath env)) := fun files =>
    resolvePrefixRoot_path files h.path
  have hresolve' : ∀ {D : Type} (files : Files D), resolvePrefixRoot env files s' =
      Op.lift ((expandUserPath env s').map (absoluteNormalPath env)) := fun files =>
    resolvePrefixRoot_path files h.path'
  have hpath := looksLikePath_of_mem h.path
  have hpath' := looksLikePath_of_mem h.path'
  rw [← h.root_iff]
  constructor
  · intro hsame
    rcases hp : expandUserPath env s with e | p
    · rw [h.error hp]
    rcases hp' : expandUserPath env s' with e | p'
    · rw [h.symm.error hp'] at hp
      exact nomatch hp
    -- the registry does not matter, so an empty one will do
    have hroot := hsame.root (D := Unit) ⟨pure none, pure [], fun _ => pure ()⟩ ()
      (absoluteNormalPath env p) (absoluteNormalPath env p')
      (by rw [hresolve, hp]; rfl) (by rw [hresolve', hp']; rfl)
    have heq := of_decide_eq_true hroot.1
    rw [absoluteNormalPath_idem, absoluteNormalPath_idem] at heq
    exact congrArg Except.ok heq
  · intro heq
    have hroots : ∀ {D : Type} (files : Files D), resolvePrefixRoot env files s =
        resolvePrefixRoot env files s' := fun files => by rw [hresolve, hresolve', heq]
    have hone : ∀ {D : Type} (files : Files D) (d : D) (r r' : Path),
        (Op.exec (resolvePrefixRoot env files s) d).1 = .ok r →
        (Op.exec (resolvePrefixRoot env files s') d).1 = .ok r' → r = r' := by
      intro D files d r r' hr hr'
      rw [hroots, hr'] at hr
      exact (Except.ok.inj hr).symm
    have hname : ∀ r, specName s r = specName s' r := fun r => by
      rw [specName, specName, if_pos hpath, if_pos hpath']
    refine ⟨fun files d r r' hr hr' => ?_, fun host initWine args t => ?_,
      fun files d r r' hr hr' entries => ?_, fun fs d => ?_⟩
    · obtain rfl := hone files d r r' hr hr'
      exact ⟨decide_eq_true rfl, hname r⟩
    · rw [openPrefixWith, openPrefixWith, hroots]
      simp only [hpath, hpath', if_true]
    · obtain rfl := hone files d r r' hr hr'
      rw [hname r]
      exact withInstance_withInstance env _ r entries
    · rw [deletePrefix, deletePrefix, hroots]
      simp only [hname]

/-! ## A separator at the end -/

def workEntry : Entry :=
  ⟨ascii "a", .ofString (ascii "/p/a")⟩

def defaultEntry : Entry :=
  ⟨ascii "default", .ofString (ascii "/d")⟩

def workDisk : Disk where
  registry := some (.ok [workEntry, defaultEntry])
  found := .ok []
  writeError := none
  removed := []

/-- A file system where every directory is a prefix. -/
def prefixesOnly : FileSystem where
  isPrefixRoot _ := true
  removeAll _ := ⟨none, true, .ok [], none⟩

/-- `muplar delete /p/a/` removes the directory of the instance `a`, and
unregisters the instance `default`. -/
theorem slash_is_another_prefix :
    Respelled (ascii "/p/a") (ascii "/p/a/") ∧
      instances userEnv (deleted userEnv prefixesOnly (ascii "/p/a") workDisk) = [defaultEntry] ∧
      instances userEnv (deleted userEnv prefixesOnly (ascii "/p/a/") workDisk) = [workEntry] ∧
      (deleted userEnv prefixesOnly (ascii "/p/a/") workDisk).removed = [.ofString (ascii "/p/a/")] ∧
      ¬SameInstance userEnv (ascii "/p/a") (ascii "/p/a/") := by
  have hplain : instances userEnv (deleted userEnv prefixesOnly (ascii "/p/a") workDisk) =
      [defaultEntry] := by
    decide
  have hslash : instances userEnv (deleted userEnv prefixesOnly (ascii "/p/a/") workDisk) =
      [workEntry] := by
    decide
  refine ⟨by decide, hplain, hslash, by decide, fun hsame => ?_⟩
  have heq := hsame.deleted prefixesOnly workDisk
  rw [deleted, show ({ workDisk with removed := [] } : Disk) = workDisk from rfl] at hplain hslash
  rw [heq, hslash] at hplain
  exact absurd hplain (by decide)

/-- Dots between the names do not matter. -/
theorem dots_are_the_same_prefix : SameInstance userEnv (ascii "/p/./a") (ascii "/p//a") :=
  (spelling_iff userEnv (by decide)).mpr ⟨by decide, .inr (by decide)⟩

end Prefix

end Muplar
