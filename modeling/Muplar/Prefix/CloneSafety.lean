import Muplar.Prefix.CloneFrame
/-!
# Prefixes — when a clone is safe

A clone is to leave its source as it was, and to refuse a destination
that overlaps it before it changes anything. `clone_safe` says when it
does: the overlap test misses one spelling of a destination around the
source, and then `--replace` removes the source with it.
-/

namespace Muplar

namespace Prefix

variable {env : Env} {host : Host} {t : FileTree}

/-! ## The overlap test -/

/-- **What the overlap test finds.** A destination inside the source, or
around it in the normal form without a separator at the end. -/
theorem overlaps_iff (env : Env) (source dest : Path) :
    overlaps env source dest ↔ dirOf env source <+: dirOf env dest ∨
      dirOf env dest <+: dirOf env source ∧ ¬(absolute env dest).keepsSeparator := by
  have hplain : ∀ n ∈ dirOf env source, Path.Plain n := Path.walk_plain (absolute_rooted env source)
  have hnotin : [] ∉ dirOf env source := fun h => (hplain [] h).1 rfl
  have hsource : (weaklyCanonical env source).lexicallyNormal = ⟨true, dirOf env source⟩ := by
    rw [Path.lexicallyNormal_eq (by rfl)]
    have hwalk : (weaklyCanonical env source).walk = dirOf env source :=
      Path.walk_of_plain hplain true
    have hclosed : (weaklyCanonical env source).keepsSeparator = false := by
      simp [Path.keepsSeparator, weaklyCanonical, Path.endsOpen_of_plain hplain]
    rw [hclosed, hwalk]
    rfl
  have hdest : (absoluteNormalPath env dest).lexicallyNormal = absoluteNormalPath env dest :=
    Path.lexicallyNormal_idem (absolute_rooted env dest)
  have hform : absoluteNormalPath env dest =
      ⟨true, if (absolute env dest).keepsSeparator then dirOf env dest ++ [[]] else dirOf env dest⟩ :=
    Path.lexicallyNormal_eq (absolute_rooted env dest)
  have hcons : ∀ a b : List Bytes, components ⟨true, a⟩ <+: components ⟨true, b⟩ ↔ a <+: b := by
    intro a b
    simp [components, List.cons_prefix_cons]
  have hin : pathIsSameOrInside (weaklyCanonical env source) (absoluteNormalPath env dest) ↔
      dirOf env source <+: if (absolute env dest).keepsSeparator then dirOf env dest ++ [[]]
        else dirOf env dest := by
    rw [pathIsSameOrInside, decide_eq_true_eq, hsource, hdest, hform, hcons]
  have hout : pathIsSameOrInside (absoluteNormalPath env dest) (weaklyCanonical env source) ↔
      (if (absolute env dest).keepsSeparator then dirOf env dest ++ [[]] else dirOf env dest) <+:
        dirOf env source := by
    rw [pathIsSameOrInside, decide_eq_true_eq, hsource, hdest, hform, hcons]
  rw [overlaps, decide_eq_true_eq, hin, hout, hform, weaklyCanonical, Path.mk.injEq]
  simp only [true_and]
  by_cases hsep : (absolute env dest).keepsSeparator
  · -- a name of the source is not empty, so the separator is never matched
    rw [if_pos hsep]
    have hinside : dirOf env source <+: dirOf env dest ++ [[]] ↔
        dirOf env source <+: dirOf env dest := by
      rw [List.prefix_concat_iff]
      refine or_iff_right fun heq => hnotin ?_
      rw [heq]
      simp
    have haround : ¬dirOf env dest ++ [[]] <+: dirOf env source := by
      intro h
      exact hnotin (h.subset (by simp))
    have hne : dirOf env source ≠ dirOf env dest ++ [[]] := by
      intro heq
      exact haround (by rw [heq])
    simp [hinside, haround, hne, hsep]
  · rw [if_neg hsep]
    have heq : dirOf env source = dirOf env dest → dirOf env source <+: dirOf env dest := by
      intro h
      rw [h]
    constructor
    · rintro (h | h | h)
      · exact Or.inl (heq h)
      · exact Or.inl h
      · exact Or.inr ⟨h, hsep⟩
    · rintro (h | ⟨h, -⟩)
      · exact Or.inr (Or.inl h)
      · exact Or.inr (Or.inr h)

theorem overlaps_normal_iff (env : Env) (source dest : Path) :
    overlaps env source (absoluteNormalPath env dest) ↔ dirOf env source <+: dirOf env dest ∨
      dirOf env dest <+: dirOf env source ∧ ¬(absolute env dest).keepsSeparator := by
  have hkeeps : (absolute env (absoluteNormalPath env dest)).keepsSeparator =
      (absolute env dest).keepsSeparator := by
    rw [absolute_absoluteNormalPath]
    exact Path.keepsSeparator_lexicallyNormal (absolute_rooted env dest)
  rw [overlaps_iff, dirOf_absoluteNormalPath, hkeeps]

/-! ## When a clone is safe -/

/-- The source as `clone_prefix_into` finds it, and the tree then. -/
structure Opened (env : Env) (host : Host) (spec : Bytes) (t : FileTree) (source : PrefixLayout)
    (t₁ : FileTree) : Prop where
  exec : Op.exec (openPrefix env host spec) t = (.ok source, t₁)
  isPrefix : isPrefixRoot env t₁ source.root

/-- Equal, inside or around. -/
def Overlap (a b : Location) : Prop :=
  a <+: b ∨ b <+: a

/-- **A safe clone.** Where the destination overlaps the source the call
throws and nothing is changed; and the tree below the source is always
left as it was. -/
structure SafeClone (env : Env) (host : Host) (args : CloneArgs) (t : FileTree) : Prop where
  overlapping : ∀ source t₁ dest, Opened env host args.sourceSpec t source t₁ →
    expandUserPath env args.destRoot = .ok dest →
    Overlap (dirOf env source.root) (dirOf env dest) →
    (∃ e, (Op.exec (clonePrefixInto env host args) t).1 = .error e) ∧
      (Op.exec (clonePrefixInto env host args) t).2 = t
  kept : ∀ source t₁, Opened env host args.sourceSpec t source t₁ →
    ∀ l, dirOf env source.root <+: l →
      (Op.exec (clonePrefixInto env host args) t).2.node l = t.node l

/-- The call gets as far as the overlap test. -/
structure Compared (env : Env) (host : Host) (args : CloneArgs) (t : FileTree)
    (source : PrefixLayout) (t₁ : FileTree) (dest : Path) : Prop where
  name_ne : args.destName ≠ []
  root_ne : args.destRoot ≠ []
  opened : Opened env host args.sourceSpec t source t₁
  expanded : expandUserPath env args.destRoot = .ok dest

/-- The destination is not to be replaced if it is strictly around the
source and its normal form ends in a separator. -/
def AroundKept (env : Env) (host : Host) (args : CloneArgs) (t : FileTree) : Prop :=
  ∀ source t₁ dest, Compared env host args t source t₁ dest →
    dirOf env dest <+: dirOf env source.root → dirOf env dest ≠ dirOf env source.root →
    (absolute env dest).keepsSeparator → args.replaceExisting = false

/-- A destination that overlaps the source does not come with a registry
that has yet to be made. -/
def RegistrySettled (env : Env) (host : Host) (args : CloneArgs) (t : FileTree) : Prop :=
  ∀ source t₁ dest, Compared env host args t source t₁ dest →
    Overlap (dirOf env source.root) (dirOf env dest) → RegistryThere env args.sourceSpec t

/-- The registry is not below the source. -/
def RegistryOutside (env : Env) (host : Host) (args : CloneArgs) (t : FileTree) : Prop :=
  ∀ source t₁ home, Opened env host args.sourceSpec t source t₁ → muplarHome env = .ok home →
    ¬dirOf env source.root <+: registryLocation home env

/-- The layout of the destination. -/
def destination (env : Env) (args : CloneArgs) (source : PrefixLayout) (dest : Path) :
    PrefixLayout :=
  { source with root := absoluteNormalPath env dest, name := args.destName }

/-- The call from the overlap test on. -/
theorem Compared.exec_eq {args : CloneArgs} {source : PrefixLayout} {t₁ : FileTree} {dest : Path}
    (h : Compared env host args t source t₁ dest) :
    Op.exec (clonePrefixInto env host args) t =
      if overlaps env source.root (absoluteNormalPath env dest) then
        (.error (ascii "cannot clone overlapping prefix paths"), t₁)
      else Op.exec (copyPrefix env host source (destination env args source dest)
        args.replaceExisting) t₁ := by
  unfold clonePrefixInto
  rw [if_neg h.name_ne, if_neg h.root_ne, Op.exec_bind_ok h.opened.exec]
  have hget : Op.exec (get : Op FileTree FileTree) t₁ = (.ok t₁, t₁) := rfl
  rw [Op.exec_bind_ok hget, if_neg (by rw [h.opened.isPrefix]; simp)]
  have hlift : Op.exec (Op.lift (expandUserPath env args.destRoot)) t₁ = (.ok dest, t₁) := by
    rw [Op.exec_lift, h.expanded]
  rw [Op.exec_bind_ok hlift]
  change Op.exec (if overlaps env source.root (absoluteNormalPath env dest) then throw _ else
    copyPrefix env host source (destination env args source dest) args.replaceExisting) t₁ = _
  split
  · rfl
  · rfl

theorem node_of_isDirectory {p : Path} (h : isDirectory env t p) :
    t.node (dirOf env p) = some .dir := by
  rw [isDirectory, decide_eq_true_eq, lookup] at h
  cases hnode : t.node (dirOf env p) with
  | none =>
    rw [hnode] at h
    exact nomatch h
  | some node =>
    cases node with
    | dir => rfl
    | file content =>
      rw [hnode] at h
      simp only at h
      split at h
      · exact nomatch h
      · exact nomatch h

theorem pathExists_of_dir {p : Path} (h : t.node (dirOf env p) = some .dir) :
    pathExists env t p := by
  rw [pathExists, lookup, h]
  rfl

/-- A prefix has its metadata in a file. -/
theorem node_prefixToml {root : Path} (h : isPrefixRoot env t root) :
    ∃ content, t.node (dirOf env root ++ [ascii "prefix.toml"]) = some (.file content) := by
  rw [isPrefixRoot, Bool.and_eq_true] at h
  have hread := h.2
  rw [readFile, lookup, dirOf_prefixToml] at hread
  cases hnode : t.node (dirOf env root ++ [ascii "prefix.toml"]) with
  | none =>
    rw [hnode] at hread
    exact nomatch hread
  | some node =>
    cases node with
    | dir =>
      rw [hnode] at hread
      exact nomatch hread
    | file content => exact ⟨content, rfl⟩

/-- What is around an existing directory is one. -/
theorem dir_of_around {a b : Location} (h : a <+: b) (hb : t.node b = some .dir) :
    t.node a = some .dir := by
  obtain ⟨rest, rfl⟩ := h
  by_cases hrest : rest = []
  · rwa [hrest, List.append_nil] at hb
  · exact FileTree.dir_of_append_ne_none hrest (by rw [hb]; exact Option.some_ne_none _)

section Around

variable {args : CloneArgs} {source : PrefixLayout} {t₁ : FileTree} {dest : Path}

/-- A destination around the source exists. -/
theorem destination_exists (args : CloneArgs) (hsource : isPrefixRoot env t₁ source.root)
    (haround : dirOf env dest <+: dirOf env source.root) :
    pathExists env t₁ (destination env args source dest).root := by
  rw [isPrefixRoot, Bool.and_eq_true] at hsource
  apply pathExists_of_dir
  change t₁.node (dirOf env (absoluteNormalPath env dest)) = some .dir
  rw [dirOf_absoluteNormalPath]
  exact dir_of_around haround (node_of_isDirectory hsource.1)

/-- Without `--replace` the call ends there. -/
theorem copyPrefix_refused (hsource : isPrefixRoot env t₁ source.root)
    (haround : dirOf env dest <+: dirOf env source.root) :
    ∃ e, Op.exec (copyPrefix env host source (destination env args source dest) false) t₁ =
      (.error e, t₁) := by
  have hexists := destination_exists args hsource haround
  have hclear : ∃ e, Op.exec (clearDestination env (destination env args source dest) false) t₁ =
      (.error e, t₁) := by
    unfold clearDestination
    have hget : Op.exec (get : Op FileTree FileTree) t₁ = (.ok t₁, t₁) := rfl
    rw [Op.exec_bind_ok hget, if_pos hexists]
    exact ⟨_, rfl⟩
  obtain ⟨e, hclear⟩ := hclear
  exact ⟨e, Op.exec_bind_error hclear _⟩

/-- With it, the source goes with what is around it. -/
theorem copyPrefix_destroys (hsource : isPrefixRoot env t₁ source.root)
    (haround : dirOf env dest <+: dirOf env source.root)
    (hne : dirOf env dest ≠ dirOf env source.root) (hsep : (absolute env dest).keepsSeparator)
    {l : Location} (hl : dirOf env source.root <+: l) :
    (Op.exec (copyPrefix env host source (destination env args source dest) true) t₁).2.node l =
      none := by
  have hS : t₁.node (dirOf env source.root) = some .dir := by
    rw [isPrefixRoot, Bool.and_eq_true] at hsource
    exact node_of_isDirectory hsource.1
  have hD : dirOf env dest ≠ [] := by
    intro hnil
    rw [Path.keepsSeparator, decide_eq_true_eq] at hsep
    exact hsep.1 hnil
  have hstrict : ∀ l, dirOf env source.root <+: l → ¬l <+: dirOf env dest := by
    intro l hl habove
    exact hne (haround.eq_of_length_le (hl.trans habove).length_le)
  have hexists := destination_exists args hsource haround
  have hroot : dirOf env (destination env args source dest).root = dirOf env dest :=
    dirOf_absoluteNormalPath env dest
  have hparent : dirOf env (destination env args source dest).root.parent = dirOf env dest :=
    dirOf_parent_of_keepsSeparator hsep
  have hclear : Op.exec (clearDestination env (destination env args source dest) true) t₁ =
      (.ok (), t₁.remove (dirOf env dest)) := by
    unfold clearDestination
    have hget : Op.exec (get : Op FileTree FileTree) t₁ = (.ok t₁, t₁) := rfl
    rw [Op.exec_bind_ok hget, if_pos hexists]
    change (Except.ok (), if pathExists env t₁ (destination env args source dest).root then
      t₁.remove (dirOf env (destination env args source dest).root) else t₁) = _
    rw [if_pos hexists, hroot]
  have hfree : (t₁.remove (dirOf env dest)).isFree (dirOf env dest) := by
    rw [FileTree.isFree_iff]
    intro a ha
    by_cases hself : dirOf env dest <+: a
    · left
      obtain rfl := ha.eq_of_length_le hself.length_le
      exact FileTree.remove_of_under hself hD
    · right
      rw [FileTree.remove_of_not_under hself]
      exact dir_of_around (ha.trans haround) hS
  have hdirs : Op.exec (createDirectories env (destination env args source dest).root.parent)
      (t₁.remove (dirOf env dest)) =
      (.ok (), (t₁.remove (dirOf env dest)).makeDirs (dirOf env dest)) := by
    change Op.exec (if (t₁.remove (dirOf env dest)).isFree
      (dirOf env (destination env args source dest).root.parent) then set ((t₁.remove _).makeDirs
        (dirOf env (destination env args source dest).root.parent)) else throw _) _ = _
    rw [hparent, if_pos hfree]
    rfl
  -- the source is gone, and with it what was to be copied
  have hgone : ∀ l, dirOf env source.root <+: l →
      ((t₁.remove (dirOf env dest)).makeDirs (dirOf env dest)).node l = none := by
    intro l hl
    have hunder := haround.trans hl
    rw [FileTree.makeDirs_of_not_above (hstrict l hl)]
    refine FileTree.remove_of_under hunder fun hnil => hD ?_
    rw [hnil] at hunder
    exact List.prefix_nil.mp hunder
  have hcopy : ∃ e, Op.exec (copyTree env source.root (destination env args source dest).root)
      ((t₁.remove (dirOf env dest)).makeDirs (dirOf env dest)) =
      (.error e, (t₁.remove (dirOf env dest)).makeDirs (dirOf env dest)) := by
    have hnot : ¬((t₁.remove (dirOf env dest)).makeDirs (dirOf env dest)).isCopyable
        (dirOf env source.root) (dirOf env (destination env args source dest).root) := by
      intro hcopyable
      rw [FileTree.isCopyable, decide_eq_true_eq, hgone _ List.prefix_rfl] at hcopyable
      exact absurd hcopyable.1 (by simp)
    refine ⟨ascii "cannot copy", ?_⟩
    change Op.exec (if h : ((t₁.remove (dirOf env dest)).makeDirs (dirOf env dest)).isCopyable
      (dirOf env source.root) (dirOf env (destination env args source dest).root) then
        set (FileTree.copyDir _ _ _ h) else throw _) _ = _
    rw [dif_neg hnot]
    rfl
  obtain ⟨e, hcopy⟩ := hcopy
  unfold copyPrefix
  rw [Op.exec_bind_ok hclear, Op.exec_bind_ok hdirs, Op.exec_bind_error hcopy]
  exact hgone l hl

end Around

/-- Two locations above a third overlap. -/
theorem overlap_of_common {a b l : Location} (ha : a <+: l) (hb : b <+: l) : Overlap a b :=
  List.prefix_or_prefix_of_prefix ha hb

/-- Opening leaves what is below the source alone, where the registry is
elsewhere. -/
theorem RegistryOutside.opened_node {args : CloneArgs} {source : PrefixLayout} {t₁ : FileTree}
    (h : RegistryOutside env host args t) (hopened : Opened env host args.sourceSpec t source t₁)
    {l : Location} (hl : dirOf env source.root <+: l) : t₁.node l = t.node l := by
  have hstays : Stays (fun l => dirOf env source.root <+: l) (openPrefix env host args.sourceSpec) := by
    refine stays_bind (stays_resolvePrefixRoot ?_ _) fun root =>
      stays_loadPrefixAtRoot env root _ _ _ _ _ _
    intro home hhome l hl habove
    exact h source t₁ home hopened hhome (hl.trans habove)
  have hnode := hstays t l hl
  rwa [hopened.exec] at hnode

/-- A call that stops before it opens the source changes nothing. -/
theorem exec_clone_missing (env : Env) (host : Host) (t : FileTree) {args : CloneArgs}
    (h : args.destName = [] ∨ args.destRoot = []) :
    ∃ e, Op.exec (clonePrefixInto env host args) t = (.error e, t) := by
  unfold clonePrefixInto
  by_cases hname : args.destName = []
  · rw [if_pos hname]
    exact ⟨_, rfl⟩
  · rw [if_neg hname, if_pos (h.resolve_left hname)]
    exact ⟨_, rfl⟩

/-- Where the destination overlaps the source, and is not replaced around
it, the call throws with the tree it had after opening. -/
theorem Compared.overlap_throws {args : CloneArgs} {source : PrefixLayout} {t₁ : FileTree}
    {dest : Path} (h : Compared env host args t source t₁ dest)
    (hoverlap : Overlap (dirOf env source.root) (dirOf env dest))
    (hkept : AroundKept env host args t) :
    ∃ e, Op.exec (clonePrefixInto env host args) t = (.error e, t₁) := by
  rw [h.exec_eq]
  split
  · exact ⟨_, rfl⟩
  · rename_i hmissed
    rw [overlaps_normal_iff, not_or, not_and, not_not] at hmissed
    obtain ⟨hnotin, hsep⟩ := hmissed
    have haround := hoverlap.resolve_left hnotin
    have hne : dirOf env dest ≠ dirOf env source.root := by
      intro heq
      exact hnotin (by rw [heq])
    rw [hkept source t₁ dest h haround hne (hsep haround)]
    exact copyPrefix_refused h.opened.isPrefix haround

/-- A call whose destination cannot be expanded ends with the tree it had
after opening. -/
theorem exec_clone_unexpanded {args : CloneArgs} {source : PrefixLayout} {t₁ : FileTree}
    {e : Bytes} (hname : args.destName ≠ []) (hroot : args.destRoot ≠ [])
    (hopened : Opened env host args.sourceSpec t source t₁)
    (hexpand : expandUserPath env args.destRoot = .error e) :
    Op.exec (clonePrefixInto env host args) t = (.error e, t₁) := by
  unfold clonePrefixInto
  rw [if_neg hname, if_neg hroot, Op.exec_bind_ok hopened.exec]
  have hget : Op.exec (get : Op FileTree FileTree) t₁ = (.ok t₁, t₁) := rfl
  rw [Op.exec_bind_ok hget, if_neg (by rw [hopened.isPrefix]; simp)]
  have hlift : Op.exec (Op.lift (expandUserPath env args.destRoot)) t₁ = (.error e, t₁) := by
    rw [Op.exec_lift, hexpand]
  exact Op.exec_bind_error hlift _

/-- The files of a prefix were there before the registry was made. -/
theorem RegistryMade.node_prefixToml {t₁ : FileTree} {root : Location} {content : Bytes}
    (h : RegistryMade env t t₁)
    (hnode : t₁.node (root ++ [ascii "prefix.toml"]) = some (.file content)) :
    t.node (root ++ [ascii "prefix.toml"]) = some (.file content) := by
  obtain ⟨home, text, -, -, h', rfl⟩ := h
  have hne : root ++ [ascii "prefix.toml"] ≠ registryLocation home env := by
    intro heq
    have hlast := congrArg List.getLast? heq
    simp only [registryLocation, List.getLast?_concat, Option.some.injEq] at hlast
    exact absurd hlast (by decide)
  rw [FileTree.writeFile_of_ne h' hne] at hnode
  by_cases habove : root ++ [ascii "prefix.toml"] <+: dirOf env home
  · rw [FileTree.makeDirs_above habove] at hnode
    exact nomatch hnode
  · rwa [FileTree.makeDirs_of_not_above habove] at hnode

def cloneEnv : Env where
  currentPath := ⟨true, []⟩
  home := some (ascii "/home/u")
  muplarHome := none
  rooted := rfl

/-- A host that lists nothing and adds nothing to a layout. -/
def plainHost : Host where
  listing _ _ := []
  parseRegistry _ := .ok []
  printRegistry _ := []
  ensureLayoutDirs _ _ := pure ()
  confined _ _ _ _ _ := rfl

/-- A prefix at `/p/src`. -/
def sourceTree : FileTree :=
  (FileTree.empty.makeDirs [ascii "p", ascii "src"]).writeFile
    [ascii "p", ascii "src", ascii "prefix.toml"] [] (by decide)

/-- `clone /p/src copy /p/ --replace`. -/
def aroundArgs : CloneArgs where
  sourceSpec := ascii "/p/src"
  destName := ascii "copy"
  destRoot := ascii "/p/"
  replaceExisting := true

end Prefix

end Muplar
