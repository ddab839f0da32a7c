import Muplar.Common.Lines
import Muplar.Common.Text
import Muplar.Prefix.CloneSafety
/-!
# Prefixes — the configuration file, read back

`write_prefix_toml` writes a line for each field, and `load_prefix_at_root`
looks a field up by the first line that starts with its key. As long as
no field breaks its line, the lines that are read are the lines that were
written (`readTomlString_prefixToml`), and the loaded prefix is the
written one up to what loading does to every prefix: a prefix without a
name is called like its directory, a linux prefix without a distribution
is an ubuntu one, and a sysroot is kept as an absolute path.
-/

namespace Muplar

namespace Prefix

/-! ## Values -/

/-- One byte of `quote_toml`. -/
def tomlByte (c : UInt8) : Bytes :=
  if c = backslash ∨ c = quote then [backslash, c] else [c]

theorem quoteToml_eq (value : Bytes) :
    quoteToml value = quote :: (value.flatMap tomlByte ++ [quote]) := rfl

theorem unescape_tomlByte (c : UInt8) (rest : Bytes) :
    unescape (tomlByte c ++ rest) = c :: unescape rest := by
  by_cases hc : c = backslash ∨ c = quote
  · rw [tomlByte, if_pos hc]
    show unescape (backslash :: c :: rest) = _
    rw [unescape, if_pos rfl]
  · have hplain : c ≠ backslash := fun h => hc (.inl h)
    rw [tomlByte, if_neg hc]
    cases rest with
    | nil =>
      show (if c = backslash then [] else [c]) = _
      rw [if_neg hplain]
      rfl
    | cons next rest =>
      show unescape (c :: next :: rest) = _
      rw [unescape, if_neg hplain]

theorem unescape_flatMap (value : Bytes) : unescape (value.flatMap tomlByte) = value := by
  induction value with
  | nil => rfl
  | cons c value ih => rw [List.flatMap_cons, unescape_tomlByte, ih]

/-- **A value is read back** from between its quotes. -/
theorem tomlValue_quoteToml (value : Bytes) : tomlValue (quoteToml value) = some value := by
  have hlast : (quoteToml value).getLast? = some quote := by
    rw [quoteToml_eq, ← List.cons_append, List.getLast?_concat]
  have hlength : 2 ≤ (quoteToml value).length := by
    rw [quoteToml_eq, List.length_cons, List.length_append, List.length_singleton]
    omega
  have hinner : ((quoteToml value).drop 1).dropLast = value.flatMap tomlByte := by
    rw [quoteToml_eq, List.drop_one, List.tail_cons, List.dropLast_concat]
  rw [tomlValue, if_neg, hinner, unescape_flatMap]
  rintro (hshort | hhead | hopen)
  · omega
  · exact hhead rfl
  · exact hopen hlast

theorem newline_quoteToml {value : Bytes} (h : newline ∉ value) : newline ∉ quoteToml value := by
  have hne : newline ≠ quote := by decide
  have hback : newline ≠ backslash := by decide
  rw [quoteToml_eq]
  intro hmem
  rcases List.mem_cons.mp hmem with heq | hmem
  · exact hne heq
  rcases List.mem_append.mp hmem with hmem | hmem
  · obtain ⟨c, hc, hin⟩ := List.mem_flatMap.mp hmem
    rw [tomlByte] at hin
    split at hin
    · rcases List.mem_cons.mp hin with heq | hin
      · exact hback heq
      · exact h (List.mem_singleton.mp hin ▸ hc)
    · exact h (List.mem_singleton.mp hin ▸ hc)
  · exact hne (List.mem_singleton.mp hmem)

/-! ## Lines -/

/-- A line, without its newline. -/
def fieldLine (field : Bytes × Bytes) : Bytes :=
  field.1 ++ ascii " = " ++ field.2

/-- **A key finds its own lines.** Keys have no blank, so what stands
before the first blank is the key. -/
theorem isPrefixOf_fieldLine {key : Bytes} (hkey : 32 ∉ key) {field : Bytes × Bytes}
    (hfield : 32 ∉ field.1) :
    (key ++ ascii " = ").isPrefixOf (fieldLine field) = decide (field.1 = key) := by
  have hequals : ascii " = " = 32 :: ascii "= " := by decide
  rw [Bool.eq_iff_iff, List.isPrefixOf_iff_prefix, decide_eq_true_eq, fieldLine]
  constructor
  · rintro ⟨rest, hrest⟩
    rw [hequals, List.append_assoc, List.append_assoc, List.cons_append, List.cons_append] at hrest
    have hcut := congrArg (cut 32) hrest
    rw [cut_append hkey, cut_append hfield] at hcut
    exact (Prod.mk.inj hcut).1.symm
  · intro heq
    rw [heq]
    exact List.prefix_append _ _

/-- The first line with a key is the first field with it. -/
theorem readTomlString_fields {fields : List (Bytes × Bytes)}
    (hkeys : ∀ field ∈ fields, 32 ∉ field.1)
    (hlines : ∀ field ∈ fields, newline ∉ fieldLine field) {key : Bytes} (hkey : 32 ∉ key) :
    readTomlString (unlines newline (fields.map fieldLine)) key =
      (fields.lookup key).bind tomlValue := by
  have hall : ∀ line ∈ fields.map fieldLine, newline ∉ line := by
    intro line hline
    obtain ⟨field, hfield, rfl⟩ := List.mem_map.mp hline
    exact hlines field hfield
  have hsplit := splitOn_unlines_append hall []
  rw [List.append_nil, List.splitOn_nil] at hsplit
  rw [readTomlString, hsplit]
  clear hlines hall hsplit
  induction fields with
  | nil =>
    have hend : (key ++ ascii " = ").isPrefixOf [] = false := by
      rw [← Bool.not_eq_true, List.isPrefixOf_iff_prefix, List.prefix_nil]
      exact List.append_ne_nil_of_right_ne_nil _ (by decide)
    simp [hend]
  | cons field fields ih =>
    have hown := isPrefixOf_fieldLine hkey (hkeys field List.mem_cons_self)
    by_cases hfield : field.1 = key
    · have hvalue : (fieldLine field).drop (key ++ ascii " = ").length = field.2 := by
        rw [fieldLine, hfield, List.drop_left]
      have hlookup : (field :: fields).lookup key = some field.2 := by
        rw [List.lookup_cons, hfield, beq_self_eq_true]
      rw [decide_eq_true hfield] at hown
      simp only [List.map_cons, List.cons_append, List.find?_cons_of_pos hown, hvalue, hlookup]
      rfl
    · have hlookup : (field :: fields).lookup key = fields.lookup key := by
        rw [List.lookup_cons, beq_false_of_ne fun heq => hfield heq.symm]
      rw [decide_eq_false hfield] at hown
      rw [List.map_cons, List.cons_append,
        List.find?_cons_of_neg (by rw [hown]; exact Bool.false_ne_true), hlookup]
      exact ih fun field hmem => hkeys field (List.mem_cons_of_mem _ hmem)

/-! ## The written fields -/

/-- The fields of a layout, in the order in which they are written. -/
def tomlFields (env : Env) (layout : PrefixLayout) : List (Bytes × Bytes) :=
  [(ascii "version", ascii "1"),
    (ascii "name", quoteToml layout.name),
    (ascii "kind", quoteToml layout.kind.text),
    (ascii "arch", quoteToml layout.arch.text),
    (ascii "runner", quoteToml layout.runner),
    (ascii "logging", quoteToml (ascii (if layout.logging then "true" else "false")))] ++
  ((if layout.distro = [] then [] else [(ascii "distro", quoteToml layout.distro)]) ++
  (if layout.runtimeSysroot.isEmpty then []
    else [(ascii "runtime_sysroot", quoteToml (absolute env layout.runtimeSysroot).string)]))

variable {env : Env} {layout : PrefixLayout}

theorem prefixToml_eq (env : Env) (layout : PrefixLayout) :
    prefixToml env layout = unlines newline ((tomlFields env layout).map fieldLine) := by
  unfold prefixToml tomlFields
  by_cases hdistro : layout.distro = [] <;> by_cases hsysroot : layout.runtimeSysroot.isEmpty <;>
    simp [hdistro, hsysroot, tomlLine, fieldLine, unlines]

/-- No field of a layout breaks its line. -/
structure OneLine (env : Env) (layout : PrefixLayout) : Prop where
  name : newline ∉ layout.name
  runner : newline ∉ layout.runner
  distro : newline ∉ layout.distro
  sysroot : newline ∉ (absolute env layout.runtimeSysroot).string

theorem mem_tomlFields {field : Bytes × Bytes} (h : field ∈ tomlFields env layout) :
    field = (ascii "version", ascii "1") ∨ field = (ascii "name", quoteToml layout.name) ∨
    field = (ascii "kind", quoteToml layout.kind.text) ∨
    field = (ascii "arch", quoteToml layout.arch.text) ∨
    field = (ascii "runner", quoteToml layout.runner) ∨
    field = (ascii "logging", quoteToml (ascii (if layout.logging then "true" else "false"))) ∨
    field = (ascii "distro", quoteToml layout.distro) ∨
    field = (ascii "runtime_sysroot", quoteToml (absolute env layout.runtimeSysroot).string) := by
  have hopt : ∀ {c : Prop} [Decidable c] {x : Bytes × Bytes}, field ∈ (if c then [] else [x]) →
      field = x := by
    intro c _ x hx
    split at hx
    · exact absurd hx List.not_mem_nil
    · exact List.mem_singleton.mp hx
  rcases List.mem_append.mp h with h | h
  · simp only [List.mem_cons, List.not_mem_nil, or_false] at h
    tauto
  · rcases List.mem_append.mp h with h | h
    · exact .inr (.inr (.inr (.inr (.inr (.inr (.inl (hopt h)))))))
    · exact .inr (.inr (.inr (.inr (.inr (.inr (.inr (hopt h)))))))

theorem key_tomlFields : ∀ field ∈ tomlFields env layout, 32 ∉ field.1 := by
  intro field hfield
  rcases mem_tomlFields hfield with rfl | rfl | rfl | rfl | rfl | rfl | rfl | rfl <;>
    dsimp only <;> decide

theorem newline_fieldLine {key value : Bytes} (hkey : newline ∉ key) (hvalue : newline ∉ value) :
    newline ∉ fieldLine (key, value) := by
  have hequals : newline ∉ ascii " = " := by decide
  rw [fieldLine, List.mem_append, List.mem_append]
  tauto

theorem OneLine.fields (h : OneLine env layout) :
    ∀ field ∈ tomlFields env layout, newline ∉ fieldLine field := by
  intro field hfield
  have hkind : newline ∉ layout.kind.text := by cases layout.kind <;> decide
  have harch : newline ∉ layout.arch.text := by cases layout.arch <;> decide
  have hlogging : newline ∉ ascii (if layout.logging then "true" else "false") := by
    cases layout.logging <;> decide
  rcases mem_tomlFields hfield with rfl | rfl | rfl | rfl | rfl | rfl | rfl | rfl
  · decide
  · exact newline_fieldLine (by decide) (newline_quoteToml h.name)
  · exact newline_fieldLine (by decide) (newline_quoteToml hkind)
  · exact newline_fieldLine (by decide) (newline_quoteToml harch)
  · exact newline_fieldLine (by decide) (newline_quoteToml h.runner)
  · exact newline_fieldLine (by decide) (newline_quoteToml hlogging)
  · exact newline_fieldLine (by decide) (newline_quoteToml h.distro)
  · exact newline_fieldLine (by decide) (newline_quoteToml h.sysroot)

/-- **What the reader finds is what was written for the key.** -/
theorem readTomlString_prefixToml (h : OneLine env layout) {key : Bytes} (hkey : 32 ∉ key) :
    readTomlString (prefixToml env layout) key =
      ((tomlFields env layout).lookup key).bind tomlValue := by
  rw [prefixToml_eq]
  exact readTomlString_fields key_tomlFields h.fields hkey

theorem lookup_distro : (tomlFields env layout).lookup (ascii "distro") =
    if layout.distro = [] then none else some (quoteToml layout.distro) := by
  unfold tomlFields
  by_cases hdistro : layout.distro = []
  · rw [if_pos hdistro, if_pos hdistro]
    cases layout.runtimeSysroot.isEmpty <;> rfl
  · rw [if_neg hdistro, if_neg hdistro]
    rfl

theorem lookup_sysroot : (tomlFields env layout).lookup (ascii "runtime_sysroot") =
    if layout.runtimeSysroot.isEmpty then none
    else some (quoteToml (absolute env layout.runtimeSysroot).string) := by
  unfold tomlFields
  by_cases hdistro : layout.distro = []
  · rw [if_pos hdistro]
    cases layout.runtimeSysroot.isEmpty <;> rfl
  · rw [if_neg hdistro]
    cases layout.runtimeSysroot.isEmpty <;> rfl

/-! ## Reading the file back -/

theorem parsePrefixKind_text (kind : PrefixKind) : parsePrefixKind kind.text = .ok kind := by
  cases kind <;> decide

theorem parseGuestArch_text (arch : GuestArch) : parseGuestArch arch.text = .ok arch := by
  cases arch <;> decide

theorem loggingText (logging : Bool) :
    decide (ascii (if logging then "true" else "false") ≠ ascii "false") = logging := by
  cases logging <;> decide

/-- **The written fields come back**, over any layout that has no sysroot
of its own. -/
theorem applyToml_prefixToml (h : OneLine env layout) (base : PrefixLayout)
    (hbase : base.runtimeSysroot = ⟨false, []⟩) :
    applyToml (prefixToml env layout) [] base = .ok
      { base with
        name := if layout.name = [] then base.name else layout.name
        runtimeSysroot := if layout.runtimeSysroot.isEmpty then ⟨false, []⟩
          else .ofString (absolute env layout.runtimeSysroot).string
        kind := layout.kind
        arch := layout.arch
        runner := layout.runner
        distro := if layout.distro = [] then base.distro else layout.distro
        logging := layout.logging } := by
  have hread := fun {key : Bytes} (hkey : 32 ∉ key) => readTomlString_prefixToml h hkey
  have hname : readTomlString (prefixToml env layout) (ascii "name") = some layout.name :=
    (hread (by decide)).trans (tomlValue_quoteToml _)
  have hkind : readTomlString (prefixToml env layout) (ascii "kind") = some layout.kind.text :=
    (hread (by decide)).trans (tomlValue_quoteToml _)
  have harch : readTomlString (prefixToml env layout) (ascii "arch") = some layout.arch.text :=
    (hread (by decide)).trans (tomlValue_quoteToml _)
  have hrunner : readTomlString (prefixToml env layout) (ascii "runner") = some layout.runner :=
    (hread (by decide)).trans (tomlValue_quoteToml _)
  have hlogging : readTomlString (prefixToml env layout) (ascii "logging") =
      some (ascii (if layout.logging then "true" else "false")) :=
    (hread (by decide)).trans (tomlValue_quoteToml _)
  have hdistro : (readTomlString (prefixToml env layout) (ascii "distro")).getD base.distro =
      if layout.distro = [] then base.distro else layout.distro := by
    rw [hread (by decide), lookup_distro]
    split
    · rfl
    · rw [Option.bind_some, tomlValue_quoteToml, Option.getD_some]
  have hsysroot : ((readTomlString (prefixToml env layout) (ascii "runtime_sysroot")).map
      Path.ofString).getD base.runtimeSysroot = if layout.runtimeSysroot.isEmpty then ⟨false, []⟩
        else .ofString (absolute env layout.runtimeSysroot).string := by
    rw [hread (by decide), lookup_sysroot, hbase]
    split
    · rfl
    · rw [Option.bind_some, tomlValue_quoteToml, Option.map_some, Option.getD_some]
  have hempty : base.runtimeSysroot.isEmpty = true := by rw [hbase]; rfl
  have hstored : (nonEmpty (some layout.name)).getD base.name =
      if layout.name = [] then base.name else layout.name := by
    by_cases hnil : layout.name = []
    · rw [if_pos hnil, hnil]
      rfl
    · rw [if_neg hnil, nonEmpty, Option.filter_some, if_pos (decide_eq_true hnil), Option.getD_some]
  rw [applyToml, if_pos rfl, if_pos hempty, hname, hkind, harch, hrunner, hlogging]
  simp only [parsePrefixKind_text, parseGuestArch_text, hdistro, hsysroot, hstored, loggingText,
    Option.getD_some]
  rfl

/-- The sysroot is the same path after it went through its text. -/
theorem ofString_absolute (hcurrent : env.currentPath.Spelled) {p : Path} (hp : p.Spelled)
    (hne : ¬p.isEmpty) : Path.ofString (absolute env p).string = absolute env p := by
  refine Path.ofString_string ?_
  rw [absolute]
  split
  · exact hp
  · next hroot =>
    refine hcurrent.join hp fun hnil => hne ?_
    rw [Path.isEmpty, hnil]
    simpa using hroot

/-- What loading makes of a written prefix: one without a name is called
like its directory, a linux prefix without a distribution is an ubuntu
one, and paths become absolute. -/
def readBack (env : Env) (layout : PrefixLayout) : PrefixLayout :=
  { layout with
    name := if layout.name = [] then prefixNameFromRoot (absoluteNormalPath env layout.root)
      else layout.name
    distro := if layout.kind = .linux ∧ layout.distro = [] then ascii "ubuntu" else layout.distro
    root := absoluteNormalPath env layout.root
    runtimeSysroot := if layout.runtimeSysroot.isEmpty then layout.runtimeSysroot
      else absolute env layout.runtimeSysroot }

/-- The layout that `load_prefix_at_root` has before it looks at the
file. -/
def loadBase (root : Path) (instanceName : Bytes) (runtimeSysroot : Path) (kind : PrefixKind)
    (arch : GuestArch) (runner distro : Bytes) : PrefixLayout where
  name := if instanceName = [] then prefixNameFromRoot root else instanceName
  kind := kind
  arch := arch
  runner := if runner = [] then ascii "elfuse" else runner
  distro := distro
  root := root
  runtimeSysroot := runtimeSysroot
  logging := true

/-- How loading ends where there is a file that can be read. -/
theorem exec_loadPrefixAtRoot {t : FileTree} {root sysroot : Path} {name runner distro text : Bytes}
    {kind : PrefixKind} {arch : GuestArch} {loaded : PrefixLayout}
    (hread : readFile env t ((absoluteNormalPath env root).join (.ofString (ascii "prefix.toml"))) =
      some text)
    (happly : applyToml text name
      (loadBase (absoluteNormalPath env root) name sysroot kind arch runner distro) = .ok loaded)
    (hroot : loaded.root = absoluteNormalPath env root)
    (hexists : pathExists env t (absoluteNormalPath env root) = true)
    (hdir : isDirectory env t (absoluteNormalPath env root) = true) :
    Op.exec (loadPrefixAtRoot env root name sysroot kind arch runner distro) t =
      (.ok (if loaded.kind = .linux ∧ loaded.distro = [] then { loaded with distro := ascii "ubuntu" }
        else loaded), t) := by
  have hlift : Op.exec (Op.lift (applyToml text name
      (loadBase (absoluteNormalPath env root) name sysroot kind arch runner distro))) t =
      (.ok loaded, t) := by
    rw [Op.exec_lift, happly]
  have hfound : (if loaded.kind = .linux ∧ loaded.distro = [] then
      { loaded with distro := ascii "ubuntu" } else loaded).root = absoluteNormalPath env root := by
    split <;> exact hroot
  rw [loadPrefixAtRoot, Op.exec_bind_ok (Op.exec_get t)]
  simp only [hread, Option.isNone_some, Bool.false_and]
  rw [if_neg Bool.false_ne_true]
  refine (Op.exec_bind_ok hlift _).trans ?_
  simp only [hfound, hexists, hdir, Bool.not_true]
  rw [if_neg Bool.false_ne_true, if_neg Bool.false_ne_true]
  rfl

/-- The file that was written is there to be read. -/
theorem exec_writePrefixToml {t t' : FileTree}
    (h : Op.exec (writePrefixToml env layout) t = (.ok (), t')) :
    t'.node (dirOf env layout.root ++ [ascii "prefix.toml"]) = some (.file (prefixToml env layout)) := by
  have hwrite : Op.exec (writeText env (layout.root.join (.ofString (ascii "prefix.toml")))
      (prefixToml env layout) (ascii "unable to write prefix metadata: ")) t = (.ok (), t') := by
    rw [writePrefixToml] at h
    split at h
    · exact nomatch h
    · exact h
  obtain ⟨hok, rfl⟩ := writeText_ok (dirOf_prefixToml env layout.root) hwrite
  exact FileTree.writeFile_self hok

/-- **Configuration round trip.** A prefix whose fields have no newline is
loaded as it was written, up to `readBack`. -/
theorem config_round_trip {t t' : FileTree} (hcurrent : env.currentPath.Spelled)
    (hsysroot : layout.runtimeSysroot.Spelled) (hline : OneLine env layout)
    (hwrite : Op.exec (writePrefixToml env layout) t = (.ok (), t')) (kind : PrefixKind)
    (arch : GuestArch) (runner : Bytes) :
    Op.exec (loadPrefixAtRoot env layout.root [] ⟨false, []⟩ kind arch runner []) t' =
      (.ok (readBack env layout), t') := by
  have hfile := exec_writePrefixToml hwrite
  have hdir : t'.node (dirOf env layout.root) = some .dir :=
    t'.parent _ _ (by rw [hfile]; exact Option.some_ne_none _)
  have hroot : dirOf env (absoluteNormalPath env layout.root) = dirOf env layout.root :=
    dirOf_absoluteNormalPath env layout.root
  have hread : readFile env t' ((absoluteNormalPath env layout.root).join
      (.ofString (ascii "prefix.toml"))) = some (prefixToml env layout) := by
    have hnames : ((absoluteNormalPath env layout.root).join
        (.ofString (ascii "prefix.toml"))).names.getLast? = some (ascii "prefix.toml") := by
      rw [prefix_toml]
      simp [Path.join]
    rw [readFile, lookup, dirOf_prefixToml, hroot, hfile]
    simp only
    rw [if_neg (by rw [hnames]; decide)]
  have hexists : pathExists env t' (absoluteNormalPath env layout.root) = true :=
    pathExists_of_dir (by rw [hroot, hdir])
  have hisDir : isDirectory env t' (absoluteNormalPath env layout.root) = true := by
    rw [isDirectory, lookup, hroot, hdir]
    rfl
  have happly := applyToml_prefixToml hline
    (loadBase (absoluteNormalPath env layout.root) [] ⟨false, []⟩ kind arch runner []) rfl
  rw [exec_loadPrefixAtRoot hread happly rfl hexists hisDir, readBack]
  have hpath : (if layout.runtimeSysroot.isEmpty then ⟨false, []⟩
      else Path.ofString (absolute env layout.runtimeSysroot).string) =
      if layout.runtimeSysroot.isEmpty then layout.runtimeSysroot
      else absolute env layout.runtimeSysroot := by
    by_cases hempty : layout.runtimeSysroot.isEmpty
    · rw [if_pos hempty, if_pos hempty]
      simp only [Path.isEmpty, Bool.and_eq_true, Bool.not_eq_true', List.isEmpty_iff] at hempty
      rw [← hempty.1, ← hempty.2]
    · rw [if_neg hempty, if_neg hempty, ofString_absolute hcurrent hsysroot hempty]
  have hdistro : (if layout.distro = [] then [] else layout.distro) = layout.distro := by
    split
    · next hnil => exact hnil.symm
    · rfl
  simp only [hpath, loadBase, hdistro]
  split <;> rfl

/-! ## What loading fills in -/

def fileEnv : Env where
  currentPath := ⟨true, [ascii "w"]⟩
  home := some (ascii "/home/u")
  muplarHome := none
  rooted := rfl

/-- A directory `/p` for a prefix. -/
def prefixDir : FileTree :=
  FileTree.empty.makeDirs [ascii "p"]

/-- A linux prefix without a distribution, with a sysroot below the current
directory and a name that looks like a line of the file. -/
def bareLayout : PrefixLayout where
  name := ascii "a\" kind = \"wine\""
  kind := .linux
  arch := .x8664
  runner := ascii "run\\"
  distro := []
  root := ⟨true, [ascii "p"]⟩
  runtimeSysroot := ⟨false, [ascii "sys"]⟩
  logging := false

/-- The tree with the file of the prefix. -/
def bareTree : FileTree :=
  prefixDir.writeFile [ascii "p", ascii "prefix.toml"] (prefixToml fileEnv bareLayout) (by decide)

theorem exec_bareLayout :
    Op.exec (writePrefixToml fileEnv bareLayout) prefixDir = (.ok (), bareTree) := rfl

/-- The distribution and the sysroot are not those that were written. -/
theorem config_fills_in :
    Op.exec (writePrefixToml fileEnv bareLayout) prefixDir = (.ok (), bareTree) ∧
    (Op.exec (loadPrefixAtRoot fileEnv bareLayout.root [] ⟨false, []⟩ .android .aarch64
      (ascii "elfuse") []) bareTree).1.map (fun l => (l.distro, l.runtimeSysroot)) =
      .ok (ascii "ubuntu", ⟨true, [ascii "w", ascii "sys"]⟩) ∧
    bareLayout.distro ≠ ascii "ubuntu" ∧
    bareLayout.runtimeSysroot ≠ ⟨true, [ascii "w", ascii "sys"]⟩ :=
  ⟨rfl, by decide +kernel, by decide, by decide⟩

theorem config_round_trip_bare :
    Op.exec (loadPrefixAtRoot fileEnv bareLayout.root [] ⟨false, []⟩ .android .aarch64
      (ascii "elfuse") []) bareTree = (.ok (readBack fileEnv bareLayout), bareTree) :=
  config_round_trip ⟨by decide, by decide, by decide⟩ ⟨by decide, by decide, by decide⟩
    ⟨by decide, by decide, by decide, by decide⟩ exec_bareLayout .android .aarch64 (ascii "elfuse")

end Prefix

end Muplar
