import Muplar.Common.FileTree
import Muplar.Prefix.Config
/-!
# Prefixes — cloning one

`clone_prefix_into` copies a prefix to a destination, which it may first
have to remove. It refuses a destination that overlaps the source: equal
to it, inside it or around it. The source is compared in its canonical
form, the destination in its normal form, and of two normal forms of one
directory only the one without a separator at the end is recognised as
being around the source.

The file system is a tree of directories and files (`FileTree`); calls
fail where the tree is in the way, and not for permissions or space.
-/

namespace Muplar

namespace Prefix

/-! ## The file system -/

/-- The node a path leads to; a separator at the end asks for a
directory. -/
def lookup (env : Env) (t : FileTree) (p : Path) : Option Node :=
  match t.node (dirOf env p) with
  | some (.file content) => if p.names.getLast? = some [] then none else some (.file content)
  | other => other

/-- `exists`. -/
def pathExists (env : Env) (t : FileTree) (p : Path) : Bool :=
  (lookup env t p).isSome

/-- `is_directory`. -/
def isDirectory (env : Env) (t : FileTree) (p : Path) : Bool :=
  lookup env t p = some .dir

/-- The text of a regular file. -/
def readFile (env : Env) (t : FileTree) (p : Path) : Option Bytes :=
  match lookup env t p with
  | some (.file content) => some content
  | _ => none

/-- `is_prefix_root`. -/
def isPrefixRoot (env : Env) (t : FileTree) (root : Path) : Bool :=
  isDirectory env t root && (readFile env t (root.join (.ofString (ascii "prefix.toml")))).isSome

def removeTree (env : Env) (p : Path) : Op FileTree Unit :=
  modify fun t => if pathExists env t p then t.remove (dirOf env p) else t

/-- `create_directories`. -/
def createDirectories (env : Env) (p : Path) : Op FileTree Unit := do
  let t ← get
  if t.isFree (dirOf env p) then set (t.makeDirs (dirOf env p))
  else throw (ascii "cannot create directories")

/-- `std::ofstream out(path, std::ios::trunc)` and what is put into it. -/
def writeText (env : Env) (p : Path) (text message : Bytes) : Op FileTree Unit := do
  let t ← get
  if h : t.isWritable (dirOf env p) then set (t.writeFile (dirOf env p) text h)
  else throw (message ++ p.string)

/-- `copy`, recursively, to a directory that is missing or empty. -/
def copyTree (env : Env) (source dest : Path) : Op FileTree Unit := do
  let t ← get
  if h : t.isCopyable (dirOf env source) (dirOf env dest) then
    set (t.copyDir (dirOf env source) (dirOf env dest) h)
  else throw (ascii "cannot copy")

/-- What the model takes as given: the order in which a directory is
listed, the registry's text, and `ensure_layout_dirs`, which fills the
directories of a layout and stays below its root. -/
structure Host where
  listing : FileTree → Path → List Bytes
  parseRegistry : Bytes → Except Bytes (List Entry)
  printRegistry : List Entry → Bytes
  ensureLayoutDirs : Env → PrefixLayout → Op FileTree Unit
  confined : ∀ env layout (t : FileTree) l, ¬dirOf env layout.root <+: l →
    (Op.exec (ensureLayoutDirs env layout) t).2.node l = t.node l

/-! ## The registry -/

/-- `instance_registry_path`. -/
def instanceRegistryPath (env : Env) : Except Bytes Path := do
  return (← muplarHome env).join (.ofString (ascii "instances.json"))

/-- `migrate_legacy_prefixes`. -/
def migrateLegacyPrefixes (env : Env) (host : Host) : Op FileTree (List Entry) := do
  let base ← Op.lift (prefixStore env)
  let t ← get
  if !pathExists env t base then return []
  else if !isDirectory env t base then throw (ascii "not a directory: " ++ base.string)
  else
    let roots := (host.listing t base).map fun name => base.join ⟨false, [name]⟩
    return (roots.filter (isPrefixRoot env t)).map fun root =>
      let stored := do
        readTomlString (← readFile env t (root.join (.ofString (ascii "prefix.toml"))))
          (ascii "name")
      ⟨(nonEmpty stored).getD (prefixNameFromRoot root), absoluteNormalPath env root⟩

/-- The registry file in the tree. -/
def treeFiles (env : Env) (host : Host) : Files FileTree where
  load := do
    let path ← Op.lift (instanceRegistryPath env)
    let t ← get
    if !pathExists env t path then return none
    else match readFile env t path with
      | none => throw (ascii "unable to read instance registry: " ++ path.string)
      | some text => return some (← Op.lift (host.parseRegistry text))
  legacy := migrateLegacyPrefixes env host
  store entries := do
    let path ← Op.lift (instanceRegistryPath env)
    createDirectories env path.parent
    writeText env path (host.printRegistry entries) (ascii "unable to write instance registry: ")

/-! ## Opening a prefix -/

/-- `load_prefix_at_root` with `create_if_missing` false. -/
def loadPrefixAtRoot (env : Env) (root : Path) (instanceName : Bytes) (runtimeSysroot : Path)
    (kind : PrefixKind) (arch : GuestArch) (runner distro : Bytes) : Op FileTree PrefixLayout := do
  let root := absoluteNormalPath env root
  let layout : PrefixLayout :=
    { name := if instanceName = [] then prefixNameFromRoot root else instanceName
      kind := kind
      arch := arch
      runner := if runner = [] then ascii "elfuse" else runner
      distro := distro
      root := root
      runtimeSysroot := runtimeSysroot
      logging := true }
  let t ← get
  let metadata := readFile env t (root.join (.ofString (ascii "prefix.toml")))
  if metadata.isNone && pathExists env t root then
    throw (ascii "not a Muplar prefix: " ++ root.string)
  let layout ← match metadata with
    | some text => Op.lift (applyToml text instanceName layout)
    | none => pure layout
  let layout := if layout.kind = .linux ∧ layout.distro = [] then
    { layout with distro := ascii "ubuntu" } else layout
  if !pathExists env t layout.root then
    throw (ascii "prefix does not exist: " ++ layout.root.string)
  else if !isDirectory env t layout.root then
    throw (ascii "prefix path is not a directory: " ++ layout.root.string)
  else return layout

/-- `open_prefix(spec, {}, false)`. -/
def openPrefix (env : Env) (host : Host) (spec : Bytes) : Op FileTree PrefixLayout := do
  let root ← resolvePrefixRoot env (treeFiles env host) spec
  let name := if looksLikePath spec then [] else spec
  loadPrefixAtRoot env root name ⟨false, []⟩ .android .aarch64 (ascii "elfuse") []

/-! ## Cloning -/

/-- The components an iterator over a path yields. -/
def components (p : Path) : List Bytes :=
  (if p.rooted then [[Path.slash]] else []) ++ p.names

/-- `path_is_same_or_inside`. -/
def pathIsSameOrInside (root path : Path) : Bool :=
  components root.lexicallyNormal <+: components path.lexicallyNormal

/-- `weakly_canonical` of a directory that exists, in a tree without
links. -/
def weaklyCanonical (env : Env) (p : Path) : Path :=
  ⟨true, dirOf env p⟩

/-- `write_prefix_toml`, overwriting. -/
def writePrefixToml (env : Env) (layout : PrefixLayout) : Op FileTree Unit := do
  if !isSupportedRuntimeTuple layout.kind layout.arch then
    throw (unsupportedRuntimeTuple layout.kind layout.arch)
  writeText env (layout.root.join (.ofString (ascii "prefix.toml"))) (prefixToml env layout)
    (ascii "unable to write prefix metadata: ")

/-- The overlap test. -/
def overlaps (env : Env) (source dest : Path) : Bool :=
  let sourceAbs := weaklyCanonical env source
  let destAbs := absoluteNormalPath env dest
  sourceAbs = destAbs ∨ pathIsSameOrInside sourceAbs destAbs ∨ pathIsSameOrInside destAbs sourceAbs

/-- What is in the place of the destination goes, if it may. -/
def clearDestination (env : Env) (dest : PrefixLayout) (replaceExisting : Bool) :
    Op FileTree Unit := do
  if pathExists env (← get) dest.root then
    if !replaceExisting then
      throw (ascii "destination prefix already exists: " ++ dest.root.string ++
        ascii " (pass --replace to overwrite)")
    else removeTree env dest.root
  else return

/-- `clone_prefix_into` from the overlap test on. -/
def copyPrefix (env : Env) (host : Host) (source dest : PrefixLayout) (replaceExisting : Bool) :
    Op FileTree PrefixLayout := do
  clearDestination env dest replaceExisting
  createDirectories env dest.root.parent
  copyTree env source.root dest.root
  writePrefixToml env dest
  host.ensureLayoutDirs env dest
  registerInstance env (treeFiles env host) dest.name dest.root
  return dest

/-- The arguments of `clone_prefix_into`. -/
structure CloneArgs where
  sourceSpec : Bytes
  destName : Bytes
  destRoot : Bytes
  replaceExisting : Bool

/-- `clone_prefix_into`. -/
def clonePrefixInto (env : Env) (host : Host) (args : CloneArgs) : Op FileTree PrefixLayout := do
  if args.destName = [] then throw (ascii "destination prefix name is required")
  else if args.destRoot = [] then throw (ascii "destination prefix root is required")
  else
    let source ← openPrefix env host args.sourceSpec
    if !isPrefixRoot env (← get) source.root then
      throw (ascii "source is not a Muplar prefix: " ++ source.root.string)
    else
      let destPath ← Op.lift (expandUserPath env args.destRoot)
      let dest := { source with root := absoluteNormalPath env destPath, name := args.destName }
      if overlaps env source.root dest.root then
        throw (ascii "cannot clone overlapping prefix paths")
      else copyPrefix env host source dest args.replaceExisting

end Prefix

end Muplar
