import Muplar.Prefix.Registry
/-!
# Prefixes — the configuration file

`prefix.toml` holds what a prefix is: its name, the kind and architecture
of its guest, its runner, whether it logs, and for some kinds a
distribution and a sysroot. The reader looks for the first line that
starts with a key; the writer puts every field on a line of its own.
-/

namespace Muplar

namespace Prefix

inductive PrefixKind
  | android
  | linux
  | wine
  deriving DecidableEq

inductive GuestArch
  | aarch64
  | x8664
  deriving DecidableEq

/-- `PrefixLayout`, without the directories that `assign_layout_paths`
derives from the root. -/
structure PrefixLayout where
  name : Bytes
  kind : PrefixKind
  arch : GuestArch
  runner : Bytes
  distro : Bytes
  root : Path
  runtimeSysroot : Path
  logging : Bool
  deriving DecidableEq

/-- `to_string(PrefixKind)`. -/
def PrefixKind.text : PrefixKind → Bytes
  | .android => ascii "android"
  | .linux => ascii "linux"
  | .wine => ascii "wine"

/-- `to_string(GuestArch)`. -/
def GuestArch.text : GuestArch → Bytes
  | .aarch64 => ascii "aarch64"
  | .x8664 => ascii "x86_64"

/-- `parse_prefix_kind`. -/
def parsePrefixKind (value : Bytes) : Except Bytes PrefixKind :=
  if value = [] ∨ value = ascii "android" then .ok .android
  else if value = ascii "linux" then .ok .linux
  else if value = ascii "wine" ∨ value = ascii "windows" then .ok .wine
  else .error (ascii "unsupported prefix kind: " ++ value)

/-- `parse_guest_arch`. -/
def parseGuestArch (value : Bytes) : Except Bytes GuestArch :=
  if value = [] ∨ value = ascii "aarch64" ∨ value = ascii "arm64" then .ok .aarch64
  else if value = ascii "x86_64" ∨ value = ascii "x64" then .ok .x8664
  else .error (ascii "unsupported prefix arch: " ++ value)

/-- `is_supported_runtime_tuple`. -/
def isSupportedRuntimeTuple : PrefixKind → GuestArch → Bool
  | .android, arch => arch = .aarch64
  | .wine, arch => arch = .x8664
  | .linux, _ => true

def unsupportedRuntimeTuple (kind : PrefixKind) (arch : GuestArch) : Bytes :=
  ascii "unsupported runtime tuple: kind=" ++ kind.text ++ ascii " arch=" ++ arch.text

/-! ## Reading -/

def quote : UInt8 := 34
def backslash : UInt8 := 92

/-- The value between the quotes: a backslash takes the next byte as it
is, and one at the end is lost. -/
def unescape : Bytes → Bytes
  | [] => []
  | [c] => if c = backslash then [] else [c]
  | c :: next :: rest =>
    if c = backslash then next :: unescape rest else c :: unescape (next :: rest)

/-- The value of a line after its key. -/
def tomlValue (value : Bytes) : Option Bytes :=
  if value.length < 2 ∨ value.head? ≠ some quote ∨ value.getLast? ≠ some quote then none
  else some (unescape (value.drop 1).dropLast)

/-- `read_toml_string`, from the text of the file: the first line with
the key decides. -/
def readTomlString (text key : Bytes) : Option Bytes :=
  let start := key ++ ascii " = "
  match (text.splitOn newline).find? (start.isPrefixOf ·) with
  | none => none
  | some line => tomlValue (line.drop start.length)

/-- The fields that `prefix.toml` has for a layout, over those it came
with. The name counts only where the instance has none of its own. -/
def applyToml (text : Bytes) (instanceName : Bytes) (layout : PrefixLayout) :
    Except Bytes PrefixLayout := do
  let name := if instanceName = [] then nonEmpty (readTomlString text (ascii "name")) else none
  let sysroot :=
    if layout.runtimeSysroot.isEmpty then readTomlString text (ascii "runtime_sysroot") else none
  let kind ← match readTomlString text (ascii "kind") with
    | some stored => parsePrefixKind stored
    | none => .ok layout.kind
  let arch ← match readTomlString text (ascii "arch") with
    | some stored => parseGuestArch stored
    | none => .ok layout.arch
  return { layout with
    name := name.getD layout.name
    runtimeSysroot := (sysroot.map .ofString).getD layout.runtimeSysroot
    kind := kind
    arch := arch
    runner := (readTomlString text (ascii "runner")).getD layout.runner
    distro := (readTomlString text (ascii "distro")).getD layout.distro
    logging := match readTomlString text (ascii "logging") with
      | some stored => stored ≠ ascii "false"
      | none => layout.logging }

/-! ## Writing -/

/-- `quote_toml`. -/
def quoteToml (value : Bytes) : Bytes :=
  [quote] ++ value.flatMap (fun c => if c = backslash ∨ c = quote then [backslash, c] else [c]) ++
    [quote]

def tomlLine (key value : Bytes) : Bytes :=
  key ++ ascii " = " ++ value ++ [newline]

/-- The text that `write_prefix_toml` writes. -/
def prefixToml (env : Env) (layout : PrefixLayout) : Bytes :=
  tomlLine (ascii "version") (ascii "1") ++
    tomlLine (ascii "name") (quoteToml layout.name) ++
    tomlLine (ascii "kind") (quoteToml layout.kind.text) ++
    tomlLine (ascii "arch") (quoteToml layout.arch.text) ++
    tomlLine (ascii "runner") (quoteToml layout.runner) ++
    tomlLine (ascii "logging") (quoteToml (ascii (if layout.logging then "true" else "false"))) ++
    (if layout.distro = [] then [] else tomlLine (ascii "distro") (quoteToml layout.distro)) ++
    (if layout.runtimeSysroot.isEmpty then []
      else tomlLine (ascii "runtime_sysroot")
        (quoteToml (absolute env layout.runtimeSysroot).string))

end Prefix

end Muplar
