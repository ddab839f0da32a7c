import Muplar.Apk.Zip
import Muplar.Common.CPath
import Muplar.Common.Effects
import Muplar.Common.Resolve
import Muplar.Common.Text
/-!
# APK — preparing a launch

`prepare_apk_launch` reads an archive, chooses the native library to
start, and extracts the archive's `arm64-v8a` libraries and its assets
below an extraction directory. A library goes to a file of its last name;
an asset keeps its whole name, if `safe_zip_path` lets it through.

The system is handed every path as a C string, so it sees a name up to
its first zero byte and nothing after it (`Path.seen`). What it is made
to create and to write is logged under the paths it sees.

The file system has no links. It may refuse any single call for reasons
of its own, such as permissions or the length of a name; what is written
to an open file gets there.
-/

namespace Muplar

namespace Path

/-- `stem()`. -/
def stem (p : Path) : Bytes :=
  let file := p.filename
  let front := file.take (file.length - (file.reverse.takeWhile (· ≠ 46)).length - 1)
  if file = dot ∨ file = dotDot ∨ front = [] then file else front

end Path

namespace Apk

open Act

/-! ## The disk -/

/-- What the system was made to do, under the path it saw. -/
inductive Effect
  | made (path : Path)
  | written (path : Path) (data : Bytes)
  deriving DecidableEq

def Effect.path : Effect → Path
  | .made path => path
  | .written path _ => path

/-- The file system, and what was done to it so far. -/
structure Disk where
  tree : FileTree
  log : List Effect

/-- What `infer_manifest_info` finds in a manifest. -/
structure ManifestInfo where
  libName : Option Bytes
  packageName : Option Bytes
  applicationLabel : Option Bytes
  applicationLabelResource : Option ℕ
  applicationIcon : Option Bytes
  applicationIconResource : Option ℕ
  applicationClass : Option Bytes
  launchActivity : Option Bytes
  widgetProvider : Option Bytes

/-- What surrounds the code: zlib, the files it reads, the manifest and
resource parsers, the working directory, the hash of an APK's place, size
and time in hex digits, and the calls that the system refuses. -/
structure Host where
  inflate : Bytes → ℕ → Option Bytes
  readFile : Path → Except String Bytes
  inferManifestInfo : Bytes → List Bytes → Except String ManifestInfo
  resolveResourceString : Bytes → ℕ → Except String (Option Bytes)
  currentPath : CPath
  cwd : Location
  seedHash : Path → Bytes
  refuses : Path → Bool
  seedHash_clean : ∀ p, 0 ∉ seedHash p

/-- Where a path starts. -/
def Host.start (host : Host) (rooted : Bool) : Location :=
  if rooted then [] else host.cwd

/-- The node a path leads to. -/
def Host.locate (host : Host) (t : FileTree) (p : Path) : Option Location :=
  t.follow [] (host.start p.rooted) p.seen.names

/-- The content of the file a path leads to. -/
def Host.fileAt (host : Host) (t : FileTree) (p : Path) : Option Bytes :=
  match (host.locate t p).bind t.node with
  | some (.file content) => some content
  | _ => none

/-- The place for a file: the last name, in the directory the others lead
to. -/
def Host.target (host : Host) (t : FileTree) (p : Path) : Option Location :=
  match p.seen.names.getLast? with
  | none => none
  | some last =>
    if Path.Plain last then
      (t.follow [] (host.start p.rooted) p.seen.names.dropLast).map (· ++ [last])
    else none

/-- Directories for the names of a path, from `l` on and with the names
`done` behind: a missing one is made, a file is in the way. -/
def makeFrom (host : Host) (rooted : Bool) :
    (done : List Bytes) → Location → (names : List Bytes) → Act Disk String Unit
  | _, _, [] => return ()
  | done, l, name :: names => do
    let disk ← get
    let path : Path := ⟨rooted, done ++ [name]⟩
    let next := enter [] l name
    match disk.tree.node next with
    | some .dir => makeFrom host rooted (done ++ [name]) next names
    | some (.file _) => throw "cannot create directories: Not a directory"
    | none =>
      if Path.Plain name ∧ disk.tree.node l = some .dir ∧ host.refuses path = false then do
        set ({ tree := disk.tree.makeDirs next, log := disk.log ++ [.made path] } : Disk)
        makeFrom host rooted (done ++ [name]) next names
      else throw "cannot create directories"

/-- `std::filesystem::create_directories`. -/
def createDirectories (host : Host) (p : Path) : Act Disk String Unit :=
  makeFrom host p.rooted [] (host.start p.rooted) p.seen.names

/-- `std::ofstream out(path, std::ios::binary | std::ios::trunc)`, the
test whether it is open, and what is put into it. -/
def writeOut (host : Host) (p : Path) (data : Bytes) (message : String) : Act Disk String Unit := do
  let disk ← get
  match host.target disk.tree p with
  | none => throw (message ++ text p.string)
  | some loc =>
    if h : disk.tree.isWritable loc ∧ host.refuses p.seen = false then
      set ({ tree := disk.tree.writeFile loc data h.1
             log := disk.log ++ [.written p.seen data] } : Disk)
    else throw (message ++ text p.string)

/-! ## Names in the archive -/

/-- `starts_with`. -/
def startsWith (value start : Bytes) : Bool := start.isPrefixOf value

/-- `ends_with`. -/
def endsWith (value suffix : Bytes) : Bool := suffix.isSuffixOf value

/-- `is_root_dex`. -/
def isRootDex (path : Bytes) : Bool :=
  Path.slash ∉ path ∧
    (path = ascii "classes.dex" ∨
      startsWith path (ascii "classes") ∧ endsWith path (ascii ".dex"))

/-- `safe_zip_path`: 92 is a backslash, 58 a colon. -/
def safeZipPath (path : Bytes) : Bool :=
  path ≠ [] ∧ path.head? ≠ some Path.slash ∧ 92 ∉ path ∧ 58 ∉ path ∧
    Path.dotDot ∉ path.splitOn Path.slash

/-- `filename_from_zip_path`: what is behind the last slash. -/
def filenameFromZipPath (path : Bytes) : Bytes :=
  (path.splitOn Path.slash).getLastD []

/-- `lib_base_name`. -/
def libBaseName (filename : Bytes) : Bytes :=
  let base := filenameFromZipPath filename
  if startsWith base (ascii "lib") ∧ endsWith base (ascii ".so") then
    (base.drop 3).take (base.length - 6)
  else if endsWith base (ascii ".so") then base.take (base.length - 3)
  else base

/-- `lib_name_matches`. -/
def libNameMatches (entryName requested : Bytes) : Bool :=
  requested = filenameFromZipPath entryName ∨
    requested = libBaseName (filenameFromZipPath entryName)

/-- `join_libs`. -/
def joinLibs (libs : List Bytes) : Bytes :=
  (ascii ", ").intercalate (libs.map filenameFromZipPath)

/-- An entry under `lib/arm64-v8a/`. -/
def isArm64Lib (entry : ZipEntry) : Bool :=
  startsWith entry.name (ascii "lib/arm64-v8a/") ∧ endsWith entry.name (ascii ".so")

/-- An asset that may be extracted. -/
def isAssetEntry (entry : ZipEntry) : Bool :=
  startsWith entry.name (ascii "assets/") ∧ ¬endsWith entry.name (ascii "/") ∧
    safeZipPath entry.name

/-! ## The extraction directory -/

/-- A character `sanitize_path_component` leaves alone. -/
def isComponentChar (c : UInt8) : Bool :=
  isDigit c ∨ 65 ≤ c ∧ c ≤ 90 ∨ 97 ≤ c ∧ c ≤ 122 ∨ c = 45 ∨ c = 95 ∨ c = 46

/-- `sanitize_path_component`: 95 is an underscore. -/
def sanitizePathComponent (value : Bytes) : Bytes :=
  if value = [] then ascii "apk"
  else value.map fun c => if isComponentChar c then c else 95

/-- `default_extract_dir`. -/
def defaultExtractDir (host : Host) (apkPath baseDir : Path) : Path :=
  let dir := sanitizePathComponent apkPath.stem ++ ascii "-" ++ host.seedHash apkPath
  let base :=
    if baseDir.isEmpty then
      (host.currentPath.path.join (.ofString (ascii "build"))).join (.ofString (ascii "apk"))
    else baseDir
  base.join (.ofString dir)

/-- `ApkLaunchConfig`. -/
structure ApkLaunchConfig where
  apkPath : CPath
  libName : Option Bytes
  outputBaseDir : CPath
  outputDir : CPath

/-- The directory everything is extracted to. -/
def extractDir (host : Host) (config : ApkLaunchConfig) : Path :=
  if config.outputDir.path.isEmpty then
    defaultExtractDir host config.apkPath.path config.outputBaseDir.path
  else config.outputDir.path

/-- The directory of the libraries. -/
def libDir (dir : Path) : Path :=
  (dir.join (.ofString (ascii "lib"))).join (.ofString (ascii "arm64-v8a"))

/-- The file of a library. -/
def libPath (dir : Path) (lib : ZipEntry) : Path :=
  (libDir dir).join (.ofString (filenameFromZipPath lib.name))

/-- The file of an asset. -/
def assetPath (dir : Path) (asset : ZipEntry) : Path :=
  dir.join (.ofString asset.name)

/-! ## Choosing a library -/

inductive ApkRuntimeKind
  | empty
  | nativeOnly
  | javaOnly
  | mixed
  deriving DecidableEq

/-- `runtime_kind_for`. -/
def runtimeKindFor (arm64Libs dexFiles : List ZipEntry) : ApkRuntimeKind :=
  if arm64Libs ≠ [] ∧ dexFiles ≠ [] then .mixed
  else if arm64Libs ≠ [] then .nativeOnly
  else if dexFiles ≠ [] then .javaOnly
  else .empty

/-- The part of an `ApkClassification` a launch reads. -/
structure ApkClassification where
  runtimeKind : ApkRuntimeKind
  manifestLib : Option Bytes
  manifestPackage : Option Bytes
  manifestApplicationLabel : Option Bytes
  manifestApplicationIcon : Option Bytes
  manifestApplicationClass : Option Bytes
  manifestLaunchActivity : Option Bytes
  manifestWidgetProvider : Option Bytes

/-- The last entry of a name. -/
def lastNamed (entries : List ZipEntry) (name : Bytes) : Option ZipEntry :=
  entries.reverse.find? (·.name = name)

/-- A text of the manifest that may be kept in the resource table. -/
def fromResources (host : Host) (apk : Bytes) (resources : Option ZipEntry) (wanted : Bool)
    (value : Option Bytes) (resource : Option ℕ) : Except String (Option Bytes) :=
  match wanted, resource, resources with
  | true, some id, some entry => do
    host.resolveResourceString (← extractEntryData host.inflate apk entry) id
  | _, _, _ => return value

/-- `classify_entries`. -/
def classifyEntries (host : Host) (apk : Bytes) (entries : List ZipEntry) :
    Except String ApkClassification := do
  let arm64Libs := entries.filter isArm64Lib
  let dexFiles := entries.filter (isRootDex ·.name)
  let kind := runtimeKindFor arm64Libs dexFiles
  match lastNamed entries (ascii "AndroidManifest.xml") with
  | none => return ⟨kind, none, none, none, none, none, none, none⟩
  | some manifestEntry =>
    let resources := lastNamed entries (ascii "resources.arsc")
    let manifest ← extractEntryData host.inflate apk manifestEntry
    let info ← host.inferManifestInfo manifest (arm64Libs.map (libBaseName ·.name))
    let label ← fromResources host apk resources info.applicationLabel.isNone
      info.applicationLabel info.applicationLabelResource
    -- an icon that is a reference counts as missing; 64 is an at sign
    let icon ← fromResources host apk resources
      (match info.applicationIcon with
        | none => true
        | some icon => icon.head? = some 64)
      info.applicationIcon info.applicationIconResource
    return ⟨kind, info.libName, info.packageName, label, icon, info.applicationClass,
      info.launchActivity, info.widgetProvider⟩

/-- The library to start: the one asked for, else the one the manifest
names, else the only one or the first called `main`. -/
def selectLib (requested manifestLib : Option Bytes) (libs : List ZipEntry) :
    Except String ZipEntry :=
  let available := text (joinLibs (libs.map (libBaseName ·.name)))
  match requested with
  | some name =>
    match libs.find? (libNameMatches ·.name name) with
    | some lib => return lib
    | none => throw ("APK does not contain requested arm64 lib '" ++ text name ++
        "'; available: " ++ available)
  | none =>
    let selected := match manifestLib with
      | some name => libs.find? (libNameMatches ·.name name)
      | none =>
        if libs.length = 1 then libs.head?
        else libs.find? (libNameMatches ·.name (ascii "main"))
    match selected with
    | some lib => return lib
    | none => throw ("APK has multiple arm64 native libraries and no clear " ++
        "NativeActivity " ++ "lib_name; use --apk-lib. Available: " ++ available)

/-- What is decided before anything is created. -/
structure LaunchPlan where
  apk : Bytes
  classification : ApkClassification
  libs : List ZipEntry
  assets : List ZipEntry
  selected : ZipEntry

/-- The first half of `prepare_apk_launch`. -/
def planLaunch (host : Host) (config : ApkLaunchConfig) : Except String LaunchPlan := do
  if config.apkPath.path.isEmpty then throw "APK path is empty"
  else
    let apk ← host.readFile config.apkPath.path
    let entries ← readZipEntries apk
    let classification ← classifyEntries host apk entries
    let libs := entries.filter isArm64Lib
    let assets := entries.filter fun entry => ¬isArm64Lib entry ∧ isAssetEntry entry
    if libs = [] ∧ classification.runtimeKind = .javaOnly then
      throw "APK runtime kind is java-only; Java/ART APK launch is not implemented yet"
    else if libs = [] then throw "APK has no lib/arm64-v8a/*.so entries"
    else
      let selected ← selectLib config.libName classification.manifestLib libs
      return { apk, classification, libs, assets, selected }

/-! ## Extracting -/

/-- `ApkLaunchResult`. -/
structure ApkLaunchResult where
  apkPath : Path
  extractDir : Path
  soPath : Path
  assetsDir : Path
  selectedLib : Bytes
  manifestLib : Option Bytes
  manifestPackage : Option Bytes
  manifestApplicationLabel : Option Bytes
  manifestApplicationIcon : Option Bytes
  manifestApplicationClass : Option Bytes
  manifestLaunchActivity : Option Bytes
  manifestWidgetProvider : Option Bytes
  extractedLibs : List Bytes
  extractedAssets : List Bytes

/-- The result before anything is extracted. -/
def ApkLaunchResult.initial (config : ApkLaunchConfig) (plan : LaunchPlan) (dir : Path) :
    ApkLaunchResult where
  apkPath := config.apkPath.path
  extractDir := dir
  soPath := ⟨false, []⟩
  assetsDir := dir.join (.ofString (ascii "assets"))
  selectedLib := libBaseName plan.selected.name
  manifestLib := plan.classification.manifestLib
  manifestPackage := plan.classification.manifestPackage
  manifestApplicationLabel := plan.classification.manifestApplicationLabel
  manifestApplicationIcon := plan.classification.manifestApplicationIcon
  manifestApplicationClass := plan.classification.manifestApplicationClass
  manifestLaunchActivity := plan.classification.manifestLaunchActivity
  manifestWidgetProvider := plan.classification.manifestWidgetProvider
  extractedLibs := []
  extractedAssets := []

/-- One turn of the loop over the libraries. -/
def extractLib (host : Host) (plan : LaunchPlan) (dir : Path) (result : ApkLaunchResult)
    (lib : ZipEntry) : Act Disk String ApkLaunchResult := do
  let bytes ← lift (extractEntryData host.inflate plan.apk lib)
  let outPath := libPath dir lib
  writeOut host outPath bytes "unable to write extracted lib: "
  return { result with
    extractedLibs := result.extractedLibs ++ [outPath.string]
    soPath := if lib.name = plan.selected.name then outPath else result.soPath }

/-- One turn of the loop over the assets. -/
def extractAsset (host : Host) (plan : LaunchPlan) (dir : Path) (result : ApkLaunchResult)
    (asset : ZipEntry) : Act Disk String ApkLaunchResult := do
  let bytes ← lift (extractEntryData host.inflate plan.apk asset)
  let outPath := assetPath dir asset
  createDirectories host outPath.parent
  writeOut host outPath bytes "unable to write extracted asset: "
  return { result with extractedAssets := result.extractedAssets ++ [outPath.string] }

/-- The directory of the assets, if there are any. -/
def createAssetsDir (host : Host) (plan : LaunchPlan) (dir : Path) : Act Disk String Unit :=
  if plan.assets = [] then return ()
  else createDirectories host (dir.join (.ofString (ascii "assets")))

/-- The second half of `prepare_apk_launch`. -/
def extractPlan (host : Host) (config : ApkLaunchConfig) (plan : LaunchPlan) :
    Act Disk String ApkLaunchResult := do
  let dir := extractDir host config
  createDirectories host (libDir dir)
  createAssetsDir host plan dir
  let withLibs ← plan.libs.foldlM (extractLib host plan dir) (.initial config plan dir)
  let result ← plan.assets.foldlM (extractAsset host plan dir) withLibs
  if result.soPath.isEmpty then throw "internal APK extraction error: selected lib missing"
  else return result

/-- `prepare_apk_launch`. -/
def prepareApkLaunch (host : Host) (config : ApkLaunchConfig) :
    Act Disk String ApkLaunchResult := do
  let plan ← lift (planLaunch host config)
  extractPlan host config plan

end Apk

end Muplar
