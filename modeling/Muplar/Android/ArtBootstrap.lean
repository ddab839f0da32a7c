import Muplar.Apk.Extraction
import Muplar.Common.Positional
/-!
# Android — the ART bootstrap plan

For an application in Java, `build_art_bootstrap_plan` looks for what a
virtual machine needs below the sysroot and puts the command together
that starts it: `dalvikvm` or `app_process`, with its options, the name
of a class, and for `ArtApkMain.main` the APK, the package, the launch
activity and the application class. The last three may be absent and are
left out then; `main` reads them by position.

Whether anything is missing depends on the sysroot alone, not on what the
manifest of the APK says.
-/

namespace Muplar

namespace Android

open Apk

/-! ## What is looked for -/

/-- `GuestPathCandidates`. -/
structure GuestPathCandidates where
  label : Bytes
  required : Bool
  guestPaths : List Bytes

def appProcessCandidates : List GuestPathCandidates :=
  [{ label := ascii "ART Java entrypoint"
     required := true
     guestPaths := [ascii "/apex/com.android.art/bin/dalvikvm64",
       ascii "/system/bin/app_process64"] }]

/-- A JAR with its label. -/
def jar (label : String) (required : Bool) (dirs : List String) : GuestPathCandidates where
  label := ascii label
  required := required
  guestPaths := dirs.map fun dir => ascii dir ++ ascii label

def bootclasspathCandidates : List GuestPathCandidates :=
  let art := "/apex/com.android.art/javalib/"
  let framework := "/system/framework/"
  [jar "core-oj.jar" true [art, framework],
    jar "core-libart.jar" true [art, framework],
    jar "conscrypt.jar" false ["/apex/com.android.conscrypt/javalib/", framework],
    jar "core-icu4j.jar" false ["/apex/com.android.i18n/javalib/"],
    jar "okhttp.jar" false [art, framework],
    jar "bouncycastle.jar" false [art, framework],
    jar "apache-xml.jar" false [art, framework],
    jar "framework.jar" true [framework],
    jar "framework-graphics.jar" false [framework],
    jar "framework-location.jar" false [framework],
    jar "framework-nfc.jar" false [framework],
    jar "framework-ondeviceintelligence-platform.jar" false [framework],
    jar "framework-platformcrashrecovery.jar" false [framework],
    jar "services.jar" false [framework],
    jar "ext.jar" false [framework],
    jar "knoxsdk.jar" false [framework],
    jar "sec_platform_library.jar" false [framework]]

def classpathCandidates : List GuestPathCandidates :=
  [jar "muplar-art-bootstrap.jar" true ["/data/local/tmp/muplar/art/"]]

def artShimCandidates : List GuestPathCandidates :=
  [jar "libmuplar_android_art_shim.so" false ["/data/local/tmp/muplar/art/"]]

def nativeRuntimeCandidates : List GuestPathCandidates :=
  [jar "libandroid_runtime.so" true ["/system/lib64/"],
    jar "libart.so" true ["/apex/com.android.art/lib64/", "/system/lib64/"]]

/-- `join_strings`. -/
def joinStrings (values : List Bytes) (separator : Bytes) : Bytes :=
  separator.intercalate values

/-- A guest path without the separators in front. -/
def relative (guestPath : Bytes) : Bytes :=
  guestPath.dropWhile (· = Path.slash)

/-- `candidate_summary`. -/
def candidateSummary (candidates : GuestPathCandidates) : Bytes :=
  joinStrings (candidates.guestPaths.map relative) (ascii " or ")

/-! ## The host -/

/-- What the plan is built on: the file system, whose states are `σ`, the
current directory, the root of the sources and the environment variable of
the service socket. -/
structure ArtHost (σ : Type) where
  isRegularFile : σ → Path → Bool
  isDirectory : σ → Path → Bool
  directoryEntries : σ → Path → List Path
  createDirectories : σ → Path → σ × Bool
  copyFile : σ → (source destination : Path) → σ × Bool
  cwd : List Bytes
  sourceRoot : Path
  serviceSocket : Option Bytes

/-- `sysroot_join`. -/
def sysrootJoin (sysroot : Path) (guestPath : Bytes) : Path :=
  sysroot.join (.ofString (relative guestPath))

namespace ArtHost

variable {σ : Type} (host : ArtHost σ)

/-- `std::filesystem::absolute`. -/
def absolute (path : Path) : Path :=
  if path.rooted then path else (⟨true, host.cwd⟩ : Path).join path

/-- `guest_path_for`. -/
def guestPathFor (hostPath sysroot : Path) : Bytes :=
  let hostText := (host.absolute hostPath).lexicallyNormal.string
  let root := (host.absolute sysroot).lexicallyNormal.string
  if root ≠ [] ∧ root.isPrefixOf hostText then
    let guest := hostText.drop root.length
    if guest = [] then [Path.slash] else guest
  else hostText

/-- `first_existing_regular`. -/
def firstExistingRegular (s : σ) (sysroot : Path) (candidates : GuestPathCandidates) :
    Option Path :=
  (candidates.guestPaths.map (sysrootJoin sysroot)).find? (host.isRegularFile s)

/-- The loop of `stage_optional_art_file` over the sources. -/
def copyFirst (destination : Path) : List Path → σ → σ × Bool
  | [], s => (s, false)
  | source :: sources, s =>
    if host.isRegularFile s source then
      let (s, made) := host.createDirectories s destination.parent
      if made then
        let (s, copied) := host.copyFile s source destination
        if copied then (s, true) else copyFirst destination sources s
      else copyFirst destination sources s
    else copyFirst destination sources s

/-- `stage_optional_art_file`. -/
def stageOptionalArtFile (s : σ) (sysroot : Path) (guestPath : Bytes) (sources : List Path) :
    σ × Option Path :=
  let destination := sysrootJoin sysroot guestPath
  let (s, copied) := host.copyFirst destination sources s
  (s, if copied ∨ host.isRegularFile s destination then some destination else none)

/-! ## The search -/

/-- The loop over the entrypoints: the first one, and those that are missed
before it. -/
def findAppProcess (s : σ) (sysroot : Path) :
    List GuestPathCandidates → Option Path × List Bytes
  | [] => (none, [])
  | candidates :: rest =>
    match host.firstExistingRegular s sysroot candidates with
    | some path => (some path, [])
    | none =>
      let (path, missing) := findAppProcess s sysroot rest
      (path, candidateSummary candidates :: missing)

/-- Where a file of the runtime is staged from. -/
def stageSources (name : Bytes) : List Path :=
  let build := host.sourceRoot.join (.ofString (ascii "build"))
  [build.join (.ofString (ascii "sysroot/data/local/tmp/muplar/art/" ++ name)),
    build.join (.ofString (ascii "builtin-android/" ++ name))]

/-- What the loop over the class path has found. -/
structure Classpath (σ : Type) where
  files : σ
  bootstrapJar : Option Path
  guestClasspath : List Bytes
  missing : List Bytes

/-- One turn of it. -/
def addClasspath (sysroot : Path) (found : Classpath σ) (candidates : GuestPathCandidates) :
    Classpath σ :=
  let (files, staged) :=
    if candidates.label = ascii "muplar-art-bootstrap.jar" then
      host.stageOptionalArtFile found.files sysroot (candidates.guestPaths.headD [])
        (host.stageSources candidates.label)
    else (found.files, none)
  match staged.or (host.firstExistingRegular files sysroot candidates) with
  | some path =>
    { files
      bootstrapJar := some path
      guestClasspath := found.guestClasspath ++ [host.guestPathFor path sysroot]
      missing := found.missing }
  | none => { found with files, missing := found.missing ++ [candidateSummary candidates] }

/-- The files after the loop over the shim, which stages it. -/
def stageArtShim (s : σ) (sysroot : Path) : σ :=
  artShimCandidates.foldl (fun s candidates =>
    (host.stageOptionalArtFile s sysroot (candidates.guestPaths.headD [])
      (host.stageSources candidates.label)).1) s

/-- The guest paths that a turn of the loop over the boot class path adds:
the bootstrap JAR comes after the framework. -/
def bootEntries (s : σ) (sysroot : Path) (bootstrapJar : Option Path)
    (candidates : GuestPathCandidates) : List Bytes :=
  match host.firstExistingRegular s sysroot candidates with
  | none => []
  | some path =>
    host.guestPathFor path sysroot ::
      if candidates.label = ascii "framework.jar" then
        (bootstrapJar.toList.map (host.guestPathFor · sysroot)).filter (· ≠ [])
      else []

/-- The JARs of a directory in order, of those that are wanted. -/
def jarsIn (s : σ) (dir : Path) (wanted : Bytes → Bool) : List Path :=
  if host.isDirectory s dir then
    let jars := (host.directoryEntries s dir).filter fun path =>
      host.isRegularFile s path ∧ ascii ".jar" <:+ path.filename ∧
        path.filename ≠ ascii ".jar" ∧ wanted path.filename
    jars.mergeSort fun p q => decide (p.filename ≤ q.filename)
  else []

/-- JARs added to the boot class path, each once. -/
def addJars (sysroot : Path) (guestBootclasspath : List Bytes) (jars : List Path) : List Bytes :=
  jars.foldl (fun seen path =>
    let guestPath := host.guestPathFor path sysroot
    if guestPath ∈ seen then seen else seen ++ [guestPath]) guestBootclasspath

/-- The boot class path. -/
def guestBootclasspath (s : σ) (sysroot : Path) (bootstrapJar : Option Path) : List Bytes :=
  let found := bootclasspathCandidates.flatMap (host.bootEntries s sysroot bootstrapJar)
  let extra := host.jarsIn s (sysrootJoin sysroot (ascii "/system/framework")) fun filename =>
    (filename = ascii "framework.jar" ∨ ascii "framework-" <+: filename) ∧
      filename ≠ ascii "muplar-art-bootstrap.jar"
  let generated :=
    host.jarsIn s (sysrootJoin sysroot (ascii "/data/local/tmp/muplar/art/bootclasspath"))
      fun _ => true
  host.addJars sysroot (host.addJars sysroot found extra) generated

/-- The candidates that are not there. -/
def missingOf (s : σ) (sysroot : Path) (candidates : List GuestPathCandidates) : List Bytes :=
  (candidates.filter fun c => host.firstExistingRegular s sysroot c = none).map candidateSummary

/-! ## The command -/

/-- The options of both machines. -/
def jitOptions : List Bytes :=
  [ascii "-Xusejit:true", ascii "-Xjitinitialsize:512k", ascii "-Xjitmaxsize:1m",
    ascii "-Xjitthreshold:200"]

/-- The property for the service socket. -/
def servicePropertyArgs : List Bytes :=
  (host.serviceSocket.toList.filter (· ≠ [])).map (ascii "-Dmuplar.service.socket=" ++ ·)

/-- The command up to the class name. -/
def launcherArgs (appProcess : Bytes) (guestClasspath guestBootclasspath : List Bytes) :
    List Bytes :=
  let colon := ascii ":"
  (if appProcess ≠ [] then [appProcess] else []) ++
    if ascii "dalvikvm" <:+: appProcess then
      (if guestBootclasspath ≠ [] then
        [ascii "-Xbootclasspath:" ++ joinStrings guestBootclasspath colon] else []) ++
      jitOptions ++ host.servicePropertyArgs ++
      (if guestClasspath ≠ [] then [ascii "-classpath", joinStrings guestClasspath colon] else [])
    else
      (if guestClasspath ≠ [] then
        [ascii "-Djava.class.path=" ++ joinStrings guestClasspath colon] else []) ++
      host.servicePropertyArgs ++ jitOptions ++
      [ascii "/system/bin", ascii "--application", ascii "--nice-name=muplar-art"]

end ArtHost

/-- The class whose `main` is started. -/
def className : Bytes :=
  ascii "com.muplar.runtime.ArtApkMain"

/-- `ArtBootstrapConfig`. -/
structure ArtBootstrapConfig where
  apkPath : Path
  sysroot : Path
  apkClassification : ApkClassification

/-- The part of an `ArtBootstrapPlan` that a launch reads. -/
structure ArtBootstrapPlan where
  apkPath : Path
  guestApkPath : Bytes
  packageName : Option Bytes
  launchActivity : Option Bytes
  applicationClass : Option Bytes
  missingRequiredInputs : List Bytes
  argv : List Bytes

def ArtBootstrapPlan.ready (plan : ArtBootstrapPlan) : Bool :=
  plan.missingRequiredInputs.isEmpty

/-- `build_art_bootstrap_plan`. -/
def ArtHost.buildArtBootstrapPlan {σ : Type} (host : ArtHost σ) (s : σ)
    (config : ArtBootstrapConfig) : ArtBootstrapPlan :=
  let apkPath := (host.absolute config.apkPath).lexicallyNormal
  let guestApkPath :=
    if config.sysroot.isEmpty then [] else host.guestPathFor apkPath config.sysroot
  let classification := config.apkClassification
  let plan : ArtBootstrapPlan :=
    { apkPath, guestApkPath
      packageName := classification.manifestPackage
      launchActivity := classification.manifestLaunchActivity
      applicationClass := classification.manifestApplicationClass
      missingRequiredInputs := [ascii "--sysroot is required for Java/ART bootstrap"]
      argv := [] }
  if config.sysroot.isEmpty then plan
  else
    let sysroot := (host.absolute config.sysroot).lexicallyNormal
    let (appProcess64, appProcessMissing) := host.findAppProcess s sysroot appProcessCandidates
    let frameworkMissing :=
      if host.isDirectory s (sysrootJoin sysroot (ascii "/system/framework")) then []
      else [ascii "system/framework/"]
    let found := classpathCandidates.foldl (host.addClasspath sysroot)
      { files := s, bootstrapJar := none, guestClasspath := [], missing := [] }
    let s := host.stageArtShim found.files sysroot
    let appProcess := appProcess64.elim [] (host.guestPathFor · sysroot)
    { plan with
      missingRequiredInputs := appProcessMissing ++ frameworkMissing ++ found.missing ++
        host.missingOf s sysroot (bootclasspathCandidates.filter (·.required)) ++
        host.missingOf s sysroot nativeRuntimeCandidates
      argv := host.launcherArgs appProcess found.guestClasspath
          (host.guestBootclasspath s sysroot found.bootstrapJar) ++
        [className, if guestApkPath = [] then apkPath.string else guestApkPath] ++
        plan.packageName.toList ++ plan.launchActivity.toList ++ plan.applicationClass.toList }

/-! ## The class -/

/-- What `ArtApkMain.main` takes from its arguments. -/
structure LaunchParameters where
  apkPath : Bytes
  packageName : Bytes
  launchActivity : Bytes
  applicationClass : Bytes
  deriving DecidableEq

/-- The assignments in `ArtApkMain.main`. -/
def artApkMain (args : List Bytes) : LaunchParameters where
  apkPath := args[0]?.getD []
  packageName := args[1]?.getD []
  launchActivity := args[2]?.getD []
  applicationClass := args[3]?.getD []

/-- The arguments behind the class name of a command. -/
def mainArgs (argv : List Bytes) : List Bytes :=
  (argv.dropWhile (· ≠ className)).tail

end Android

end Muplar
