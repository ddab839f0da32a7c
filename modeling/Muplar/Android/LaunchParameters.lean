import Muplar.Android.ArtBootstrap
/-!
# Android — the launch parameters

What `ArtApkMain.main` is given of an APK by `build_art_bootstrap_plan`.
The class name stands in the command once the sysroot is there, and
nothing in front of it can be taken for it. Behind it the parameters are
encoded by position, without the absent ones.

They arrive in their places exactly where nothing stands behind an absent
one (`launch_parameters_iff`).
-/

namespace Muplar

namespace Android

open Apk

variable {σ : Type} {host : ArtHost σ} {s : σ}

/-! ## Guest paths -/

theorem rooted_absolute (host : ArtHost σ) (path : Path) : (host.absolute path).rooted = true := by
  unfold ArtHost.absolute
  split
  · assumption
  · exact Path.rooted_join rfl

/-- The normal form of a path that ends in a plain name ends in it. -/
theorem getLast_lexicallyNormal {p : Path} (hp : p.rooted) {init : List Bytes} {last : Bytes}
    (hnames : p.names = init ++ [last]) (hlast : Path.Plain last) :
    p.lexicallyNormal.string.getLast? = last.getLast? := by
  have hopen : p.keepsSeparator = false := by
    have hends : p.endsOpen = false := by
      obtain ⟨hempty, hdot, hdots⟩ := hlast
      simp [Path.endsOpen, hnames, hempty, hdot, hdots]
    simp [Path.keepsSeparator, hends]
  have hwalk : p.walk = (init.foldl (Path.visit p.rooted) []).reverse ++ [last] := by
    rw [Path.walk, hnames, List.foldl_append, List.foldl_cons, List.foldl_nil,
      Path.visit_plain hlast, List.reverse_cons]
  have hstring : p.lexicallyNormal.string =
      (Path.slash :: (init.foldl (Path.visit p.rooted) []).reverse.flatMap (· ++ [Path.slash])) ++
        last := by
    rw [Path.lexicallyNormal_eq hp, hopen, if_neg Bool.false_ne_true, Path.string, hwalk,
      intercalate_concat]
    rfl
  rw [hstring, List.getLast?_append_of_ne_nil _ hlast.1]

/-- A guest path ends as the host path does, or in a separator. -/
theorem getLast_guestPathFor (host : ArtHost σ) (hostPath sysroot : Path) :
    (host.guestPathFor hostPath sysroot).getLast? =
        (host.absolute hostPath).lexicallyNormal.string.getLast? ∨
      (host.guestPathFor hostPath sysroot).getLast? = some Path.slash := by
  unfold ArtHost.guestPathFor
  dsimp only
  split
  · split
    · exact .inr rfl
    · next hne =>
      left
      rw [List.getLast?_drop, if_neg]
      exact fun hlen => hne (List.drop_eq_nil_of_le hlen)
  · exact .inl rfl

theorem guestPathFor_ne_nil (hostPath sysroot : Path) :
    host.guestPathFor hostPath sysroot ≠ [] := by
  unfold ArtHost.guestPathFor
  dsimp only
  split
  · split
    · exact List.cons_ne_nil _ _
    · assumption
  · rw [Path.lexicallyNormal_eq (rooted_absolute host hostPath)]
    exact List.cons_ne_nil _ _

/-! ## The command in front of the class name -/

theorem getLast_className : className.getLast? = some 110 := by decide

/-- **A file of the sysroot is not taken for the class** unless its name ends
as that of the class. -/
theorem getLast_sysrootJoin {sysroot : Path} (hroot : sysroot.rooted) {guestPath last : Bytes}
    {init : List Bytes} (hpath : Path.ofString (relative guestPath) = ⟨false, init ++ [last]⟩)
    (hlast : Path.Plain last) (hend : last.getLast? ≠ className.getLast?) :
    (host.guestPathFor (sysrootJoin sysroot guestPath) sysroot).getLast? ≠
      className.getLast? := by
  have hjoin : sysrootJoin sysroot guestPath =
      ⟨sysroot.rooted, (Path.closed sysroot.names ++ init) ++ [last]⟩ := by
    rw [sysrootJoin, Path.join, hpath, if_neg Bool.false_ne_true, if_neg (by simp),
      List.append_assoc]
  have habsolute : host.absolute (sysrootJoin sysroot guestPath) = sysrootJoin sysroot guestPath :=
    if_pos (by rw [hjoin]; exact hroot)
  rcases getLast_guestPathFor host (sysrootJoin sysroot guestPath) sysroot with h | h
  · rw [h, habsolute, getLast_lexicallyNormal (by rw [hjoin]; exact hroot) (by rw [hjoin]) hlast]
    exact hend
  · rw [h, getLast_className]
    decide

theorem findAppProcess_mem {sysroot path : Path} {cs : List GuestPathCandidates}
    (h : (host.findAppProcess s sysroot cs).1 = some path) :
    ∃ c ∈ cs, ∃ guestPath ∈ c.guestPaths, path = sysrootJoin sysroot guestPath := by
  induction cs with
  | nil => cases h
  | cons c cs ih =>
    rw [ArtHost.findAppProcess] at h
    cases hfirst : host.firstExistingRegular s sysroot c with
    | some p =>
      rw [hfirst] at h
      obtain rfl := Option.some.inj h
      obtain ⟨guestPath, hmem, rfl⟩ := List.mem_map.mp (List.mem_of_find?_eq_some hfirst)
      exact ⟨c, List.mem_cons_self, guestPath, hmem, rfl⟩
    | none =>
      rw [hfirst] at h
      obtain ⟨c', hc', hpath⟩ := ih h
      exact ⟨c', List.mem_cons_of_mem c hc', hpath⟩

theorem getLast_appProcess {sysroot path : Path} (hroot : sysroot.rooted)
    (h : (host.findAppProcess s sysroot appProcessCandidates).1 = some path) :
    (host.guestPathFor path sysroot).getLast? ≠ className.getLast? := by
  obtain ⟨c, hc, guestPath, hguest, rfl⟩ := findAppProcess_mem h
  obtain rfl := List.mem_singleton.mp hc
  rcases List.mem_cons.mp hguest with rfl | hguest
  · have hpath : Path.ofString (relative (ascii "/apex/com.android.art/bin/dalvikvm64")) =
        ⟨false, ["apex", "com.android.art", "bin"].map ascii ++ [ascii "dalvikvm64"]⟩ := by decide
    exact getLast_sysrootJoin hroot hpath (by decide) (by decide)
  · obtain rfl := List.mem_singleton.mp hguest
    have hpath : Path.ofString (relative (ascii "/system/bin/app_process64")) =
        ⟨false, ["system", "bin"].map ascii ++ [ascii "app_process64"]⟩ := by decide
    exact getLast_sysrootJoin hroot hpath (by decide) (by decide)

/-- A turn of the loop over the class path adds its only candidate, or
nothing. -/
theorem addClasspath_cases (host : ArtHost σ) (sysroot : Path) (found : ArtHost.Classpath σ)
    {c : GuestPathCandidates} {guestPath : Bytes} (hc : c.guestPaths = [guestPath]) :
    (host.addClasspath sysroot found c).guestClasspath = found.guestClasspath ∨
      (host.addClasspath sysroot found c).guestClasspath = found.guestClasspath ++
        [host.guestPathFor (sysrootJoin sysroot guestPath) sysroot] := by
  have hfirst : ∀ files path, host.firstExistingRegular files sysroot c = some path →
      path = sysrootJoin sysroot guestPath := by
    intro files path h
    have hmem := List.mem_of_find?_eq_some h
    rw [hc] at hmem
    exact List.mem_singleton.mp hmem
  have hstaged : ∀ path, (if c.label = ascii "muplar-art-bootstrap.jar" then
      host.stageOptionalArtFile found.files sysroot (c.guestPaths.headD [])
        (host.stageSources c.label) else (found.files, none)).2 = some path →
      path = sysrootJoin sysroot guestPath := by
    intro path h
    split at h
    · rw [hc, ArtHost.stageOptionalArtFile] at h
      dsimp only at h
      split at h
      · exact (Option.some.inj h).symm
      · cases h
    · cases h
  unfold ArtHost.addClasspath
  dsimp only
  split
  · next path hpath =>
    right
    rcases Option.or_eq_some_iff.mp hpath with h | ⟨-, h⟩
    · rw [hstaged path h]
    · rw [hfirst _ path h]
  · exact .inl rfl

/-- The class path is the bootstrap JAR, if that is there. -/
theorem guestClasspath_cases (host : ArtHost σ) (s : σ) (sysroot : Path) :
    (classpathCandidates.foldl (host.addClasspath sysroot) ⟨s, none, [], []⟩).guestClasspath = [] ∨
      (classpathCandidates.foldl (host.addClasspath sysroot) ⟨s, none, [], []⟩).guestClasspath =
        [host.guestPathFor (sysrootJoin sysroot
          (ascii "/data/local/tmp/muplar/art/" ++ ascii "muplar-art-bootstrap.jar")) sysroot] := by
  have hc : (jar "muplar-art-bootstrap.jar" true ["/data/local/tmp/muplar/art/"]).guestPaths =
      [ascii "/data/local/tmp/muplar/art/" ++ ascii "muplar-art-bootstrap.jar"] := rfl
  exact addClasspath_cases host sysroot ⟨s, none, [], []⟩ hc

/-- A text that begins otherwise is not the class name. -/
theorem ne_className {start rest : Bytes} (hne : start ≠ [])
    (h : start.head? ≠ className.head?) : start ++ rest ≠ className := by
  intro heq
  rw [← heq, List.head?_append_of_ne_nil _ hne] at h
  exact h rfl

theorem className_notMem_launcherArgs {appProcess : Bytes}
    {guestClasspath guestBootclasspath : List Bytes}
    (happ : appProcess ≠ [] → appProcess ≠ className)
    (hclasspath : guestClasspath ≠ [] → joinStrings guestClasspath (ascii ":") ≠ className) :
    className ∉ host.launcherArgs appProcess guestClasspath guestBootclasspath := by
  have hjit : className ∉ ArtHost.jitOptions := by decide
  have hservice : className ∉ host.servicePropertyArgs := by
    intro hmem
    obtain ⟨socket, -, heq⟩ := List.mem_map.mp hmem
    exact ne_className (by decide) (by decide) heq
  have hboot : ∀ x, ascii "-Xbootclasspath:" ++ x ≠ className := fun x =>
    ne_className (by decide) (by decide)
  have hproperty : ∀ x, ascii "-Djava.class.path=" ++ x ≠ className := fun x =>
    ne_className (by decide) (by decide)
  have hdash : ascii "-classpath" ≠ className := by decide
  have htail : className ∉
      [ascii "/system/bin", ascii "--application", ascii "--nice-name=muplar-art"] := by decide
  unfold ArtHost.launcherArgs
  dsimp only
  simp only [List.mem_append, not_or]
  refine ⟨?_, ?_⟩
  · split
    · next hne => exact fun hmem => happ hne (List.mem_singleton.mp hmem).symm
    · exact List.not_mem_nil
  · split
    · simp only [List.mem_append, not_or]
      refine ⟨⟨⟨?_, hjit⟩, hservice⟩, ?_⟩
      · split
        · exact fun hmem => hboot _ (List.mem_singleton.mp hmem).symm
        · exact List.not_mem_nil
      · split
        · next hne =>
          rw [List.mem_cons, List.mem_singleton, not_or]
          exact ⟨hdash.symm, (hclasspath hne).symm⟩
        · exact List.not_mem_nil
    · simp only [List.mem_append, not_or]
      refine ⟨⟨⟨?_, hservice⟩, hjit⟩, htail⟩
      split
      · exact fun hmem => hproperty _ (List.mem_singleton.mp hmem).symm
      · exact List.not_mem_nil

/-! ## The arguments of the class -/

/-- The parameters of a plan, absent ones as empty. -/
def ArtBootstrapPlan.parameters (plan : ArtBootstrapPlan) : LaunchParameters where
  apkPath := plan.guestApkPath
  packageName := plan.packageName.getD []
  launchActivity := plan.launchActivity.getD []
  applicationClass := plan.applicationClass.getD []

/-- The parameters as they are put behind the class name. -/
def ArtBootstrapPlan.fields (plan : ArtBootstrapPlan) : List (Option Bytes) :=
  [some plan.guestApkPath, plan.packageName, plan.launchActivity, plan.applicationClass]

theorem mainArgs_append {front : List Bytes} (h : className ∉ front) (args : List Bytes) :
    mainArgs (front ++ className :: args) = args := by
  rw [mainArgs, List.dropWhile_append_of_pos]
  · simp
  · exact fun a ha => decide_eq_true (ne_of_mem_of_not_mem ha h)

theorem encode_parameters (apk : Bytes) (package activity application : Option Bytes) :
    Positional.encode [some apk, package, activity, application] =
      apk :: (package.toList ++ (activity.toList ++ application.toList)) := by
  cases package <;> cases activity <;> cases application <;> rfl

theorem isEmpty_of_ready {config : ArtBootstrapConfig}
    (h : (host.buildArtBootstrapPlan s config).ready) : config.sysroot.isEmpty = false := by
  cases hempty : config.sysroot.isEmpty with
  | false => rfl
  | true =>
    rw [ArtHost.buildArtBootstrapPlan, ArtBootstrapPlan.ready, if_pos hempty] at h
    cases h

/-- **What stands behind the class name** of a plan that is ready. -/
theorem mainArgs_of_ready {config : ArtBootstrapConfig}
    (h : (host.buildArtBootstrapPlan s config).ready) :
    mainArgs (host.buildArtBootstrapPlan s config).argv =
      Positional.encode (host.buildArtBootstrapPlan s config).fields := by
  have hsysroot := isEmpty_of_ready h
  have hroot : (host.absolute config.sysroot).lexicallyNormal.rooted = true :=
    Path.rooted_lexicallyNormal (rooted_absolute host config.sysroot)
  have happ : ∀ path,
      (host.findAppProcess s (host.absolute config.sysroot).lexicallyNormal
        appProcessCandidates).1 = some path →
      host.guestPathFor path (host.absolute config.sysroot).lexicallyNormal ≠ className :=
    fun path hpath heq => getLast_appProcess hroot hpath (congrArg List.getLast? heq)
  have hjarEnd : (host.guestPathFor (sysrootJoin (host.absolute config.sysroot).lexicallyNormal
      (ascii "/data/local/tmp/muplar/art/" ++ ascii "muplar-art-bootstrap.jar"))
      (host.absolute config.sysroot).lexicallyNormal).getLast? ≠ className.getLast? := by
    have hpath : Path.ofString (relative
        (ascii "/data/local/tmp/muplar/art/" ++ ascii "muplar-art-bootstrap.jar")) =
          ⟨false, ["data", "local", "tmp", "muplar", "art"].map ascii ++
            [ascii "muplar-art-bootstrap.jar"]⟩ := by decide
    exact getLast_sysrootJoin hroot hpath (by decide) (by decide)
  unfold ArtHost.buildArtBootstrapPlan ArtBootstrapPlan.fields
  simp only [hsysroot, Bool.false_eq_true, if_false, guestPathFor_ne_nil]
  rw [List.append_assoc, List.append_assoc, List.append_assoc, List.cons_append,
    mainArgs_append, encode_parameters]
  · rfl
  · refine className_notMem_launcherArgs (fun _ => ?_) fun hne => ?_
    · cases hpath : (host.findAppProcess s (host.absolute config.sysroot).lexicallyNormal
        appProcessCandidates).1 with
      | none => exact (by decide : ([] : Bytes) ≠ className)
      | some path => exact happ path hpath
    · rcases guestClasspath_cases host s
        (host.absolute config.sysroot).lexicallyNormal with hnil | hjar
      · exact absurd hnil hne
      · rw [hjar, joinStrings, List.intercalate_singleton]
        exact fun heq => hjarEnd (congrArg List.getLast? heq)

/-- The parameters in their places. -/
theorem artApkMain_eq_iff (plan : ArtBootstrapPlan) :
    artApkMain (Positional.encode plan.fields) = plan.parameters ↔
      ∀ i, Positional.position [] (Positional.encode plan.fields) i =
        Positional.field [] plan.fields i := by
  rw [artApkMain, ArtBootstrapPlan.parameters, LaunchParameters.mk.injEq]
  constructor
  · rintro ⟨hapk, hpackage, hactivity, hclass⟩ i
    match i with
    | 0 => exact hapk
    | 1 => exact hpackage
    | 2 => exact hactivity
    | 3 => exact hclass
    | i + 4 => exact Positional.position_encode_of_le (Nat.le_add_left 4 i)
  · exact fun h => ⟨h 0, h 1, h 2, h 3⟩

section

variable (host : ArtHost σ) (s : σ) (config : ArtBootstrapConfig)

theorem packageName_plan : (host.buildArtBootstrapPlan s config).packageName =
    config.apkClassification.manifestPackage := by
  unfold ArtHost.buildArtBootstrapPlan
  dsimp only
  split <;> rfl

theorem launchActivity_plan : (host.buildArtBootstrapPlan s config).launchActivity =
    config.apkClassification.manifestLaunchActivity := by
  unfold ArtHost.buildArtBootstrapPlan
  dsimp only
  split <;> rfl

theorem applicationClass_plan : (host.buildArtBootstrapPlan s config).applicationClass =
    config.apkClassification.manifestApplicationClass := by
  unfold ArtHost.buildArtBootstrapPlan
  dsimp only
  split <;> rfl

end

/-- **The parameters arrive** exactly where none stands behind an absent one. -/
theorem launch_parameters_iff (config : ArtBootstrapConfig)
    (h : (host.buildArtBootstrapPlan s config).ready) :
    artApkMain (mainArgs (host.buildArtBootstrapPlan s config).argv) =
        (host.buildArtBootstrapPlan s config).parameters ↔
      (config.apkClassification.manifestPackage = none →
        config.apkClassification.manifestLaunchActivity.getD [] = [] ∧
          config.apkClassification.manifestApplicationClass.getD [] = []) ∧
      (config.apkClassification.manifestLaunchActivity = none →
        config.apkClassification.manifestApplicationClass.getD [] = []) := by
  rw [mainArgs_of_ready h, artApkMain_eq_iff, Positional.position_encode_iff,
    ArtBootstrapPlan.fields, packageName_plan, launchActivity_plan, applicationClass_plan]
  simp [List.pairwise_cons, imp_and]

/-! ## A sysroot with everything -/

/-- A host whose sysroot has every file. -/
def fullHost : ArtHost Unit where
  isRegularFile _ _ := true
  isDirectory _ _ := true
  directoryEntries _ _ := []
  createDirectories s _ := (s, true)
  copyFile s _ _ := (s, true)
  cwd := []
  sourceRoot := ⟨true, [ascii "src"]⟩
  serviceSocket := none

/-- An APK with these three in its manifest. -/
def configOf (package activity application : Option Bytes) : ArtBootstrapConfig where
  apkPath := .ofString (ascii "/root/app.apk")
  sysroot := .ofString (ascii "/root")
  apkClassification :=
    { runtimeKind := .javaOnly
      manifestLib := none
      manifestPackage := package
      manifestApplicationLabel := none
      manifestApplicationIcon := none
      manifestApplicationClass := application
      manifestLaunchActivity := activity
      manifestWidgetProvider := none }

theorem ready_configOf (package activity application : Option Bytes) :
    (fullHost.buildArtBootstrapPlan () (configOf package activity application)).ready = true := by
  rfl

/-- All three are there, and arrive. -/
theorem launch_parameters_iff_app :
    artApkMain (mainArgs (fullHost.buildArtBootstrapPlan () (configOf (some (ascii "com.app"))
        (some (ascii ".Main")) (some (ascii "com.app.App")))).argv) =
      (fullHost.buildArtBootstrapPlan () (configOf (some (ascii "com.app"))
        (some (ascii ".Main")) (some (ascii "com.app.App")))).parameters :=
  (launch_parameters_iff _ (ready_configOf _ _ _)).mpr ⟨nofun, nofun⟩

/-- Without a launch activity, the application class is started as one. -/
theorem application_as_activity :
    ¬∀ (σ : Type) (host : ArtHost σ) (s : σ) (config : ArtBootstrapConfig),
      (host.buildArtBootstrapPlan s config).ready →
        artApkMain (mainArgs (host.buildArtBootstrapPlan s config).argv) =
          (host.buildArtBootstrapPlan s config).parameters := by
  intro hall
  have heq := hall Unit fullHost () (configOf (some (ascii "com.app")) none
    (some (ascii "com.app.App"))) (ready_configOf _ _ _)
  rw [mainArgs_of_ready (ready_configOf _ _ _)] at heq
  have hactivity : ascii "com.app.App" = [] := congrArg LaunchParameters.launchActivity heq
  exact absurd hactivity (by decide)

end Android

end Muplar
