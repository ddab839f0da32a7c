import Mathlib.Data.List.TakeWhile
import Muplar.Apk.Containment
/-!
# APK — extracted libraries and their entries

A library is selected by an entry's whole name and extracted to a file of
its last name. Two entries in different directories of `lib/arm64-v8a/`,
or one name that is in the archive twice, go to one file, which holds
what was written last.

Where the last names are different the launch gets what it selected:
`libraries_kept_iff` says that they have to be, and that it is enough.
The last name counts up to a zero byte, as the system reads it. Assets
are written below `assets` and never get in the way.
-/

namespace Muplar

namespace Apk

open Act Muplar.Path FileTree

variable {host : Host} {config : ApkLaunchConfig} {plan : LaunchPlan} {dir : Path}
variable {lib asset : ZipEntry} {disk disk' : Disk} {t t' : FileTree}

/-- The name of a library's file to the system. -/
def libFile (lib : ZipEntry) : Bytes :=
  (filenameFromZipPath lib.name).takeWhile (· ≠ 0)

/-- **The libraries keep their identity**: the file to be started holds
the data of the selected entry, every extracted file holds the data of an
entry of its name, and no two entries share a file. -/
structure LibrariesKept (host : Host) (plan : LaunchPlan) (dir : Path) (result : ApkLaunchResult)
    (t : FileTree) : Prop where
  main : ∃ data, extractEntryData host.inflate plan.apk plan.selected = .ok data ∧
    host.fileAt t result.soPath = some data
  others : ∀ path ∈ result.extractedLibs, ∃ lib ∈ plan.libs, ∃ data,
    path = (libPath dir lib).string ∧ extractEntryData host.inflate plan.apk lib = .ok data ∧
      host.fileAt t (libPath dir lib) = some data
  apart : plan.libs.Pairwise fun a b =>
    host.locate t (libPath dir a) ≠ host.locate t (libPath dir b)

/-! ## What one write does -/

/-- The place for a file can be told from the path. -/
theorem eq_of_target {p : Path} {loc : Location} (h : host.target t p = some loc) :
    p.seen.names.foldl (enter []) (host.start p.rooted) = loc := by
  obtain ⟨init, last, l, hnames, hplain, hfollow, rfl⟩ := target_eq_some_iff.mp h
  rw [hnames, List.foldl_append, eq_of_follow hfollow]
  exact enter_plain hplain

/-- What a write that succeeded has done. -/
theorem writeOut_ok {p : Path} {data : Bytes} {message : String} {u : Unit}
    (h : exec (writeOut host p data message) disk = (.ok u, disk')) :
    ∃ loc, ∃ hw : disk.tree.isWritable loc, host.target disk.tree p = some loc ∧
      disk'.tree = disk.tree.writeFile loc data hw := by
  rw [writeOut, exec_get_bind] at h
  split at h
  · cases h
  · next loc hloc =>
    split at h
    · next hw =>
      cases h
      exact ⟨loc, hw.1, hloc, rfl⟩
    · cases h

theorem writeFile_keepsDirs {loc : Location} {data : Bytes} (hw : t.isWritable loc) :
    KeepsDirs t (t.writeFile loc data hw) := by
  intro l hl
  rw [writeFile_of_ne hw ?_]
  · exact hl
  · rintro rfl
    rw [isWritable, decide_eq_true_eq] at hw
    exact hw.2.2 hl

/-- The path leads to the file that was written. -/
theorem locate_of_target {p : Path} {loc : Location} {data : Bytes}
    (h : host.target t p = some loc) (hw : t.isWritable loc) :
    host.locate (t.writeFile loc data hw) p = some loc := by
  obtain ⟨init, last, l, hnames, hplain, hfollow, rfl⟩ := target_eq_some_iff.mp h
  have hdir : (t.writeFile (l ++ [last]) data hw).node l = some .dir := by
    refine writeFile_keepsDirs hw l ?_
    rw [isWritable, decide_eq_true_eq, List.dropLast_concat] at hw
    exact hw.2.1
  have hkeeps : KeepsDirs t (t.writeFile (l ++ [last]) data hw) := writeFile_keepsDirs hw
  have hinit := hkeeps.follow hfollow (by rw [hdir]; exact Option.some_ne_none _)
  rw [Host.locate, hnames, follow_append, hinit, Option.bind_some, follow_cons hdir,
    enter_plain hplain]
  exact follow_nil (by rw [writeFile_self]; exact Option.some_ne_none _)

/-- Creating directories changes nothing that was there. -/
theorem makeFrom_keeps (t : FileTree) (rooted : Bool) (done : List Bytes) (l : Location)
    (names : List Bytes) :
    Keeps (fun disk => ∀ m, t.node m ≠ none → disk.tree.node m = t.node m)
      (makeFrom host rooted done l names) := by
  induction names generalizing done l with
  | nil => exact Keeps.pure ()
  | cons name names ih =>
    rw [makeFrom]
    refine Keeps.get_bind fun disk hdisk => ?_
    dsimp only
    split
    · exact ih _ _ disk hdisk
    · exact hdisk
    · next hnone =>
      split
      · next hmake =>
        rw [enter_plain hmake.1] at hnone ⊢
        refine ih _ _ _ fun m hm => ?_
        have hkept := hdisk m hm
        rw [← hkept] at hm ⊢
        exact makeDirs_of_missing hmake.2.1 hnone hm
      · exact hdisk

theorem createDirectories_keeps (host : Host) (t : FileTree) (p : Path) :
    Keeps (fun disk => ∀ m, t.node m ≠ none → disk.tree.node m = t.node m)
      (createDirectories host p) :=
  makeFrom_keeps t _ _ _ _

/-! ## Where the libraries are -/

/-- Where the extraction directory is. -/
def Host.home (host : Host) (dir : Path) : Location :=
  (closed dir.names).foldl (enter []) (host.start dir.rooted)

/-- Where a library's file is. -/
def Host.libLocation (host : Host) (dir : Path) (lib : ZipEntry) : Location :=
  host.home dir ++ [ascii "lib", ascii "arm64-v8a", libFile lib]

/-- What the system sees of the names of a library. -/
theorem seen_libPath (hdir : dir.Clean) (hlib : isArm64Lib lib) :
    (libPath dir lib).seen = ⟨dir.rooted,
      closed dir.names ++ [ascii "lib", ascii "arm64-v8a", libFile lib]⟩ := by
  have hcut : cutNames [filenameFromZipPath lib.name] = [libFile lib] := by
    rw [cutNames, libFile]
    split
    · rfl
    · next hclean =>
      rw [List.takeWhile_eq_self_iff.mpr]
      · rfl
      · exact fun b hb => decide_eq_true fun hzero => hclean (hzero ▸ hb)
  have hfront : ∀ name ∈ [ascii "lib", ascii "arm64-v8a"], (0 : UInt8) ∉ name := by
    intro name hname
    simp only [List.mem_cons, List.not_mem_nil, or_false] at hname
    rcases hname with rfl | rfl
    · decide
    · decide
  have hnames : cutNames (libNames lib) = [ascii "lib", ascii "arm64-v8a", libFile lib] := by
    have happend := cutNames_append hfront [filenameFromZipPath lib.name]
    rw [hcut] at happend
    exact happend
  rw [libPath_eq dir hlib, seen_below hdir, hnames]

/-- A library that can be written is written to its place. -/
theorem target_libPath {loc : Location} (hdir : dir.Clean) (hlib : isArm64Lib lib)
    (h : host.target t (libPath dir lib) = some loc) : loc = host.libLocation dir lib := by
  obtain ⟨init, last, l, hnames, hplain, hfollow, rfl⟩ := target_eq_some_iff.mp h
  have hseen := seen_libPath hdir hlib
  have hrooted : (libPath dir lib).rooted = dir.rooted := by rw [libPath_eq dir hlib]
  rw [hseen] at hnames
  have hsplit : closed dir.names ++ [ascii "lib", ascii "arm64-v8a"] ++ [libFile lib] =
      init ++ [last] := by
    rw [← hnames, List.append_assoc]
    rfl
  obtain ⟨rfl, hlast⟩ := List.append_inj' hsplit rfl
  have hl := eq_of_follow hfollow
  rw [List.foldl_append, hrooted] at hl
  rw [← hl, ← hlast, Host.libLocation, Host.home]
  simp only [List.foldl_cons, List.foldl_nil]
  rw [enter_plain (by decide), enter_plain (by decide)]
  simp only [List.append_assoc, List.cons_append, List.nil_append]

/-- **Assets stay out of the libraries' way.** -/
theorem target_assetPath_ne {loc : Location} (hdir : dir.Clean) (hasset : isAssetEntry asset)
    (h : host.target t (assetPath dir asset) = some loc) (lib : ZipEntry) :
    loc ≠ host.libLocation dir lib := by
  obtain ⟨rest, hpath, hup⟩ := assetPath_eq dir hasset
  have hseen : (assetPath dir asset).seen =
      ⟨dir.rooted, closed dir.names ++ ascii "assets" :: cutNames rest⟩ := by
    rw [hpath, seen_below hdir]
    have hassets : (0 : UInt8) ∉ ascii "assets" := by decide
    rw [cutNames, if_neg hassets]
  -- the last name the system sees is plain, so none of the names is a dot-dot
  have hdown : dotDot ∉ cutNames rest := by
    obtain ⟨init, last, -, hnames, hplain, -⟩ := target_eq_some_iff.mp h
    rw [List.mem_cons, not_or] at hup
    intro hmem
    obtain ⟨front, last', hcut⟩ := List.eq_nil_or_concat (cutNames rest) |>.resolve_left
      (List.ne_nil_of_mem hmem)
    rw [List.concat_eq_append] at hcut
    rw [hseen] at hnames
    simp only [hcut, ← List.cons_append, ← List.append_assoc] at hnames
    obtain ⟨-, hlast⟩ := List.append_inj' hnames rfl
    obtain rfl := List.singleton_inj.mp hlast
    rw [hcut] at hmem
    exact dotDot_not_mem_of_plain hup.2 (by rw [hcut]) hplain hmem
  have hloc := eq_of_target h
  have hrooted : (assetPath dir asset).rooted = dir.rooted := by rw [hpath]
  rw [hseen, hrooted, List.foldl_append, List.foldl_cons, enter_plain (by decide)] at hloc
  rintro rfl
  have hpre : host.home dir ++ [ascii "assets"] <+: host.libLocation dir lib := by
    rw [← hloc]
    exact foldl_enter_down hdown _
  have hname := List.prefix_self_append_iff.mp hpre
  exact absurd (List.cons_prefix_cons.mp hname).1 (by decide)

/-! ## The loops -/

/-- A library is at its place, with the data of its entry. -/
def Holds (host : Host) (plan : LaunchPlan) (dir : Path) (t : FileTree) (lib : ZipEntry) : Prop :=
  ∃ data, extractEntryData host.inflate plan.apk lib = .ok data ∧
    host.locate t (libPath dir lib) = some (host.libLocation dir lib) ∧
    t.node (host.libLocation dir lib) = some (.file data)

theorem Holds.fileAt (h : Holds host plan dir t lib) :
    ∃ data, extractEntryData host.inflate plan.apk lib = .ok data ∧
      host.fileAt t (libPath dir lib) = some data := by
  obtain ⟨data, hdata, hlocate, hnode⟩ := h
  refine ⟨data, hdata, ?_⟩
  rw [Host.fileAt, hlocate, Option.bind_some, hnode]

theorem Holds.mono (h : Holds host plan dir t lib) (hdirs : KeepsDirs t t')
    (hnode : t'.node (host.libLocation dir lib) = t.node (host.libLocation dir lib)) :
    Holds host plan dir t' lib := by
  obtain ⟨data, hdata, hlocate, hfile⟩ := h
  have hfile' : t'.node (host.libLocation dir lib) = some (.file data) := by rw [hnode, hfile]
  exact ⟨data, hdata,
    hdirs.follow hlocate (by rw [hfile']; exact Option.some_ne_none _), hfile'⟩

/-- A library that was written is at its place, and one with another name
stays there. -/
theorem extractLib_ok {result result' : ApkLaunchResult} (hdir : dir.Clean)
    (hlib : isArm64Lib lib)
    (h : exec (extractLib host plan dir result lib) disk = (.ok result', disk')) :
    Holds host plan dir disk'.tree lib ∧
      (∀ other, libFile other ≠ libFile lib → Holds host plan dir disk.tree other →
        Holds host plan dir disk'.tree other) ∧
      result'.extractedLibs = result.extractedLibs ++ [(libPath dir lib).string] ∧
      result'.soPath =
        if lib.name = plan.selected.name then libPath dir lib else result.soPath := by
  rw [extractLib] at h
  dsimp only at h
  obtain ⟨data, disk₀, hdata, hrest⟩ := exec_bind_ok_iff.mp h
  obtain ⟨hentry, rfl⟩ := exec_lift_ok_iff.mp hdata
  obtain ⟨u, disk₁, hwrite, hreturn⟩ := exec_bind_ok_iff.mp hrest
  obtain ⟨loc, hw, htarget, htree⟩ := writeOut_ok hwrite
  cases hreturn
  obtain rfl := target_libPath hdir hlib htarget
  refine ⟨⟨data, hentry, ?_, ?_⟩, fun other hother hholds => ?_, rfl, rfl⟩
  · rw [htree]
    exact locate_of_target htarget hw
  · rw [htree, writeFile_self]
  · rw [htree]
    refine hholds.mono (writeFile_keepsDirs hw) (writeFile_of_ne hw fun hsame => hother ?_)
    have hnames := List.append_cancel_left hsame
    simp only [List.cons.injEq, and_true, true_and] at hnames
    exact hnames

/-- **The loop over the libraries**, when no two have one file name. -/
theorem extractLibs_ok {result result' : ApkLaunchResult} (hdir : dir.Clean)
    (hlibs : ∀ lib ∈ plan.libs, isArm64Lib lib) (hnodup : (plan.libs.map libFile).Nodup)
    (hnone : result.extractedLibs = [])
    (h : exec (plan.libs.foldlM (extractLib host plan dir) result) disk = (.ok result', disk')) :
    (∀ lib ∈ plan.libs, Holds host plan dir disk'.tree lib) ∧
      result'.extractedLibs = plan.libs.map (fun lib => (libPath dir lib).string) ∧
      (plan.selected ∈ plan.libs → result'.soPath = libPath dir plan.selected) := by
  let J (before : List ZipEntry) (result : ApkLaunchResult) (disk : Disk) : Prop :=
    (∀ lib ∈ before, Holds host plan dir disk.tree lib) ∧
      result.extractedLibs = before.map (fun lib => (libPath dir lib).string) ∧
      (plan.selected ∈ before → result.soPath = libPath dir plan.selected)
  have hstart : J [] result disk :=
    ⟨fun _ hmem => absurd hmem List.not_mem_nil, hnone, fun hmem => absurd hmem List.not_mem_nil⟩
  refine foldlM_ok (J := J) ?_ hstart h
  intro before lib after result disk result' disk' hitems hJ hturn
  obtain ⟨hholds, hnames, hso⟩ := hJ
  have hlib : isArm64Lib lib := by
    refine hlibs lib ?_
    rw [hitems]
    exact List.mem_append_right _ List.mem_cons_self
  obtain ⟨hself, hothers, hnames', hso'⟩ := extractLib_ok hdir hlib hturn
  refine ⟨fun other hother => ?_, ?_, fun hselected => ?_⟩
  · rcases List.mem_append.mp hother with hold | hnew
    · -- an earlier library has another file name
      refine hothers other ?_ (hholds other hold)
      rw [hitems, List.map_append, List.nodup_append] at hnodup
      exact hnodup.2.2 _ (List.mem_map_of_mem hold) _ (List.mem_map_of_mem List.mem_cons_self)
    · rw [List.mem_singleton.mp hnew]
      exact hself
  · rw [hnames', hnames, List.map_append, List.map_singleton]
  · rw [hso']
    split
    · next hname => rw [libPath, hname, ← libPath]
    · next hname =>
      rcases List.mem_append.mp hselected with hold | hnew
      · exact hso hold
      · rw [List.mem_singleton.mp hnew] at hname
        exact absurd rfl hname

/-- One asset leaves the libraries, and the result's account of them, as
they were. -/
theorem extractAsset_ok {result result' : ApkLaunchResult} (hdir : dir.Clean)
    (hasset : isAssetEntry asset)
    (h : exec (extractAsset host plan dir result asset) disk = (.ok result', disk')) :
    (∀ lib, Holds host plan dir disk.tree lib → Holds host plan dir disk'.tree lib) ∧
      result'.extractedLibs = result.extractedLibs ∧ result'.soPath = result.soPath := by
  rw [extractAsset] at h
  dsimp only at h
  obtain ⟨data, disk₀, hdata, hrest⟩ := exec_bind_ok_iff.mp h
  obtain ⟨-, rfl⟩ := exec_lift_ok_iff.mp hdata
  obtain ⟨u, disk₁, hmake, hrest⟩ := exec_bind_ok_iff.mp hrest
  obtain ⟨u', disk₂, hwrite, hreturn⟩ := exec_bind_ok_iff.mp hrest
  obtain ⟨loc, hw, htarget, htree⟩ := writeOut_ok hwrite
  cases hreturn
  have hkept := createDirectories_keeps host disk₀.tree (assetPath dir asset).parent disk₀
    fun _ _ => rfl
  rw [hmake] at hkept
  refine ⟨fun lib hholds => ?_, rfl, rfl⟩
  have hmade : Holds host plan dir disk₁.tree lib := by
    refine hholds.mono (fun l hl => ?_) ?_
    · rw [hkept l (by rw [hl]; exact Option.some_ne_none _), hl]
    · obtain ⟨data, -, -, hfile⟩ := hholds
      exact hkept _ (by rw [hfile]; exact Option.some_ne_none _)
  rw [htree]
  exact hmade.mono (writeFile_keepsDirs hw)
    (writeFile_of_ne hw (target_assetPath_ne hdir hasset htarget lib).symm)

theorem extractAssets_ok {result result' : ApkLaunchResult} (hdir : dir.Clean)
    (hassets : ∀ asset ∈ plan.assets, isAssetEntry asset)
    (h : exec (plan.assets.foldlM (extractAsset host plan dir) result) disk =
      (.ok result', disk')) :
    (∀ lib, Holds host plan dir disk.tree lib → Holds host plan dir disk'.tree lib) ∧
      result'.extractedLibs = result.extractedLibs ∧ result'.soPath = result.soPath := by
  let J (_ : List ZipEntry) (result₁ : ApkLaunchResult) (disk₁ : Disk) : Prop :=
    (∀ lib, Holds host plan dir disk.tree lib → Holds host plan dir disk₁.tree lib) ∧
      result₁.extractedLibs = result.extractedLibs ∧ result₁.soPath = result.soPath
  have hstart : J [] result disk := ⟨fun _ hholds => hholds, rfl, rfl⟩
  refine foldlM_ok (J := J) ?_ hstart h
  intro before asset after result₁ disk₁ result₂ disk₂ hitems hJ hturn
  have hasset : isAssetEntry asset := by
    refine hassets asset ?_
    rw [hitems]
    exact List.mem_append_right _ List.mem_cons_self
  obtain ⟨hholds, hnames, hso⟩ := extractAsset_ok hdir hasset hturn
  exact ⟨fun lib hlib => hholds lib (hJ.1 lib hlib), hnames.trans hJ.2.1, hso.trans hJ.2.2⟩

/-! ## The launch -/

/-- The selected library is one of them. -/
theorem selectLib_mem {requested manifestLib : Option Bytes} {libs : List ZipEntry}
    (h : selectLib requested manifestLib libs = .ok lib) : lib ∈ libs := by
  unfold selectLib at h
  dsimp only at h
  split at h
  · split at h
    · next hfound =>
      cases h
      exact List.mem_of_find?_eq_some hfound
    · cases h
  · split at h
    · next hfound =>
      cases h
      split at hfound
      · exact List.mem_of_find?_eq_some hfound
      · split at hfound
        · exact List.mem_of_head? hfound
        · exact List.mem_of_find?_eq_some hfound
    · cases h

/-- Where the file names differ, a launch that returned has every library
at its place. -/
theorem extractPlan_ok {result : ApkLaunchResult}
    (hplan : planLaunch host config = .ok plan) (hnodup : (plan.libs.map libFile).Nodup)
    (h : exec (extractPlan host config plan) disk = (.ok result, disk')) :
    (∀ lib ∈ plan.libs, Holds host plan (extractDir host config) disk'.tree lib) ∧
      result.extractedLibs =
        plan.libs.map (fun lib => (libPath (extractDir host config) lib).string) ∧
      result.soPath = libPath (extractDir host config) plan.selected := by
  have hdir := extractDir_clean host config
  obtain ⟨-, -, -, -, hselected⟩ := planLaunch_ok hplan
  rw [extractPlan] at h
  obtain ⟨_, disk₁, -, h⟩ := exec_bind_ok_iff.mp h
  obtain ⟨_, disk₂, -, h⟩ := exec_bind_ok_iff.mp h
  obtain ⟨withLibs, disk₃, hlibs, h⟩ := exec_bind_ok_iff.mp h
  obtain ⟨last, disk₄, hassets, h⟩ := exec_bind_ok_iff.mp h
  obtain ⟨hholds, hnames, hso⟩ := extractLibs_ok hdir (plan_libs hplan) hnodup rfl hlibs
  obtain ⟨hkept, hnames', hso'⟩ := extractAssets_ok hdir (plan_assets hplan) hassets
  split at h
  · cases h
  · cases h
    exact ⟨fun lib hlib => hkept lib (hholds lib hlib), hnames'.trans hnames,
      hso'.trans (hso (selectLib_mem hselected))⟩

/-- Entries of one file name share their file. -/
theorem locate_libPath_congr {other : ZipEntry} (t : FileTree) (hdir : dir.Clean)
    (hlib : isArm64Lib lib) (hother : isArm64Lib other) (hfile : libFile lib = libFile other) :
    host.locate t (libPath dir lib) = host.locate t (libPath dir other) := by
  have hrooted : (libPath dir lib).rooted = (libPath dir other).rooted := by
    rw [libPath_eq dir hlib, libPath_eq dir hother]
  rw [Host.locate, Host.locate, seen_libPath hdir hlib, seen_libPath hdir hother, hfile, hrooted]

/-- **The libraries keep their identity exactly where no two have one file
name**, in every launch that returns. -/
theorem libraries_kept_iff {result : ApkLaunchResult}
    (hplan : planLaunch host config = .ok plan)
    (hrun : exec (prepareApkLaunch host config) disk = (.ok result, disk')) :
    LibrariesKept host plan (extractDir host config) result disk'.tree ↔
      (plan.libs.map libFile).Nodup := by
  have hdir := extractDir_clean host config
  have hlibs := plan_libs hplan
  rw [prepareApkLaunch, exec_bind, exec_lift, hplan] at hrun
  constructor
  · intro hkept
    rw [List.Nodup, List.pairwise_map]
    refine hkept.apart.imp_of_mem fun {a b} ha hb hne hfile => hne ?_
    exact locate_libPath_congr disk'.tree hdir (hlibs a ha) (hlibs b hb) hfile
  · intro hnodup
    obtain ⟨hholds, hnames, hso⟩ := extractPlan_ok hplan hnodup hrun
    obtain ⟨-, -, -, -, hselected⟩ := planLaunch_ok hplan
    refine ⟨?_, fun path hpath => ?_, ?_⟩
    · rw [hso]
      exact (hholds _ (selectLib_mem hselected)).fileAt
    · rw [hnames] at hpath
      obtain ⟨lib, hlib, rfl⟩ := List.mem_map.mp hpath
      obtain ⟨data, hdata, hfile⟩ := (hholds lib hlib).fileAt
      exact ⟨lib, hlib, data, rfl, hdata, hfile⟩
    · rw [List.Nodup, List.pairwise_map] at hnodup
      refine hnodup.imp_of_mem fun {a b} ha hb hne hsame => hne ?_
      obtain ⟨-, -, ha, -⟩ := hholds a ha
      obtain ⟨-, -, hb, -⟩ := hholds b hb
      rw [ha, hb] at hsame
      have hfiles := List.append_cancel_left (Option.some.inj hsame)
      simp only [List.cons.injEq, and_true, true_and] at hfiles
      exact hfiles

/-- A launch from an archive of one library keeps it. -/
theorem libraries_kept_one : ∃ plan result disk',
    planLaunch (.holding oneLibrary) toOutX = .ok plan ∧
      exec (prepareApkLaunch (.holding oneLibrary) toOutX) ⟨.empty, []⟩ = (.ok result, disk') ∧
      LibrariesKept (.holding oneLibrary) plan (extractDir (.holding oneLibrary) toOutX) result
        disk'.tree := by
  have hone : (match planLaunch (.holding oneLibrary) toOutX with
      | .ok plan => decide (plan.libs.map libFile = [ascii "libx.so"])
      | .error _ => false) = true := by decide +kernel
  have hreturns : (exec (prepareApkLaunch (.holding oneLibrary) toOutX) ⟨.empty, []⟩).1.isOk =
      true := by decide +kernel
  rcases hplan : planLaunch (.holding oneLibrary) toOutX with _ | plan
  · rw [hplan] at hone
    cases hone
  · rcases hrun : exec (prepareApkLaunch (.holding oneLibrary) toOutX) ⟨.empty, []⟩ with
      ⟨_ | result, disk'⟩
    · rw [hrun] at hreturns
      cases hreturns
    · rw [hplan] at hone
      refine ⟨plan, result, disk', rfl, rfl, (libraries_kept_iff hplan hrun).mpr ?_⟩
      rw [of_decide_eq_true hone]
      decide

/-- An archive of a library in a directory of its own and another of the
same name. -/
def twoLibraries : Bytes :=
  layout [.plain (ascii "lib/arm64-v8a/a/libx.so") (ascii "1") (by decide),
    .plain (ascii "lib/arm64-v8a/libx.so") (ascii "2") libraryName_lt] []

/-- **The selected library is overwritten**: the launch selects the first
of the two, and its file holds the second. -/
theorem selected_library_overwritten :
    ¬∀ (host : Host) (config : ApkLaunchConfig) (plan : LaunchPlan) (disk disk' : Disk)
      (result : ApkLaunchResult), planLaunch host config = .ok plan →
        exec (prepareApkLaunch host config) disk = (.ok result, disk') →
          LibrariesKept host plan (extractDir host config) result disk'.tree := by
  intro h
  let host : Host := .holding twoLibraries
  let config : ApkLaunchConfig := { toOutX with libName := some (ascii "x") }
  have hselected : (match planLaunch host config with
      | .ok plan => decide (extractEntryData host.inflate plan.apk plan.selected = .ok (ascii "1"))
      | .error _ => false) = true := by decide +kernel
  have hwritten : (match exec (prepareApkLaunch host config) ⟨.empty, []⟩ with
      | (.ok result, disk') => decide (host.fileAt disk'.tree result.soPath = some (ascii "2"))
      | (.error _, _) => false) = true := by decide +kernel
  rcases hplan : planLaunch host config with _ | plan
  · rw [hplan] at hselected
    cases hselected
  · rcases hrun : exec (prepareApkLaunch host config) ⟨.empty, []⟩ with ⟨_ | result, disk'⟩
    · rw [hrun] at hwritten
      cases hwritten
    · rw [hplan] at hselected
      rw [hrun] at hwritten
      obtain ⟨data, hdata, hfile⟩ := (h host config plan _ _ result hplan hrun).main
      rw [of_decide_eq_true hselected] at hdata
      rw [of_decide_eq_true hwritten] at hfile
      cases hdata
      exact absurd hfile (by decide)

end Apk

end Muplar
