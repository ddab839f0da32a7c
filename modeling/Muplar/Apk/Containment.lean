import Muplar.Apk.Extraction
/-!
# APK — extraction stays in its directory

A library's file has a last name of the archive for its name, and an
asset's file has all of them. Neither has a dot-dot the system would
follow: `safe_zip_path` lets none through, and one that a zero byte cuts
free is the last name the system sees, where no file can be opened and
nothing has to be created.

The extraction directory itself may be missing, and then the directories
on the way to it are created first. These are the only effects outside
(`effects_contained`).
-/

namespace Muplar

namespace Apk

open Act Muplar.Path

/-! ## Names of entries -/

section Names

variable {dir : Path} {lib asset : ZipEntry}

theorem ofString_of_not_mem {s : Bytes} (hne : s ≠ []) (h : slash ∉ s) :
    ofString s = ⟨false, [s]⟩ := by
  have hhead : s.head? ≠ some slash := fun hhead => h (List.mem_of_mem_head? hhead)
  have hlast : s.getLast? ≠ some slash := fun hlast => h (List.mem_of_getLast? hlast)
  have hparts : (s.splitOn slash).filter (· ≠ []) = [s] := by
    rw [List.splitOn_eq_singleton h]
    exact List.filter_cons_of_pos (decide_eq_true hne)
  rw [ofString, hparts]
  simp [hhead, hlast]

theorem mem_filenameFromZipPath (path : Bytes) :
    filenameFromZipPath path ∈ path.splitOn slash := by
  rw [filenameFromZipPath, List.getLastD_eq_getLast?,
    List.getLast?_eq_some_getLast (List.splitOn_ne_nil slash path)]
  exact List.getLast_mem _

theorem slash_not_mem_filename (path : Bytes) : slash ∉ filenameFromZipPath path :=
  not_mem_of_splitOn (mem_filenameFromZipPath path)

/-- Behind the last slash a text ends as the whole does. -/
theorem getLast?_filename {path : Bytes} {b : UInt8} (hlast : path.getLast? = some b)
    (hb : b ≠ slash) : (filenameFromZipPath path).getLast? = some b := by
  have hsplit : path.splitOn slash =
      (path.splitOn slash).dropLast ++ [filenameFromZipPath path] := by
    rw [filenameFromZipPath, List.getLastD_eq_getLast?,
      List.getLast?_eq_some_getLast (List.splitOn_ne_nil slash path), Option.getD_some,
      List.dropLast_concat_getLast]
  have htext : [slash].intercalate (path.splitOn slash) = path := List.intercalate_splitOn slash
  rw [hsplit, intercalate_concat] at htext
  by_cases hempty : filenameFromZipPath path = []
  · -- every part but the last is followed by a slash
    rw [hempty, List.append_nil] at htext
    rcases List.eq_nil_or_concat (path.splitOn slash).dropLast with hnil | ⟨init, part, hinit⟩
    · rw [hnil, List.flatMap_nil] at htext
      rw [← htext] at hlast
      cases hlast
    · rw [hinit, List.concat_eq_append, List.flatMap_append, List.flatMap_singleton,
        ← List.append_assoc] at htext
      rw [← htext, List.getLast?_concat] at hlast
      exact absurd (Option.some.inj hlast).symm hb
  · rwa [← htext, List.getLast?_append_of_ne_nil _ hempty] at hlast

theorem getLast?_of_endsWith {value front : Bytes} {b : UInt8}
    (h : endsWith value (front ++ [b])) : value.getLast? = some b := by
  rw [endsWith, List.isSuffixOf_iff_suffix] at h
  obtain ⟨before, rfl⟩ := h
  rw [← List.append_assoc, List.getLast?_concat]

/-- A library's name ends in `so`, and so does what is behind its last
slash. -/
theorem getLast?_lib_filename (h : isArm64Lib lib) :
    (filenameFromZipPath lib.name).getLast? = some 111 := by
  rw [isArm64Lib, decide_eq_true_eq] at h
  have hends : endsWith lib.name (ascii ".s" ++ [111]) := h.2
  exact getLast?_filename (getLast?_of_endsWith hends) (by decide)

theorem lib_filename_ne_nil (h : isArm64Lib lib) : filenameFromZipPath lib.name ≠ [] := by
  intro hnil
  have hlast := getLast?_lib_filename h
  rw [hnil] at hlast
  cases hlast

/-- The names below the extraction directory that lead to a library. -/
def libNames (lib : ZipEntry) : List Bytes :=
  [ascii "lib", ascii "arm64-v8a", filenameFromZipPath lib.name]

theorem dotDot_not_mem_libNames (h : isArm64Lib lib) : dotDot ∉ libNames lib := by
  have hfile : dotDot ≠ filenameFromZipPath lib.name := by
    intro hup
    have hlast := getLast?_lib_filename h
    rw [← hup] at hlast
    exact absurd hlast (by decide)
  simp only [libNames, List.mem_cons, List.not_mem_nil, or_false, not_or]
  exact ⟨by decide, by decide, hfile⟩

/-- The parts of an asset's name. -/
theorem ofString_asset (h : isAssetEntry asset) :
    ∃ rest, ofString asset.name = ⟨false, ascii "assets" :: rest⟩ ∧
      dotDot ∉ ascii "assets" :: rest := by
  simp only [isAssetEntry, safeZipPath, decide_eq_true_eq, Bool.not_eq_true] at h
  obtain ⟨hstart, hend, -, hhead, -, -, hup⟩ := h
  rw [startsWith, List.isPrefixOf_iff_prefix] at hstart
  obtain ⟨rest, hname⟩ := hstart
  have hsplit : asset.name.splitOn slash = ascii "assets" :: rest.splitOn slash := by
    rw [← hname]
    exact List.splitOn_append_cons_self_of_not_mem
      (show slash ∉ ascii "assets" by decide) rest
  have hopen : asset.name.getLast? ≠ some slash := by
    intro hlast
    obtain ⟨before, hbefore⟩ := List.getLast?_eq_some_iff.mp hlast
    rw [endsWith, Bool.eq_false_iff, ne_eq, List.isSuffixOf_iff_suffix] at hend
    exact hend ⟨before, hbefore.symm⟩
  refine ⟨(rest.splitOn slash).filter (· ≠ []), ?_, ?_⟩
  · have hparts : (asset.name.splitOn slash).filter (· ≠ []) =
        ascii "assets" :: (rest.splitOn slash).filter (· ≠ []) := by
      rw [hsplit]
      exact List.filter_cons_of_pos (by decide)
    rw [ofString, hparts]
    simp [hhead, hopen]
  · rw [hsplit, List.mem_cons, not_or] at hup
    rw [List.mem_cons, not_or]
    exact ⟨hup.1, fun hmem => hup.2 (List.mem_of_mem_filter hmem)⟩

theorem join_eq {names : List Bytes} (hne : names ≠ []) :
    dir.join ⟨false, names⟩ = ⟨dir.rooted, closed dir.names ++ names⟩ := by
  rw [join, if_neg Bool.false_ne_true, if_neg hne]

theorem libDir_eq (dir : Path) :
    libDir dir = ⟨dir.rooted, closed dir.names ++ [ascii "lib", ascii "arm64-v8a"]⟩ := by
  rw [libDir, ofString_of_not_mem (by decide) (by decide),
    ofString_of_not_mem (by decide) (by decide), join_eq (List.cons_ne_nil _ _),
    join_eq (List.cons_ne_nil _ _)]
  have hopen : closed (closed dir.names ++ [ascii "lib"]) = closed dir.names ++ [ascii "lib"] := by
    rw [closed, if_neg (by rw [List.getLast?_concat]; decide)]
  rw [hopen, List.append_assoc, List.singleton_append]

theorem libPath_eq (dir : Path) (h : isArm64Lib lib) :
    libPath dir lib = ⟨dir.rooted, closed dir.names ++ libNames lib⟩ := by
  have hopen : closed (closed dir.names ++ [ascii "lib", ascii "arm64-v8a"]) =
      closed dir.names ++ [ascii "lib", ascii "arm64-v8a"] := by
    rw [closed, if_neg (by rw [List.getLast?_append_of_ne_nil _ (List.cons_ne_nil _ _)]; decide)]
  rw [libPath, ofString_of_not_mem (lib_filename_ne_nil h) (slash_not_mem_filename _),
    join_eq (List.cons_ne_nil _ _), libDir_eq, hopen, List.append_assoc]
  rfl

theorem assetPath_eq (dir : Path) (h : isAssetEntry asset) :
    ∃ rest, assetPath dir asset = ⟨dir.rooted, closed dir.names ++ ascii "assets" :: rest⟩ ∧
      dotDot ∉ ascii "assets" :: rest := by
  obtain ⟨rest, hname, hup⟩ := ofString_asset h
  exact ⟨rest, by rw [assetPath, hname, join_eq (List.cons_ne_nil _ _)], hup⟩

end Names

/-! ## The log -/

section Log

variable {Q : Effect → Prop} {host : Host} {disk : Disk}

/-- Every effect so far is one of these. -/
def Logged (Q : Effect → Prop) (disk : Disk) : Prop :=
  ∀ e ∈ disk.log, Q e

theorem Logged.push {e : Effect} (h : Logged Q disk) (he : Q e) (t : FileTree) :
    Logged Q ⟨t, disk.log ++ [e]⟩ := by
  intro e' hmem
  rcases List.mem_append.mp hmem with hold | hnew
  · exact h e' hold
  · rw [List.mem_singleton.mp hnew]
    exact he

/-- Only directories with plain names are made, each a part of the path. -/
theorem makeFrom_logged {rooted : Bool} {done names : List Bytes} (l : Location)
    (h : ∀ init name, init ++ [name] <+: names → Plain name →
      Q (.made ⟨rooted, done ++ (init ++ [name])⟩)) :
    Keeps (Logged Q) (makeFrom host rooted done l names) := by
  induction names generalizing done l with
  | nil => exact Keeps.pure ()
  | cons name names ih =>
    have hrest : ∀ l, Keeps (Logged Q) (makeFrom host rooted (done ++ [name]) l names) := by
      refine fun l => ih l fun init last hpre hplain => ?_
      have hmade := h (name :: init) last ((List.prefix_cons_inj name).mpr hpre) hplain
      rw [List.append_assoc]
      exact hmade
    rw [makeFrom]
    refine Keeps.get_bind fun disk hdisk => ?_
    dsimp only
    split
    · exact hrest _ disk hdisk
    · exact hdisk
    · split
      · next hmake =>
        have hmade := h [] name ((List.prefix_cons_inj name).mpr List.nil_prefix) hmake.1
        exact hrest _ _ (hdisk.push hmade _)
      · exact hdisk

theorem createDirectories_logged {p : Path}
    (h : ∀ init name, init ++ [name] <+: p.seen.names → Plain name →
      Q (.made ⟨p.rooted, init ++ [name]⟩)) :
    Keeps (Logged Q) (createDirectories host p) :=
  makeFrom_logged _ h

theorem target_eq_some_iff {t : FileTree} {p : Path} {loc : Location} :
    host.target t p = some loc ↔ ∃ init last l, p.seen.names = init ++ [last] ∧ Plain last ∧
      t.follow [] (host.start p.rooted) init = some l ∧ loc = l ++ [last] := by
  unfold Host.target
  rcases List.eq_nil_or_concat p.seen.names with hnil | ⟨init, last, hnames⟩
  · rw [hnil]
    constructor
    · intro h
      cases h
    · rintro ⟨init, last, l, h, -⟩
      exact absurd h.symm (List.append_ne_nil_of_right_ne_nil _ (List.cons_ne_nil _ _))
  · rw [hnames, List.concat_eq_append, List.getLast?_concat, List.dropLast_concat]
    dsimp only
    constructor
    · intro h
      split at h
      · next hplain =>
        obtain ⟨l, hl, rfl⟩ := Option.map_eq_some_iff.mp h
        exact ⟨init, last, l, rfl, hplain, hl, rfl⟩
      · cases h
    · rintro ⟨init', last', l, heq, hplain, hl, rfl⟩
      obtain ⟨rfl, hlast⟩ := List.append_inj' heq rfl
      obtain rfl := List.singleton_inj.mp hlast
      rw [if_pos hplain, hl]
      rfl

/-- Only a file with a plain name is written. -/
theorem writeOut_logged {p : Path} {data : Bytes} (message : String)
    (h : ∀ init last, p.seen.names = init ++ [last] → Plain last → Q (.written p.seen data)) :
    Keeps (Logged Q) (writeOut host p data message) := by
  refine Keeps.get_bind fun disk hdisk => ?_
  split
  · exact hdisk
  · next loc hloc =>
    obtain ⟨init, last, -, hnames, hplain, -⟩ := target_eq_some_iff.mp hloc
    split
    · exact hdisk.push (h init last hnames hplain) _
    · exact hdisk

end Log

/-! ## Containment -/

/-- What starts two texts put together ends in the first or reaches into
the second. -/
theorem prefix_append_cases {α : Type*} {l front back : List α} (h : l <+: front ++ back) :
    l <+: front ∨ ∃ more, l = front ++ more ∧ more <+: back := by
  rcases List.prefix_or_prefix_of_prefix h (List.prefix_append front back) with hl | ⟨more, rfl⟩
  · exact .inl hl
  · exact .inr ⟨more, rfl, List.prefix_self_append_iff.mp h⟩

section Containment

variable {host : Host} {config : ApkLaunchConfig} {dir : Path} {names : List Bytes}

/-- A directory on the way to `dir`, made as it is spelled there. -/
def OnTheWay (dir : Path) : Effect → Prop
  | .made path => path.rooted = dir.rooted ∧ path.names <+: dir.names
  | .written _ _ => False

/-- In the directory, or made on the way to it. -/
def Contained (dir : Path) (e : Effect) : Prop :=
  Inside dir e.path ∨ OnTheWay dir e

/-- What the system sees of a path in the directory. -/
theorem seen_below (hdir : dir.Clean) (names : List Bytes) :
    seen ⟨dir.rooted, closed dir.names ++ names⟩ =
      ⟨dir.rooted, closed dir.names ++ cutNames names⟩ := by
  rw [seen, cutNames_append hdir.closed]

theorem dotDot_not_mem_of_plain {init : List Bytes} {last : Bytes}
    (hup : dotDot ∉ names) (hcut : init ++ [last] <+: cutNames names) (hplain : Plain last) :
    dotDot ∉ init ++ [last] := by
  have hinit : init <+: (cutNames names).dropLast := by
    refine List.prefix_of_prefix_length_le ((List.prefix_append init [last]).trans hcut)
      (List.dropLast_prefix _) ?_
    have hlen := hcut.length_le
    rw [List.length_append, List.length_singleton] at hlen
    rw [List.length_dropLast]
    omega
  rw [List.mem_append, List.mem_singleton, not_or]
  exact ⟨fun hmem => not_mem_cutNames_dropLast hup (hinit.subset hmem), hplain.2.2.symm⟩

theorem createDirectories_contained (hdir : dir.Clean) (hup : dotDot ∉ names) :
    Keeps (Logged (Contained dir))
      (createDirectories host ⟨dir.rooted, closed dir.names ++ names⟩) := by
  refine createDirectories_logged fun init name hpre hplain => ?_
  rw [seen_below hdir] at hpre
  rcases prefix_append_cases hpre with habove | ⟨more, heq, hmore⟩
  · exact .inr ⟨rfl, habove.trans (closed_isPrefix dir.names)⟩
  · left
    rcases List.eq_nil_or_concat more with rfl | ⟨below, last, rfl⟩
    · rw [Effect.path, heq]
      exact inside_of_not_mem List.not_mem_nil
    · rw [List.concat_eq_append] at heq hmore
      rw [← List.append_assoc] at heq
      obtain ⟨-, hlast⟩ := List.append_inj' heq rfl
      rw [← List.singleton_inj.mp hlast] at heq hmore
      rw [Effect.path, heq, List.append_assoc]
      exact inside_of_not_mem (dotDot_not_mem_of_plain hup hmore hplain)

theorem writeOut_contained {data : Bytes} (message : String) (hdir : dir.Clean)
    (hne : names ≠ []) (hup : dotDot ∉ names) :
    Keeps (Logged (Contained dir))
      (writeOut host ⟨dir.rooted, closed dir.names ++ names⟩ data message) := by
  refine writeOut_logged message fun init last hnames hplain => .inl ?_
  rw [seen_below hdir] at hnames ⊢
  rw [Effect.path]
  rcases List.eq_nil_or_concat (cutNames names) with hnil | ⟨below, last', hcut⟩
  · exact absurd hnil (cutNames_ne_nil hne)
  · rw [List.concat_eq_append] at hcut
    simp only [hcut, ← List.append_assoc] at hnames
    obtain ⟨-, hlast⟩ := List.append_inj' hnames rfl
    rw [List.singleton_inj.mp hlast] at hcut
    rw [hcut]
    exact inside_of_not_mem
      (dotDot_not_mem_of_plain hup (by rw [hcut]) hplain)

/-! ### What is given is clean -/

theorem sanitizePathComponent_clean (value : Bytes) : 0 ∉ sanitizePathComponent value := by
  unfold sanitizePathComponent
  split
  · decide
  · intro hzero
    obtain ⟨c, -, hc⟩ := List.mem_map.mp hzero
    split at hc
    · next hkept =>
      rw [hc] at hkept
      exact absurd hkept (by decide)
    · exact absurd hc (by decide)

theorem extractDir_clean (host : Host) (config : ApkLaunchConfig) :
    (extractDir host config).Clean := by
  have hdir (path : Path) :
      0 ∉ sanitizePathComponent path.stem ++ ascii "-" ++ host.seedHash path := by
    rw [List.mem_append, List.mem_append, not_or, not_or]
    exact ⟨⟨sanitizePathComponent_clean _, by decide⟩, host.seedHash_clean path⟩
  unfold extractDir
  split
  · unfold defaultExtractDir
    refine Clean.join ?_ (Clean.ofString (hdir _))
    split
    · have hbuild : (ofString (ascii "build")).Clean := Clean.ofString (by decide)
      have hapk : (ofString (ascii "apk")).Clean := Clean.ofString (by decide)
      exact (host.currentPath.clean.join hbuild).join hapk
    · exact config.outputBaseDir.clean
  · exact config.outputDir.clean

/-- The plan sorts the entries of the archive, and selects a library. -/
theorem planLaunch_ok {plan : LaunchPlan} (h : planLaunch host config = .ok plan) :
    ∃ entries, readZipEntries plan.apk = .ok entries ∧ plan.libs = entries.filter isArm64Lib ∧
      plan.assets = entries.filter (fun entry => ¬isArm64Lib entry ∧ isAssetEntry entry) ∧
      selectLib config.libName plan.classification.manifestLib plan.libs =
        .ok plan.selected := by
  unfold planLaunch at h
  split at h
  · cases h
  · obtain ⟨apk, -, h⟩ := except_bind_ok_iff.mp h
    obtain ⟨entries, hentries, h⟩ := except_bind_ok_iff.mp h
    obtain ⟨classification, -, h⟩ := except_bind_ok_iff.mp h
    dsimp only at h
    split at h
    · cases h
    · split at h
      · cases h
      · obtain ⟨selected, hselected, h⟩ := except_bind_ok_iff.mp h
        cases h
        exact ⟨entries, hentries, rfl, rfl, hselected⟩

theorem plan_libs {plan : LaunchPlan} (h : planLaunch host config = .ok plan) :
    ∀ lib ∈ plan.libs, isArm64Lib lib := by
  obtain ⟨entries, -, hlibs, -⟩ := planLaunch_ok h
  rw [hlibs]
  exact fun lib hlib => List.of_mem_filter hlib

theorem plan_assets {plan : LaunchPlan} (h : planLaunch host config = .ok plan) :
    ∀ asset ∈ plan.assets, isAssetEntry asset := by
  obtain ⟨entries, -, -, hassets, -⟩ := planLaunch_ok h
  rw [hassets]
  intro asset hasset
  have hkept := List.of_mem_filter hasset
  rw [decide_eq_true_eq] at hkept
  exact hkept.2

/-! ### The loops -/

theorem extractLib_contained (plan : LaunchPlan) (hdir : dir.Clean) {lib : ZipEntry}
    (hlib : isArm64Lib lib) (result : ApkLaunchResult) :
    Keeps (Logged (Contained dir)) (extractLib host plan dir result lib) := by
  refine (Keeps.lift _).bind fun bytes => Keeps.bind ?_ fun _ => Keeps.pure _
  rw [libPath_eq dir hlib]
  exact writeOut_contained _ hdir (List.cons_ne_nil _ _) (dotDot_not_mem_libNames hlib)

theorem extractAsset_contained (plan : LaunchPlan) (hdir : dir.Clean) {asset : ZipEntry}
    (hasset : isAssetEntry asset) (result : ApkLaunchResult) :
    Keeps (Logged (Contained dir)) (extractAsset host plan dir result asset) := by
  obtain ⟨rest, hpath, hup⟩ := assetPath_eq dir hasset
  have hparent : (assetPath dir asset).parent =
      ⟨dir.rooted, closed dir.names ++ (ascii "assets" :: rest).dropLast⟩ := by
    rw [hpath, parent, List.dropLast_append_of_ne_nil (List.cons_ne_nil _ _)]
  refine (Keeps.lift _).bind fun bytes => Keeps.bind ?_ fun _ => Keeps.bind ?_ fun _ => Keeps.pure _
  · rw [hparent]
    exact createDirectories_contained hdir fun hmem => hup (List.mem_of_mem_dropLast hmem)
  · rw [hpath]
    exact writeOut_contained _ hdir (List.cons_ne_nil _ _) hup

theorem extractPlan_contained {plan : LaunchPlan} (hplan : planLaunch host config = .ok plan) :
    Keeps (Logged (Contained (extractDir host config))) (extractPlan host config plan) := by
  have hdir := extractDir_clean host config
  have hassets : (extractDir host config).join (ofString (ascii "assets")) =
      ⟨(extractDir host config).rooted,
        closed (extractDir host config).names ++ [ascii "assets"]⟩ := by
    rw [ofString_of_not_mem (by decide) (by decide), join_eq (List.cons_ne_nil _ _)]
  refine Keeps.bind ?_ fun _ => Keeps.bind ?_ fun _ => Keeps.bind ?_ fun withLibs =>
    Keeps.bind ?_ fun result => ?_
  · rw [libDir_eq]
    exact createDirectories_contained hdir (by decide)
  · unfold createAssetsDir
    split
    · exact Keeps.pure _
    · rw [hassets]
      exact createDirectories_contained hdir (by decide)
  · exact Keeps.foldlM (fun lib hlib => extractLib_contained plan hdir (plan_libs hplan lib hlib)) _
  · exact Keeps.foldlM
      (fun asset hasset => extractAsset_contained plan hdir (plan_assets hplan asset hasset)) _
  · split
    · exact Keeps.throw _
    · exact Keeps.pure _

/-- **Everything is created and written inside the extraction directory**,
or is a directory on the way to it that was missing; also when the launch
is given up in the middle. -/
theorem effects_contained (host : Host) (config : ApkLaunchConfig) (t : FileTree) :
    Logged (Contained (extractDir host config))
      (exec (prepareApkLaunch host config) ⟨t, []⟩).2 := by
  have hstart : Logged (Contained (extractDir host config)) ⟨t, []⟩ :=
    fun _ hmem => absurd hmem List.not_mem_nil
  rw [prepareApkLaunch, exec_bind, exec_lift]
  rcases hplan : planLaunch host config with message | plan
  · exact hstart
  · exact extractPlan_contained hplan _ hstart

end Containment

/-! ## A missing parent -/

theorem no_bytes_lt : ([] : Bytes).length < 2 ^ 16 := by decide

theorem no_flags_lt : 0 < 2 ^ 16 := by decide

theorem plainVersions_length : ([20, 0, 20, 0] : Bytes).length = 4 := rfl

theorem plainStamp_length : (List.replicate 8 0 : Bytes).length = 8 := rfl

theorem plainFields_length : (List.replicate 22 0 : Bytes).length = 22 := rfl

theorem libraryName_lt : (ascii "lib/arm64-v8a/libx.so").length < 2 ^ 16 := by decide

/-- A stored member without extra fields. -/
def Member.plain (name data : Bytes) (h : name.length < 2 ^ 16) : Member where
  name := name
  extra := []
  comment := []
  localName := name
  localExtra := []
  data := data
  flags := 0
  versions := [20, 0, 20, 0]
  stamp := List.replicate 8 0
  attributes := List.replicate 8 0
  localFields := List.replicate 22 0
  trailer := []
  name_lt := h
  extra_lt := no_bytes_lt
  comment_lt := no_bytes_lt
  localName_lt := h
  localExtra_lt := no_bytes_lt
  flags_lt := no_flags_lt
  versions_length := plainVersions_length
  stamp_length := plainStamp_length
  attributes_length := plainStamp_length
  localFields_length := plainFields_length

/-- A host on which every APK is the given archive. -/
def Host.holding (apk : Bytes) : Host where
  inflate _ _ := none
  readFile _ := .ok apk
  inferManifestInfo _ _ := .error ""
  resolveResourceString _ _ := .ok none
  currentPath := ⟨⟨true, []⟩, by intro name hname; cases hname⟩
  cwd := []
  seedHash _ := []
  refuses _ := false
  seedHash_clean _ := List.not_mem_nil

/-- Extraction to `/out/x`. -/
def toOutX : ApkLaunchConfig where
  apkPath := ⟨⟨false, [ascii "a.apk"]⟩, by
    intro name hname
    rw [List.mem_singleton.mp hname]
    decide⟩
  libName := none
  outputBaseDir := ⟨⟨false, []⟩, by intro name hname; cases hname⟩
  outputDir := ⟨⟨true, [ascii "out", ascii "x"]⟩, by
    intro name hname
    simp only [List.mem_cons, List.not_mem_nil, or_false] at hname
    rcases hname with rfl | rfl <;> decide⟩

/-- An archive of one library. -/
def oneLibrary : Bytes :=
  layout [.plain (ascii "lib/arm64-v8a/libx.so") (ascii "x") libraryName_lt] []

/-- **A missing parent is created too**: on an empty disk `/out` is made,
which is not inside `/out/x`. -/
theorem missing_parent_created :
    ¬∀ (host : Host) (config : ApkLaunchConfig) (t : FileTree),
      Logged (fun e => Inside (extractDir host config) e.path)
        (exec (prepareApkLaunch host config) ⟨t, []⟩).2 := by
  intro h
  have hmade : Effect.made ⟨true, [ascii "out"]⟩ ∈
      (exec (prepareApkLaunch (.holding oneLibrary) toOutX) ⟨.empty, []⟩).2.log := by
    decide +kernel
  obtain ⟨-, rest, hwalk, -⟩ := h _ _ _ _ hmade
  have hlen := congrArg List.length hwalk
  rw [List.length_append] at hlen
  have hpath : (walk ⟨true, [ascii "out"]⟩).length = 1 := by decide
  have hdir : (extractDir (.holding oneLibrary) toOutX).walk.length = 2 := by decide
  rw [Effect.path, hpath, hdir] at hlen
  omega

end Apk

end Muplar
