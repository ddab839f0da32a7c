import Mathlib.Data.List.Find
import Muplar.Android.GuestPaths
import Muplar.Common.Scripts
/-!
# The Android runtime — launching scripts

Both runtimes that run a guest take a command apart before they start it:
as long as it is a script, its interpreter is looked for as the command
was, and takes the script's place in front of the arguments. They do so in
two copies of one loop, which differ in the directories they search.

The result is what a loader of scripts makes of the command
(`scripts_load`), on every file system: a file is whatever can be opened
under a path, so links are included.
-/

namespace Muplar

namespace Android

open Prefix Scripts

/-! ## Path rules -/

/-- The host as a launch finds it: which paths exist, what can be read from
those that can be opened, and the current directory. -/
structure LaunchHost where
  fileExists : Bytes → Bool
  content : Bytes → Option Bytes
  currentPath : Bytes

/-- What `resolve_path` depends on. -/
structure PathRules where
  host : LaunchHost
  sysroot : Bytes
  searchDirs : List Bytes
  baseDir : Bytes

namespace PathRules

variable (r : PathRules)

/-- The guest path of a host path that begins as the sysroot is spelled. -/
def stripSysroot (elfPath : Bytes) : Bytes :=
  if r.sysroot ≠ [] ∧ r.sysroot.isPrefixOf elfPath then
    rooted (elfPath.drop r.sysroot.length)
  else []

/-- A search directory below the sysroot. -/
def relDir (dir : Bytes) : Bytes :=
  if dir.head? = some Path.slash then dir.tail else dir

/-- `resolve_path`: the host path, and the guest path or nothing. -/
def resolvePath (inputPath : Bytes) : Bytes × Bytes :=
  if inputPath = [] then (inputPath, [])
  else if inputPath.head? = some Path.slash then
    let candidate := appendPath r.sysroot inputPath.tail
    if r.sysroot ≠ [] ∧ r.host.fileExists candidate then (candidate, inputPath)
    else (inputPath, [])
  else if Path.slash ∉ inputPath then
    match r.searchDirs.find? fun dir => r.sysroot ≠ [] ∧
        r.host.fileExists (appendPath (appendPath r.sysroot (relDir dir)) inputPath) with
    | some dir =>
      (appendPath (appendPath r.sysroot (relDir dir)) inputPath,
        rooted dir ++ Path.slash :: inputPath)
    | none => (inputPath, [])
  else
    let candidate := appendPath r.baseDir inputPath
    if r.host.fileExists candidate then (candidate, r.stripSysroot candidate)
    else (inputPath, [])

/-- `elf_path` and `guest_elf_path` for a command or an interpreter. -/
def setPaths (inputPath : Bytes) : Bytes × Bytes :=
  let (elfPath, guestElfPath) := r.resolvePath inputPath
  if guestElfPath ≠ [] then (elfPath, guestElfPath) else (elfPath, r.stripSysroot elfPath)

end PathRules

/-- What a file is called for the guest: its guest path, or the host's
where it has none. -/
def shownPath (paths : Bytes × Bytes) : Bytes :=
  if paths.2 = [] then paths.1 else paths.2

/-! ## The loop -/

/-- The first bytes of an ELF file. -/
def elfMagic : Bytes := 0x7f :: ascii "ELF"

/-- A blank, or a carriage return. -/
def isTrailing (b : UInt8) : Bool :=
  Launch.isBlank b || b = 13

/-- The interpreter and its argument, which may be empty, in the text
behind `#!`. -/
def splitLine (text : Bytes) : Option (Bytes × Bytes) :=
  let line := text.dropWhile Launch.isBlank
  if line = [] then none
  else
    let trimmed := line.rdropWhile isTrailing
    let line := if trimmed = [] then line else trimmed
    some (line.takeWhile fun b => !Launch.isBlank b,
      (line.dropWhile fun b => !Launch.isBlank b).tail.dropWhile Launch.isBlank)

/-- The interpreter of a script and its argument: 255 bytes are read, as a
string that a zero ends. A file of fewer than four bytes cannot be read
again after the test for an ELF file. -/
def readScript (content : Bytes) : Option (Bytes × Bytes) :=
  if content.length < 4 ∨ content.take 2 ≠ ascii "#!" then none
  else splitLine ((((content.take 255).drop 2).takeWhile (· ≠ 0)).takeWhile (· ≠ newline))

/-- `elf_path`, `guest_elf_path` and the arguments in the loop. -/
structure ScriptState where
  paths : Bytes × Bytes
  currentGuestArgs : List Bytes
  deriving DecidableEq

namespace PathRules

variable (r : PathRules)

/-- The loop, for at most so many scripts. -/
def loop : ℕ → ScriptState → ScriptState
  | 0, s => s
  | fuel + 1, s =>
    match r.host.content s.paths.1 with
    | none => s
    | some content =>
      if content.take 4 = elfMagic then s
      else
        match readScript content with
        | none => s
        | some (interp, interpArg) =>
          loop fuel
            { paths := r.setPaths interp
              currentGuestArgs :=
                (if interpArg ≠ [] then [interpArg] else []) ++
                  shownPath s.paths :: s.currentGuestArgs }

/-- The command and its arguments after the loop. -/
def scripts (inputPath : Bytes) (guestArgs : List Bytes) : ScriptState :=
  r.loop 5 { paths := r.setPaths inputPath, currentGuestArgs := guestArgs }

end PathRules

/-! ## The runtimes -/

/-- The active prefix of a launch. -/
structure LaunchPrefix where
  kind : PrefixKind
  arch : GuestArch
  rootfs : Bytes

/-- What a launch is given, and what it finds. -/
structure ScriptLaunch where
  host : LaunchHost
  sysroot : Bytes
  activePrefix : Option LaunchPrefix

namespace ScriptLaunch

variable (l : ScriptLaunch)

/-- `search_dirs` of the Linux runtime. -/
def linuxSearchDirs : List Bytes :=
  [ascii "/bin", ascii "/usr/bin", ascii "/sbin", ascii "/usr/sbin"]

/-- `search_dirs` of the Android runtime, by the kind of the prefix. -/
def searchDirsFor : Option PrefixKind → List Bytes
  | some .android => [ascii "/system/bin", ascii "/system/xbin", ascii "/bin"]
  | some .linux => [ascii "/bin", ascii "/usr/bin", ascii "/sbin", ascii "/usr/sbin"]
  | some .wine => [ascii "/bin", ascii "/usr/bin"]
  | none => [ascii "/bin", ascii "/usr/bin", ascii "/system/bin"]

/-- `search_dirs` of the Android runtime. -/
def androidSearchDirs : List Bytes :=
  searchDirsFor (l.activePrefix.map LaunchPrefix.kind)

/-- `base_dir` of the Linux runtime. -/
def linuxBaseDir : Bytes :=
  match l.activePrefix with
  | some p => appendPath (appendPath p.rootfs (ascii "home")) (ascii "muplar")
  | none => l.host.currentPath

/-- `base_dir` of the Android runtime. -/
def androidBaseDir : Bytes :=
  match l.activePrefix with
  | some p =>
    if p.kind = .android then appendPath p.rootfs (ascii "data/local/tmp")
    else appendPath p.rootfs (ascii "home/muplar")
  | none => l.host.currentPath

/-- The path rules of the Linux runtime. -/
def linuxRules : PathRules where
  host := l.host
  sysroot := l.sysroot
  searchDirs := linuxSearchDirs
  baseDir := l.linuxBaseDir

/-- The path rules of the Android runtime. -/
def androidRules : PathRules where
  host := l.host
  sysroot := l.sysroot
  searchDirs := l.androidSearchDirs
  baseDir := l.androidBaseDir

/-- The loop of the Linux runtime. -/
def linuxScripts (inputPath : Bytes) (guestArgs : List Bytes) : ScriptState :=
  l.linuxRules.scripts inputPath guestArgs

/-- The loop of the Android runtime. -/
def androidScripts (inputPath : Bytes) (guestArgs : List Bytes) : ScriptState :=
  l.androidRules.scripts inputPath guestArgs

/-- `LinuxAarch64Runtime::run` up to the start of the guest: its `elf_path`
and its `argv`. A prefix that is not for it is refused. -/
def linuxRun (inputPath : Bytes) (guestArgs : List Bytes) : Option (Bytes × List Bytes) :=
  if ∀ p ∈ l.activePrefix, p.kind = .linux ∧ p.arch = .aarch64 then
    let s := l.linuxScripts inputPath guestArgs
    some (s.paths.1, shownPath s.paths :: s.currentGuestArgs)
  else none

end ScriptLaunch

/-! ## What is asked -/

/-- The first line of a file, without the newline. -/
def FirstLine (content line : Bytes) : Prop :=
  newline ∉ line ∧ (content = line ∨ ∃ rest, content = line ++ newline :: rest)

/-- A script that names an interpreter and perhaps an argument: it has four
bytes, and a first line of fewer than 254 without a carriage return or a
zero. -/
structure IsScript (content interp : Bytes) (argument : Option Bytes) : Prop where
  length : 4 ≤ content.length
  line : ∃ text, FirstLine content (ascii "#!" ++ text) ∧ (ascii "#!" ++ text).length < 254 ∧
    13 ∉ text ∧ 0 ∉ text ∧ Names Launch.isBlank text interp argument

/-- What the file under a path is: an ELF file or a script. -/
def IsProgram (host : LaunchHost) (paths : Bytes × Bytes) (p : Program Bytes) : Prop :=
  ∃ content, host.content paths.1 = some content ∧
    match p with
    | .binary => content.take 4 = elfMagic
    | .script interp argument => IsScript content interp argument

namespace PathRules

variable (r : PathRules)

/-- **A command is loaded** over so many scripts to an ELF file, each file
called by the path under which the guest sees it. -/
def LoadsTo (n : ℕ) (inputPath : Bytes) (guestArgs : List Bytes) (final : Bytes × Bytes)
    (argv : List Bytes) : Prop :=
  Loads (IsProgram r.host) r.setPaths (fun interp => shownPath (r.setPaths interp)) n
    (r.setPaths inputPath) (shownPath (r.setPaths inputPath))
    (shownPath (r.setPaths inputPath) :: guestArgs) final argv

/-- An interpreter that the guest sees under the path that the script
writes: an absolute path that is there in the sysroot, or does not begin
as the sysroot does. -/
def SeenAsWritten (interp : Bytes) : Prop :=
  interp.head? = some Path.slash ∧
    (r.sysroot = [] ∨ r.host.fileExists (appendPath r.sysroot interp.tail) = true ∨
      ¬r.sysroot <+: interp)

/-- A command is loaded as Linux does it, where every interpreter is called
what the script calls it. -/
def LoadsToAsWritten (n : ℕ) (inputPath : Bytes) (guestArgs : List Bytes)
    (final : Bytes × Bytes) (argv : List Bytes) : Prop :=
  Loads (fun paths p => IsProgram r.host paths p ∧
      ∀ interp argument, p = .script interp argument → r.SeenAsWritten interp)
    r.setPaths id n (r.setPaths inputPath) (shownPath (r.setPaths inputPath))
    (shownPath (r.setPaths inputPath) :: guestArgs) final argv

end PathRules

/-! ## The line -/

section

variable {text interp content : Bytes} {argument : Option Bytes}

theorem isTrailing_of_blanks {tail : Bytes} (h : Blanks Launch.isBlank tail) :
    ∀ b ∈ tail, isTrailing b = true := fun b hb => by
  rw [isTrailing, h b hb, Bool.true_or]

/-- What does not end in a blank and has no carriage return keeps its
end. -/
theorem not_isTrailing_last {body : Bytes} (hbody : Trimmed Launch.isBlank body)
    (hcr : 13 ∉ body) : ∀ b ∈ body.getLast?, isTrailing b = false := fun b hb => by
  have hne : b ≠ 13 := by
    rintro rfl
    exact hcr (List.mem_of_mem_getLast? hb)
  rw [isTrailing, hbody.last b hb, Bool.false_or, decide_eq_false hne]

/-- What stands between the blanks. -/
theorem splitLine_trimmed {lead body tail : Bytes} (hlead : Blanks Launch.isBlank lead)
    (hbody : Trimmed Launch.isBlank body) (htail : Blanks Launch.isBlank tail)
    (hcr : 13 ∉ body) : splitLine (lead ++ (body ++ tail)) =
      some (body.takeWhile fun b => !Launch.isBlank b,
        (body.dropWhile fun b => !Launch.isBlank b).tail.dropWhile Launch.isBlank) := by
  have hdrop : (lead ++ (body ++ tail)).dropWhile Launch.isBlank = body ++ tail :=
    dropWhile_blanks hlead hbody.head_append
  have hrdrop : (body ++ tail).rdropWhile isTrailing = body :=
    rdropWhile_tail (isTrailing_of_blanks htail) (not_isTrailing_last hbody hcr)
  have hne : body ++ tail ≠ [] := List.append_ne_nil_of_left_ne_nil hbody.ne tail
  rw [splitLine]
  dsimp only
  rw [hdrop, hrdrop, if_neg hne, if_neg hbody.ne]

/-- **The line is split** as it names the interpreter and the argument. -/
theorem splitLine_eq (h : Names Launch.isBlank text interp argument) (hcr : 13 ∉ text) :
    splitLine text = some (interp, argument.getD []) := by
  cases h with
  | plain lead word tail hlead hword htail =>
    simp only [List.mem_append, not_or] at hcr
    have hnil := takeWhile_word hword [] nofun
    rw [List.append_nil] at hnil
    rw [splitLine_trimmed hlead hword.trimmed htail hcr.2.1, hnil.1, hnil.2]
    rfl
  | argument lead word gap arg tail hlead hword hgap hne harg htail =>
    have hbody : Trimmed Launch.isBlank (interp ++ gap ++ arg) := by
      refine ⟨by simp [harg.ne], ?_, fun a ha => harg.last a ?_⟩
      · rw [List.append_assoc]
        exact hword.trimmed.head_append
      · rwa [List.getLast?_append_of_ne_nil _ harg.ne] at ha
    simp only [List.mem_append, not_or] at hcr
    have hcr' : 13 ∉ interp ++ gap ++ arg := by simp [hcr]
    obtain ⟨b, gap, rfl⟩ := List.exists_cons_of_ne_nil hne
    have hblank : Launch.isBlank b = true := hgap b List.mem_cons_self
    have hword' := takeWhile_word hword (b :: gap ++ arg) fun a ha => by
      obtain rfl := Option.mem_some.mp ha
      exact hblank
    have hgap' : (gap ++ arg).dropWhile Launch.isBlank = arg :=
      dropWhile_blanks (fun a ha => hgap a (List.mem_cons_of_mem b ha)) harg.first
    rw [splitLine_trimmed hlead hbody htail hcr', List.append_assoc, hword'.1, hword'.2,
      List.cons_append, List.tail_cons, hgap']
    rfl

/-- A text that the bytes behind it end. -/
theorem takeWhile_text {more : Bytes} (hnewline : newline ∉ text) (hzero : 0 ∉ text)
    (hmore : ∀ b ∈ more.head?, b = newline) :
    ((text ++ more).takeWhile (· ≠ 0)).takeWhile (· ≠ newline) = text := by
  have hnz : ∀ b ∈ text, decide (b ≠ 0) = true := fun b hb => by
    rw [decide_eq_true_eq]
    rintro rfl
    exact hzero hb
  have hnn : ∀ b ∈ text, decide (b ≠ newline) = true := fun b hb => by
    rw [decide_eq_true_eq]
    rintro rfl
    exact hnewline hb
  rw [List.takeWhile_append_of_pos hnz, List.takeWhile_append_of_pos hnn]
  cases more with
  | nil => exact List.append_nil text
  | cons b more =>
    obtain rfl := hmore b rfl
    rw [List.takeWhile_cons_of_pos (by decide), List.takeWhile_cons_of_neg (by decide),
      List.append_nil]

/-- **A script is read** as its first line says. -/
theorem IsScript.readScript_eq (h : IsScript content interp argument) :
    readScript content = some (interp, argument.getD []) := by
  obtain ⟨text, ⟨hnewline, hcontent⟩, hlength, hcr, hzero, hnames⟩ := h.line
  obtain ⟨more, hmore, rfl⟩ : ∃ more : Bytes, (∀ b ∈ more.head?, b = newline) ∧
      content = ascii "#!" ++ (text ++ more) := by
    rcases hcontent with rfl | ⟨rest, rfl⟩
    · exact ⟨[], nofun, by rw [List.append_nil]⟩
    · exact ⟨newline :: rest, fun b hb => (Option.mem_some.mp hb).symm, List.append_assoc _ _ _⟩
  have hstart : (ascii "#!").length = 2 := by decide
  rw [List.length_append, hstart] at hlength
  have htake : (ascii "#!" ++ (text ++ more)).take 2 = ascii "#!" := List.take_left' hstart
  have htext : ((ascii "#!" ++ (text ++ more)).take 255).drop 2 =
      text ++ more.take (253 - text.length) := by
    rw [List.drop_take, List.drop_left' hstart, List.take_append, List.take_of_length_le (by omega)]
  have hmore' : ∀ b ∈ (more.take (253 - text.length)).head?, b = newline := by
    intro b hb
    refine hmore b ?_
    cases more with
    | nil => simp at hb
    | cons c more =>
      obtain ⟨k, hk⟩ : ∃ k, 253 - text.length = k + 1 := ⟨252 - text.length, by omega⟩
      rwa [hk, List.take_succ_cons] at hb
  rw [readScript, if_neg (by rw [not_or, not_not]; exact ⟨by have := h.length; omega, htake⟩),
    htext, takeWhile_text (fun hmem => hnewline (List.mem_append_right _ hmem)) hzero hmore']
  exact splitLine_eq hnames hcr

theorem IsScript.argument_ne (h : IsScript content interp argument) : ∀ a ∈ argument, a ≠ [] := by
  obtain ⟨text, -, -, -, -, hnames⟩ := h.line
  exact hnames.argument_ne

/-- A script is no ELF file. -/
theorem IsScript.take_ne_elfMagic (h : IsScript content interp argument) :
    content.take 4 ≠ elfMagic := by
  obtain ⟨text, ⟨-, hcontent⟩, -⟩ := h.line
  have hhead : content.head? = some 35 := by
    rcases hcontent with rfl | ⟨rest, rfl⟩ <;> rfl
  intro hmagic
  have hhead' : (content.take 4).head? = some 35 := by
    rw [List.head?_take, if_neg (by decide), hhead]
  rw [hmagic] at hhead'
  revert hhead'
  decide

end

/-! ## The chain -/

variable {r : PathRules}

/-- **The loop goes along the chain.** -/
theorem loop_of_loads {n : ℕ} {paths final : Bytes × Bytes} {name : Bytes}
    {argv argv' args : List Bytes}
    (h : Loads (IsProgram r.host) r.setPaths (fun interp => shownPath (r.setPaths interp)) n
      paths name argv final argv')
    (hname : name = shownPath paths) (hargv : argv = shownPath paths :: args) {fuel : ℕ}
    (hfuel : n ≤ fuel) : ∃ args', argv' = shownPath final :: args' ∧
      r.loop fuel { paths, currentGuestArgs := args } =
        { paths := final, currentGuestArgs := args' } := by
  induction h generalizing args fuel with
  | @binary paths name argv h =>
    refine ⟨args, hargv, ?_⟩
    obtain ⟨content, hcontent, hmagic⟩ := h
    cases fuel with
    | zero => rfl
    | succ fuel =>
      rw [PathRules.loop]
      dsimp only
      rw [hcontent]
      exact if_pos hmagic
  | @script n paths final name interp argument argv argv' h _ ih =>
    obtain ⟨content, hcontent, hscript⟩ := h
    obtain ⟨fuel, rfl⟩ : ∃ k, fuel = k + 1 := ⟨fuel - 1, by omega⟩
    subst hname hargv
    have hless : n ≤ fuel := by omega
    have hload : loadScript (shownPath paths) (shownPath (r.setPaths interp)) argument
        (shownPath paths :: args) = shownPath (r.setPaths interp) ::
          (argument.toList ++ shownPath paths :: args) := rfl
    obtain ⟨args', hargv', hloop⟩ := ih rfl hload hless
    refine ⟨args', hargv', ?_⟩
    rw [PathRules.loop]
    dsimp only
    rw [hcontent]
    dsimp only
    rw [if_neg hscript.take_ne_elfMagic, hscript.readScript_eq]
    dsimp only
    have hargs : (if argument.getD [] ≠ [] then [argument.getD []] else []) = argument.toList := by
      cases argument with
      | none => rfl
      | some arg => exact if_pos (hscript.argument_ne arg rfl)
    rw [← hloop, hargs]

/-- An interpreter that is seen as it is written. -/
theorem shownPath_setPaths {interp : Bytes} (h : r.SeenAsWritten interp) :
    shownPath (r.setPaths interp) = interp := by
  obtain ⟨hslash, hseen⟩ := h
  have hne : interp ≠ [] := by
    rintro rfl
    cases hslash
  rw [PathRules.setPaths, PathRules.resolvePath, if_neg hne, if_pos hslash]
  dsimp only
  by_cases hthere : r.sysroot ≠ [] ∧
      r.host.fileExists (appendPath r.sysroot interp.tail) = true
  · rw [if_pos hthere]
    dsimp only
    rw [if_pos hne]
    exact if_neg hne
  · have hstrip : r.stripSysroot interp = [] := by
      refine if_neg ?_
      rintro ⟨hroot, hprefix⟩
      rcases hseen with hnone | hexists | hno
      · exact hroot hnone
      · exact hthere ⟨hroot, hexists⟩
      · exact hno (List.isPrefixOf_iff_prefix.mp hprefix)
    rw [if_neg hthere]
    dsimp only
    rw [if_neg (not_not.mpr rfl), hstrip]
    exact if_pos rfl

/-- **A chain of at most five scripts** is what the loop comes to. -/
theorem scripts_of_loadsTo {n : ℕ} {inputPath : Bytes} {guestArgs argv : List Bytes}
    {final : Bytes × Bytes} (h : r.LoadsTo n inputPath guestArgs final argv) (hn : n ≤ 5) :
    (r.scripts inputPath guestArgs).paths = final ∧
      argv = shownPath final :: (r.scripts inputPath guestArgs).currentGuestArgs := by
  obtain ⟨args, hargv, hloop⟩ := loop_of_loads h rfl rfl hn
  rw [PathRules.scripts, hloop]
  exact ⟨rfl, hargv⟩

theorem loadsTo_of_asWritten {n : ℕ} {inputPath : Bytes} {guestArgs argv : List Bytes}
    {final : Bytes × Bytes} (h : r.LoadsToAsWritten n inputPath guestArgs final argv) :
    r.LoadsTo n inputPath guestArgs final argv :=
  Loads.mono h (fun _ _ hp => hp.1) fun _ interp argument hp =>
    (shownPath_setPaths (hp.2 interp argument rfl)).symm

/-! ## Both runtimes -/

/-- A directory is appended in one piece or in two. -/
theorem appendPath_home (rootfs : Bytes) :
    appendPath (appendPath rootfs (ascii "home")) (ascii "muplar") =
      appendPath rootfs (ascii "home/muplar") := by
  have hhome : (ascii "home").head? ≠ some Path.slash := by decide
  have hmuplar : (ascii "muplar").head? ≠ some Path.slash := by decide
  have hboth : (ascii "home/muplar").head? ≠ some Path.slash := by decide
  have hend : ∀ p : Bytes, ¬(p ++ ascii "home" = [] ∨
      (p ++ ascii "home").getLast? = some Path.slash) := by
    intro p
    have hne : ascii "home" ≠ [] := by decide
    rw [List.getLast?_append_of_ne_nil p hne]
    exact fun h => h.elim (List.append_ne_nil_of_right_ne_nil p hne) (by decide)
  have htext : ascii "home/muplar" = ascii "home" ++ Path.slash :: ascii "muplar" := by decide
  by_cases hp : rootfs = [] ∨ rootfs.getLast? = some Path.slash
  · rw [appendPath, if_neg hmuplar, appendPath, if_neg hhome, if_pos hp, if_neg (hend rootfs),
      appendPath, if_neg hboth, if_pos hp, htext, List.append_assoc]
  · have hjoin : rootfs ++ Path.slash :: ascii "home" =
        (rootfs ++ [Path.slash]) ++ ascii "home" := by
      rw [List.append_assoc, List.singleton_append]
    rw [appendPath, if_neg hmuplar, appendPath, if_neg hhome, if_neg hp, hjoin,
      if_neg (hend _), appendPath, if_neg hboth, if_neg hp, htext]
    simp only [List.append_assoc, List.cons_append, List.nil_append]

theorem kind_of_searchDirs {kind : Option PrefixKind}
    (h : ScriptLaunch.searchDirsFor kind = ScriptLaunch.linuxSearchDirs) : kind = some .linux := by
  rcases kind with _ | _ | _ | _
  · exact absurd h (by decide)
  · exact absurd h (by decide)
  · rfl
  · exact absurd h (by decide)

/-- With the search directories of the Linux runtime, the Android runtime
has its path rules: these are the directories for a Linux prefix. -/
theorem rules_eq_of_searchDirs {l : ScriptLaunch}
    (h : l.androidSearchDirs = ScriptLaunch.linuxSearchDirs) : l.androidRules = l.linuxRules := by
  obtain ⟨p, hp, hkind⟩ := Option.map_eq_some_iff.mp (kind_of_searchDirs h)
  have hbase : l.androidBaseDir = l.linuxBaseDir := by
    rw [ScriptLaunch.androidBaseDir, ScriptLaunch.linuxBaseDir, hp]
    dsimp only
    rw [hkind, if_neg (by decide), appendPath_home]
  rw [ScriptLaunch.androidRules, ScriptLaunch.linuxRules, h, hbase]

/-- **Every command** that is a chain of at most five scripts: the Linux
runtime makes of it what a loader of scripts makes of it, the interpreters
called by the paths under which the guest sees them, and called as they
are written where these are the same. The loop of the Android runtime
makes the same of it where it searches the same directories. -/
theorem scripts_load (l : ScriptLaunch) (inputPath : Bytes) (guestArgs : List Bytes)
    (hlinux : ∀ p ∈ l.activePrefix, p.kind = .linux ∧ p.arch = .aarch64) :
    (∀ n final argv, n ≤ 5 → l.linuxRules.LoadsTo n inputPath guestArgs final argv →
        l.linuxRun inputPath guestArgs = some (final.1, argv)) ∧
      (∀ n final argv, n ≤ 5 → l.linuxRules.LoadsToAsWritten n inputPath guestArgs final argv →
        l.linuxRun inputPath guestArgs = some (final.1, argv)) ∧
      (l.androidSearchDirs = ScriptLaunch.linuxSearchDirs →
        l.androidScripts inputPath guestArgs = l.linuxScripts inputPath guestArgs) := by
  have hloads : ∀ n final argv, n ≤ 5 → l.linuxRules.LoadsTo n inputPath guestArgs final argv →
      l.linuxRun inputPath guestArgs = some (final.1, argv) := by
    intro n final argv hn h
    obtain ⟨hpaths, hargv⟩ := scripts_of_loadsTo h hn
    rw [ScriptLaunch.linuxRun, if_pos hlinux, ScriptLaunch.linuxScripts]
    dsimp only
    rw [hpaths, ← hargv]
  refine ⟨hloads, fun n final argv hn h => hloads n final argv hn (loadsTo_of_asWritten h), ?_⟩
  intro hdirs
  rw [ScriptLaunch.androidScripts, rules_eq_of_searchDirs hdirs, ScriptLaunch.linuxScripts]

/-- A sysroot with a script, a script for its interpreter, and an ELF
file. -/
def scriptHost : LaunchHost where
  fileExists p := [ascii "/sys/bin/run", ascii "/sys/bin/tool", ascii "/sys/bin/sh"].contains p
  content p :=
    if p = ascii "/sys/bin/run" then some (ascii "#!/bin/tool -x  y \nrest")
    else if p = ascii "/sys/bin/tool" then some (ascii "#! sh\n")
    else if p = ascii "/sys/bin/sh" then some elfMagic
    else none
  currentPath := ascii "/"

def scriptLaunch : ScriptLaunch where
  host := scriptHost
  sysroot := ascii "/sys"
  activePrefix := none

theorem scripts_load_tool : scriptLaunch.linuxRun (ascii "run") [ascii "a"] =
    some (ascii "/sys/bin/sh", [ascii "/bin/sh", ascii "/bin/tool", ascii "-x  y",
      ascii "/bin/run", ascii "a"]) := by
  have hrun : IsScript (ascii "#!/bin/tool -x  y \nrest") (ascii "/bin/tool")
      (some (ascii "-x  y")) := by
    refine ⟨by decide, ascii "/bin/tool -x  y ", ⟨by decide, .inr ⟨ascii "rest", by decide⟩⟩,
      by decide, by decide, by decide, ?_⟩
    exact .argument [] (ascii "/bin/tool") (ascii " ") (ascii "-x  y") (ascii " ") (by decide)
      (by decide) (by decide) (by decide) (by decide) (by decide)
  have htool : IsScript (ascii "#! sh\n") (ascii "sh") none := by
    refine ⟨by decide, ascii " sh", ⟨by decide, .inr ⟨[], by decide⟩⟩, by decide, by decide,
      by decide, ?_⟩
    exact .plain (ascii " ") (ascii "sh") [] (by decide) (by decide) (by decide)
  exact (scripts_load scriptLaunch (ascii "run") [ascii "a"] nofun).1 2
    (ascii "/sys/bin/sh", ascii "/bin/sh") _ (by decide)
    (.script ⟨_, rfl, hrun⟩ (.script ⟨_, rfl, htool⟩ (.binary ⟨_, rfl, rfl⟩)))

end Android

end Muplar
