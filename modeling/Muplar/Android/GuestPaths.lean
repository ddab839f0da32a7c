import Mathlib.Data.List.DropRight
import Muplar.Common.Lines
import Muplar.Common.Resolve
import Muplar.Prefix.Config
/-!
# The Android runtime — guest paths

A guest has the sysroot as its root directory, so a file is given to it
under another path than the host's. The path is derived in three ways: a
path of the guest is looked for below the sysroot, a path of the host
loses the spelling of the sysroot at its front, and the files of the ART
plan lose the normal form of the sysroot.

None of the three looks at names. What is cut off may end in the middle of
a name, a dot-dot may have led out of the sysroot, and a sysroot spelled
with a separator at its end takes the first separator of the guest's path
along. The conditions below are when none of this happens; under them
every path that is derived denotes the file it was derived from
(`guest_paths_denote`).
-/

namespace Muplar

namespace Android

open FileTree Prefix

/-! ## Paths as strings -/

/-- `path / path`. -/
def appendPath (p q : Bytes) : Bytes :=
  if q.head? = some Path.slash then q
  else if p = [] ∨ p.getLast? = some Path.slash then p ++ q
  else p ++ Path.slash :: q

/-- A guest path without the sysroot; there is a separator in front of it
in any case. -/
def rooted (rest : Bytes) : Bytes :=
  if rest.head? = some Path.slash then rest else Path.slash :: rest

/-! ## A launch -/

/-- The two runtimes that resolve paths. -/
inductive GuestRuntime
  | androidAarch64
  | linuxAarch64
  deriving DecidableEq

/-- What a launch finds: the files, the current directory, the active
prefix and the sysroot as it is spelled. -/
structure Launch where
  runtime : GuestRuntime
  files : FileTree
  cwd : Location
  plain : ∀ name ∈ cwd, Path.Plain name ∧ Path.slash ∉ name
  cwd_dir : files.node cwd = some .dir
  activePrefix : Option (PrefixKind × Bytes)
  sysroot : Bytes

namespace Launch

variable (l : Launch)

/-- `std::filesystem::exists`. -/
def fileExists (path : Bytes) : Bool :=
  (l.files.resolve l.cwd path).isSome

/-- Where a command without a directory is looked for. -/
def searchDirs : List Bytes :=
  match l.runtime with
  | .linuxAarch64 => [ascii "/bin", ascii "/usr/bin", ascii "/sbin", ascii "/usr/sbin"]
  | .androidAarch64 =>
    match l.activePrefix with
    | some (.android, _) => [ascii "/system/bin", ascii "/system/xbin", ascii "/bin"]
    | some (.linux, _) => [ascii "/bin", ascii "/usr/bin", ascii "/sbin", ascii "/usr/sbin"]
    | some (.wine, _) => [ascii "/bin", ascii "/usr/bin"]
    | none => [ascii "/bin", ascii "/usr/bin", ascii "/system/bin"]

/-- `default_host_cwd`, else `current_path`. -/
def baseDir : Bytes :=
  match l.runtime, l.activePrefix with
  | .androidAarch64, some (.android, rootfs) => appendPath rootfs (ascii "data/local/tmp")
  | _, some (_, rootfs) => appendPath rootfs (ascii "home/muplar")
  | _, none => Path.slash :: [Path.slash].intercalate l.cwd

/-- The guest path of a host path that begins as the sysroot is spelled;
empty where it does not. -/
def stripSysroot (elfPath : Bytes) : Bytes :=
  if l.sysroot ≠ [] ∧ l.sysroot.isPrefixOf elfPath then
    rooted (elfPath.drop l.sysroot.length)
  else []

/-- `resolve_path`: the host path and the guest path, which is empty where
none is found. -/
def resolvePath (inputPath : Bytes) : Bytes × Bytes :=
  if inputPath = [] then (inputPath, [])
  else if inputPath.head? = some Path.slash then
    let candidate := appendPath l.sysroot inputPath.tail
    if l.sysroot ≠ [] ∧ l.fileExists candidate then (candidate, inputPath)
    else (inputPath, [])
  else if Path.slash ∉ inputPath then
    match l.searchDirs.find? fun dir => l.sysroot ≠ [] ∧
        l.fileExists (appendPath (appendPath l.sysroot dir.tail) inputPath) with
    | some dir =>
      (appendPath (appendPath l.sysroot dir.tail) inputPath, dir ++ Path.slash :: inputPath)
    | none => (inputPath, [])
  else
    let candidate := appendPath l.baseDir inputPath
    if l.fileExists candidate then (candidate, l.stripSysroot candidate)
    else (inputPath, [])

/-- What `run` sets `elf_path` and `guest_elf_path` to for a path. -/
def setPaths (inputPath : Bytes) : Bytes × Bytes :=
  let (elfPath, guestElfPath) := l.resolvePath inputPath
  if guestElfPath ≠ [] then (elfPath, guestElfPath) else (elfPath, l.stripSysroot elfPath)

/-! ## Scripts -/

def isBlank (b : UInt8) : Bool :=
  b = 32 || b = 9

/-- The interpreter a script names, if it is one: what `run` makes of the
first 255 bytes of a file. -/
def interpreter (content : Bytes) : Option Bytes :=
  if content.length < 4 ∨ content.take 2 ≠ ascii "#!" then none
  else
    let text := (((content.take 255).drop 2).takeWhile (· ≠ 0)).takeWhile (· ≠ newline)
    let line := text.dropWhile isBlank
    if line = [] then none
    else
      let trimmed := line.rdropWhile fun b => isBlank b || b = 13
      some ((if trimmed = [] then line else trimmed).takeWhile fun b => !isBlank b)

/-- The interpreter of the file a path denotes. -/
def scriptInterpreter (elfPath : Bytes) : Option Bytes :=
  match (l.files.resolve l.cwd elfPath).bind l.files.node with
  | some (.file content) => interpreter content
  | _ => none

/-- The interpreters one after the other, `fuel` at most. -/
def interpreters : (fuel : ℕ) → (elfPath : Bytes) → List Bytes
  | 0, _ => []
  | fuel + 1, elfPath =>
    match l.scriptInterpreter elfPath with
    | none => []
    | some interp => interp :: interpreters fuel (l.setPaths interp).1

/-- The paths `run` resolves: the input and the interpreters it leads to. -/
def resolvedPaths (inputPath : Bytes) : List Bytes :=
  inputPath :: l.interpreters 5 (l.setPaths inputPath).1

/-- **What `run` sets**, one pair after the other. -/
def run (inputPath : Bytes) : List (Bytes × Bytes) :=
  (l.resolvedPaths inputPath).map l.setPaths

/-! ## The plan -/

/-- `std::filesystem::absolute`. -/
def absolute (path : Bytes) : Path :=
  if path.head? = some Path.slash then Path.ofString path
  else (⟨true, l.cwd⟩ : Path).join (Path.ofString path)

/-- The text of the normal form. -/
def normalText (path : Bytes) : Bytes :=
  (l.absolute path).lexicallyNormal.string

/-- `guest_path_for`. -/
def guestPathFor (hostPath : Bytes) : Bytes :=
  let host := l.normalText hostPath
  let root := l.normalText l.sysroot
  if root ≠ [] ∧ root.isPrefixOf host then
    let guest := host.drop root.length
    if guest = [] then [Path.slash] else guest
  else host

/-! ## What is asked -/

/-- The directory the guest is given as root. -/
def root : Location :=
  (l.sysroot.splitOn Path.slash).foldl (enter []) (start l.cwd l.sysroot)

/-- **A guest path denotes its file**: it is absolute, and in the sysroot
it leads to the file the host path leads to. -/
def Denotes (elfPath guestPath : Bytes) : Prop :=
  ∀ file, l.files.resolve l.cwd elfPath = some file →
    guestPath.head? = some Path.slash ∧ l.files.resolveIn l.root guestPath = some file

/-- A pair that `run` sets; the guest path may be missing. -/
def Faithful (pair : Bytes × Bytes) : Prop :=
  pair.2 ≠ [] → l.Denotes pair.1 pair.2

/-- A path the plan maps, where it has a sysroot. A path from which
nothing is cut off is one of the host. -/
def Maps (hostPath : Bytes) : Prop :=
  l.sysroot ≠ [] → l.guestPathFor hostPath ≠ l.normalText hostPath →
    l.Denotes hostPath (l.guestPathFor hostPath)

/-! ## The conditions -/

/-- The sysroot is spelled with a separator at its end, or one follows, or
nothing does. -/
def Bounded (rest : Bytes) : Prop :=
  l.sysroot.getLast? = some Path.slash ∨ rest = [] ∨ rest.head? = some Path.slash

/-- What follows the sysroot never goes above it. -/
def Contained (rest : Bytes) : Prop :=
  l.root = [] ∨ Stays 0 (rest.splitOn Path.slash)

/-- A host path can lose the sysroot: if there is such a file, what is cut
off is all of the name of a directory, and what is left stays in it. -/
def Cut (elfPath : Bytes) : Prop :=
  l.sysroot ≠ [] → l.fileExists elfPath = true → ∀ rest, elfPath = l.sysroot ++ rest →
    l.Bounded rest ∧ l.files.node l.root = some .dir ∧ l.Contained rest

/-- A path is found below the sysroot, or is one of the host that can lose
the sysroot. -/
def Sound (path : Bytes) : Prop :=
  if path.head? = some Path.slash then
    if l.sysroot ≠ [] ∧ l.fileExists (appendPath l.sysroot path.tail) then
      l.root = [] ∨ path.tail.head? ≠ some Path.slash ∧ Stays 0 (path.splitOn Path.slash)
    else l.Cut path
  else if Path.slash ∉ path then
    (∀ dir ∈ l.searchDirs, ¬(l.sysroot ≠ [] ∧
      l.fileExists (appendPath (appendPath l.sysroot dir.tail) path))) → l.Cut path
  else if l.fileExists (appendPath l.baseDir path) then l.Cut (appendPath l.baseDir path)
  else l.Cut path

/-- The last name of the sysroot is a dot or a dot-dot, so what follows
it without a separator is another name that may lead back. -/
def EndsInDots : Prop :=
  (l.sysroot.splitOn Path.slash).getLast? = some Path.dot ∨
    (l.sysroot.splitOn Path.slash).getLast? = some Path.dotDot

/-- Where the plan's path is the file's: nothing follows the normal form
of the sysroot, or a separator does. -/
def Mapped (hostPath : Bytes) : Prop :=
  l.sysroot ≠ [] → l.fileExists hostPath = true →
    ∀ rest, l.normalText hostPath = l.normalText l.sysroot ++ rest →
      rest = [] ∧ l.files.node l.root = some .dir ∨ rest.head? = some Path.slash

/-! ## Names of paths -/

variable {l}
variable {path rest : Bytes} {file : Location}

theorem head_append {p q : Bytes} (h : p ≠ []) : (p ++ q).head? = p.head? := by
  obtain ⟨b, p, rfl⟩ := List.exists_cons_of_ne_nil h
  rfl

theorem start_append {cwd : Location} {p q : Bytes} (h : p ≠ []) :
    start cwd (p ++ q) = start cwd p := by
  rw [start, start, head_append h]

theorem splitOn_slash (p q : Bytes) :
    (p ++ Path.slash :: q).splitOn Path.slash = p.splitOn Path.slash ++ q.splitOn Path.slash :=
  List.splitOn_append_cons_self p q

theorem splitOn_rooted (p : Bytes) :
    (Path.slash :: p).splitOn Path.slash = [] :: p.splitOn Path.slash :=
  splitOn_slash [] p

theorem head_rooted (rest : Bytes) : (rooted rest).head? = some Path.slash := by
  rw [rooted]
  split
  · assumption
  · rfl

theorem resolve_eq (h : path ≠ []) :
    l.files.resolve l.cwd path =
      l.files.follow [] (start l.cwd path) (path.splitOn Path.slash) :=
  if_neg h

/-- What stands before the rest is the sysroot, and a directory if names
follow it. -/
theorem follow_rest {p : Bytes} (hroot : (p.splitOn Path.slash).foldl (enter [])
      (start l.cwd l.sysroot) = l.root) (hstart : start l.cwd (p ++ Path.slash :: rest) =
      start l.cwd l.sysroot)
    (h : l.files.resolve l.cwd (p ++ Path.slash :: rest) = some file) :
    l.files.follow [] l.root (rest.splitOn Path.slash) = some file ∧
      l.files.node l.root = some .dir := by
  rw [resolve_eq (by simp), splitOn_slash, hstart] at h
  obtain ⟨k, hk, hrest⟩ := follow_of_append h
  have heq := eq_of_follow hk
  rw [hroot] at heq
  rw [heq]
  exact ⟨hrest, dir_of_follow (List.splitOn_ne_nil _ _) hrest⟩

/-- **A path that begins with the sysroot**: there are names behind it,
and then it is a directory, or there are none. -/
theorem rest_cases (hsys : l.sysroot ≠ []) (hbound : l.Bounded rest)
    (h : l.files.resolve l.cwd (l.sysroot ++ rest) = some file) :
    (l.files.node l.root = some .dir ∧ ∃ names, names ≠ [] ∧
      (rooted rest).splitOn Path.slash = [] :: names ∧
      l.files.follow [] l.root names = some file ∧
      (Stays 0 (rest.splitOn Path.slash) ↔ Stays 0 names)) ∨
    (rest = [] ∧ l.sysroot.getLast? ≠ some Path.slash ∧ l.root = file) := by
  have hstart : start l.cwd (l.sysroot ++ rest) = start l.cwd l.sysroot := start_append hsys
  by_cases hslash : rest.head? = some Path.slash
  · -- a separator follows
    obtain ⟨r, rfl⟩ : ∃ r, rest = Path.slash :: r := List.head?_eq_some_iff.mp hslash
    obtain ⟨hfollow, hdir⟩ := follow_rest rfl hstart h
    rw [rooted, if_pos hslash]
    refine .inl ⟨hdir, _, List.splitOn_ne_nil _ _, splitOn_rooted r, hfollow, ?_⟩
    rw [splitOn_rooted, stays_here (.inl rfl)]
  · rw [rooted, if_neg hslash]
    by_cases hend : l.sysroot.getLast? = some Path.slash
    · -- the sysroot ends with one
      obtain ⟨p, hp⟩ : ∃ p, l.sysroot = p ++ [Path.slash] := List.getLast?_eq_some_iff.mp hend
      have hsplit : l.sysroot ++ rest = p ++ Path.slash :: rest := by
        rw [hp, List.append_assoc, List.singleton_append]
      have hroot : (p.splitOn Path.slash).foldl (enter []) (start l.cwd l.sysroot) = l.root := by
        rw [root]
        nth_rewrite 3 [hp]
        rw [splitOn_slash, List.foldl_append, List.splitOn_nil, List.foldl_cons, enter_empty,
          List.foldl_nil]
      rw [hsplit] at h hstart
      obtain ⟨hfollow, hdir⟩ := follow_rest hroot hstart h
      exact .inl ⟨hdir, _, List.splitOn_ne_nil _ _, splitOn_rooted rest, hfollow, Iff.rfl⟩
    · -- the path is the sysroot
      have hnil : rest = [] := (hbound.resolve_left hend).resolve_right hslash
      subst hnil
      rw [List.append_nil, resolve_eq hsys] at h
      exact .inr ⟨rfl, hend, eq_of_follow h⟩

/-- **A path that loses the sysroot where a name ends**: the guest's path
denotes the file exactly where the sysroot is a directory and the rest
never goes above it. -/
theorem denotes_rest_iff (hsys : l.sysroot ≠ []) (hbound : l.Bounded rest)
    (h : l.files.resolve l.cwd (l.sysroot ++ rest) = some file) :
    l.files.resolveIn l.root (rooted rest) = some file ↔
      l.files.node l.root = some .dir ∧ l.Contained rest := by
  rcases rest_cases hsys hbound h with ⟨hdir, names, hne, hnames, hfollow, hstays⟩ | ⟨rfl, -, hfile⟩
  · rw [resolveIn, hnames, follow_cons_empty hne, follow_eq_iff hfollow, Contained, hstays]
    exact ⟨fun h => ⟨hdir, h⟩, fun h => h.2⟩
  · rw [← hfile]
    have hroot : rooted [] = [Path.slash] := rfl
    rw [hroot, resolveIn, splitOn_rooted, List.splitOn_nil]
    constructor
    · intro hin
      have hstays : Stays 0 [[]] := (stays_here (.inl rfl)).mpr (stays_nil 0)
      exact ⟨dir_of_follow (List.cons_ne_nil _ _) hin, .inr hstays⟩
    · rintro ⟨hdir, _⟩
      rw [follow_cons hdir, enter_empty, follow_cons hdir, enter_empty,
        follow_nil (by rw [hdir]; exact Option.some_ne_none _)]

/-- Where a name goes on, the two parts of it are one. -/
theorem splitOn_joined {p q last first : Bytes} {init more : List Bytes}
    (hp : p.splitOn Path.slash = init ++ [last]) (hq : q.splitOn Path.slash = first :: more) :
    (p ++ q).splitOn Path.slash = init ++ (last ++ first) :: more := by
  obtain ⟨init', last', hparts, htext⟩ := exists_unlines Path.slash p
  obtain ⟨rfl, hlast⟩ := List.append_inj' (hparts.symm.trans hp) rfl
  obtain rfl : last' = last := List.singleton_inj.mp hlast
  have hmem : ∀ part ∈ init' ++ [last'], Path.slash ∉ part := by
    intro part hpart
    rw [← hparts] at hpart
    exact not_mem_of_splitOn hpart
  have hend : Path.slash ∉ last' := hmem last' (List.mem_append_right _ List.mem_cons_self)
  have hgo : (last' ++ q).splitOn Path.slash = (last' ++ first) :: more := by
    by_cases hq' : Path.slash ∈ q
    · obtain ⟨a, b, rfl, ha⟩ := List.eq_append_cons_of_mem hq'
      rw [List.splitOn_append_cons_self_of_not_mem ha] at hq
      obtain ⟨rfl, rfl⟩ := List.cons.inj hq
      rw [← List.append_assoc,
        List.splitOn_append_cons_self_of_not_mem (List.not_mem_append hend ha)]
    · rw [List.splitOn_eq_singleton hq'] at hq
      obtain ⟨rfl, rfl⟩ := List.cons.inj hq
      exact List.splitOn_eq_singleton (List.not_mem_append hend hq')
  rw [htext, List.append_assoc, splitOn_unlines_append fun line hline =>
    hmem line (List.mem_append_left _ hline), hgo]

/-- A longer name than a plain one is plain. -/
theorem plain_append {name more : Bytes} (h : Path.Plain name) (hmore : more ≠ []) :
    Path.Plain (name ++ more) := by
  obtain ⟨hne, hdot, -⟩ := h
  obtain ⟨a, name, rfl⟩ := List.exists_cons_of_ne_nil hne
  obtain ⟨b, more, rfl⟩ := List.exists_cons_of_ne_nil hmore
  have hlen : (a :: name ++ b :: more).length = name.length + more.length + 2 := by
    rw [List.length_append, List.length_cons, List.length_cons]
    omega
  refine ⟨by simp, fun heq => ?_, fun heq => ?_⟩
  · rw [heq] at hlen
    have hone : Path.dot.length = 1 := by decide
    omega
  · -- two dots would make the plain name a dot
    have hname : name = [] := by
      refine List.length_eq_zero_iff.mp ?_
      rw [heq] at hlen
      have htwo : Path.dotDot.length = 2 := by decide
      omega
    subst hname
    have ha : a = 46 := by
      have hhead := congrArg List.head? heq
      exact Option.some.inj hhead
    exact hdot (by rw [ha]; decide)

/-- **A path that goes on with the last name of the sysroot** is never
denoted by what is left of it. -/
theorem not_denotes_rest (hsys : l.sysroot ≠ []) (hdots : ¬l.EndsInDots)
    (hbound : ¬l.Bounded rest)
    (h : l.files.resolve l.cwd (l.sysroot ++ rest) = some file) :
    l.files.resolveIn l.root (rooted rest) ≠ some file := by
  rw [Bounded, not_or, not_or] at hbound
  obtain ⟨hend, hne, hslash⟩ := hbound
  obtain ⟨init, last, hparts, htext⟩ := exists_unlines Path.slash l.sysroot
  obtain ⟨first, more, hrest⟩ :=
    List.exists_cons_of_ne_nil (List.splitOn_ne_nil Path.slash rest)
  have hlast : Path.Plain last := by
    rw [EndsInDots, hparts, List.getLast?_concat, not_or] at hdots
    refine ⟨?_, fun h => hdots.1 (by rw [h]), fun h => hdots.2 (by rw [h])⟩
    rintro rfl
    -- an empty last name is a separator at the end
    rw [List.append_nil] at htext
    rcases List.eq_nil_or_concat init with rfl | ⟨front, name, rfl⟩
    · exact hsys htext
    · refine hend ?_
      rw [htext, List.concat_eq_append, unlines_append, unlines_singleton, ← List.append_assoc,
        List.getLast?_concat]
  have hfirst : first ≠ [] := by
    rintro rfl
    by_cases hmem : Path.slash ∈ rest
    · obtain ⟨a, b, rfl, ha⟩ := List.eq_append_cons_of_mem hmem
      rw [List.splitOn_append_cons_self_of_not_mem ha] at hrest
      rw [(List.cons.inj hrest).1] at hslash
      exact hslash rfl
    · rw [List.splitOn_eq_singleton hmem] at hrest
      exact hne (List.cons.inj hrest).1
  rw [resolve_eq (List.append_ne_nil_of_left_ne_nil hsys _), splitOn_joined hparts hrest,
    start_append hsys] at h
  obtain ⟨k, hk, hout⟩ := follow_of_append h
  have hdirk := dir_of_follow (List.cons_ne_nil _ _) hout
  rw [follow_cons hdirk, enter_plain (plain_append hlast hfirst)] at hout
  have hroot : l.root = k ++ [last] := by
    rw [root, hparts, List.foldl_append, eq_of_follow hk, List.foldl_cons, List.foldl_nil,
      enter_plain hlast]
  intro hin
  rw [rooted, if_neg hslash, resolveIn, splitOn_rooted, hrest] at hin
  have hdir := dir_of_follow (List.cons_ne_nil _ _) hin
  rw [follow_cons hdir, enter_empty, follow_cons hdir] at hin
  refine follow_ne_of_apart ?_ hout hin
  have hinner : l.root ≠ [] := by
    rw [hroot]
    exact List.append_ne_nil_of_right_ne_nil _ (List.cons_ne_nil _ _)
  have hlen : (k ++ [last ++ first]).length = l.root.length := by
    rw [hroot, List.length_append, List.length_append]
    rfl
  have hnot : ¬l.root <+: k ++ [last ++ first] := by
    intro hpre
    have heq := hpre.eq_of_length hlen.symm
    rw [hroot] at heq
    have hname := List.singleton_inj.mp (List.append_cancel_left heq)
    exact hfirst (List.append_right_eq_self.mp hname.symm)
  rcases enter_cases l.root l.root first with ⟨-, heq⟩ | ⟨-, heq⟩ | ⟨-, heq⟩
  · rw [heq]
    exact ⟨hinner, List.prefix_refl _, .inr ⟨hlen, hnot⟩⟩
  · rw [heq, if_pos rfl]
    exact ⟨hinner, List.prefix_refl _, .inr ⟨hlen, hnot⟩⟩
  · rw [heq]
    refine ⟨hinner, List.prefix_append _ _, .inl ?_⟩
    rw [hlen, List.length_append, List.length_singleton]
    omega

/-! ## One path -/

theorem stripSysroot_append (hsys : l.sysroot ≠ []) (rest : Bytes) :
    l.stripSysroot (l.sysroot ++ rest) = rooted rest := by
  have hprefix : l.sysroot.isPrefixOf (l.sysroot ++ rest) = true :=
    List.isPrefixOf_iff_prefix.mpr (List.prefix_append _ _)
  rw [stripSysroot, if_pos ⟨hsys, hprefix⟩, List.drop_left]

theorem rooted_ne_nil (rest : Bytes) : rooted rest ≠ [] := by
  intro h
  have hhead := head_rooted rest
  rw [h] at hhead
  cases hhead

/-- A host path that can lose the sysroot may do so. -/
theorem faithful_of_cut {elfPath : Bytes} (h : l.Cut elfPath) :
    l.Faithful (elfPath, l.stripSysroot elfPath) := by
  intro hset file hfile
  rw [stripSysroot] at hset
  split at hset
  · next hcond =>
    obtain ⟨rest, rfl⟩ := List.isPrefixOf_iff_prefix.mp hcond.2
    have hexists : l.fileExists (l.sysroot ++ rest) = true := by
      rw [fileExists, hfile]
      rfl
    obtain ⟨hbound, hdir, hcontained⟩ := h hcond.1 hexists rest rfl
    rw [stripSysroot_append hcond.1]
    exact ⟨head_rooted rest, (denotes_rest_iff hcond.1 hbound hfile).mpr ⟨hdir, hcontained⟩⟩
  · exact absurd rfl hset

theorem cut_of_faithful (hdots : ¬l.EndsInDots) {elfPath : Bytes}
    (h : l.Faithful (elfPath, l.stripSysroot elfPath)) : l.Cut elfPath := by
  rintro hsys hexists rest rfl
  obtain ⟨file, hfile⟩ := Option.isSome_iff_exists.mp hexists
  rw [stripSysroot_append hsys] at h
  obtain ⟨-, hin⟩ := h (rooted_ne_nil rest) file hfile
  have hbound : l.Bounded rest := by
    by_contra hno
    exact not_denotes_rest hsys hdots hno hfile hin
  exact ⟨hbound, (denotes_rest_iff hsys hbound hfile).mp hin⟩

/-- What is appended to the sysroot follows it with a separator. -/
theorem exists_rest (hsys : l.sysroot ≠ []) {r : Bytes} (hr : r.head? ≠ some Path.slash) :
    ∃ rest, appendPath l.sysroot r = l.sysroot ++ rest ∧ l.Bounded rest ∧
      rooted rest = Path.slash :: r ∧ (rest = [] → l.sysroot.getLast? = some Path.slash) := by
  rw [appendPath, if_neg hr]
  by_cases hend : l.sysroot.getLast? = some Path.slash
  · rw [if_pos (.inr hend)]
    exact ⟨r, rfl, .inl hend, if_neg hr, fun _ => hend⟩
  · rw [if_neg (not_or.mpr ⟨hsys, hend⟩)]
    exact ⟨Path.slash :: r, rfl, .inr (.inr rfl), if_pos rfl, fun h => absurd h (by simp)⟩

/-- **A path that is found below the sysroot**: it denotes the file found
exactly where it never goes above it. -/
theorem denotes_found_iff (hsys : l.sysroot ≠ []) {r : Bytes} (hr : r.head? ≠ some Path.slash)
    (h : l.files.resolve l.cwd (appendPath l.sysroot r) = some file) :
    l.files.resolveIn l.root (Path.slash :: r) = some file ↔
      l.root = [] ∨ Stays 0 (r.splitOn Path.slash) := by
  obtain ⟨rest, happend, hbound, hrooted, hend⟩ := exists_rest hsys hr
  rw [happend] at h
  rw [← hrooted, denotes_rest_iff hsys hbound h]
  rcases rest_cases hsys hbound h with ⟨hdir, names, -, hnames, -, hstays⟩ | ⟨hnil, hno, -⟩
  · rw [hrooted, splitOn_rooted] at hnames
    rw [Contained, hstays, (List.cons.inj hnames).2]
    exact ⟨fun h => h.2, fun h => ⟨hdir, h⟩⟩
  · exact absurd (hend hnil) hno

/-- Where the rest is an absolute path itself, the host does not look below
the sysroot. -/
theorem denotes_absolute_iff {r : Bytes} (hr : r.head? = some Path.slash)
    (h : l.files.resolve l.cwd r = some file) :
    l.files.resolveIn l.root (Path.slash :: r) = some file ↔ l.root = [] := by
  have hne : r ≠ [] := by
    rintro rfl
    cases hr
  rw [resolve_eq hne, start, if_pos hr] at h
  rw [resolveIn, splitOn_rooted, follow_cons_empty (List.splitOn_ne_nil _ _)]
  constructor
  · intro hin
    by_contra hroot
    refine follow_ne_of_apart ⟨hroot, List.prefix_refl _, .inl ?_⟩ h hin
    exact List.length_pos_iff.mpr hroot
  · intro hroot
    rw [hroot]
    exact h

/-- The directories commands are looked for in. -/
theorem mem_searchDirs (l : Launch) :
    ∀ dir ∈ l.searchDirs, dir ∈ [ascii "/bin", ascii "/usr/bin", ascii "/sbin",
      ascii "/usr/sbin", ascii "/system/bin", ascii "/system/xbin"] := by
  rw [searchDirs]
  cases l.runtime with
  | linuxAarch64 =>
    dsimp only
    decide +kernel
  | androidAarch64 =>
    rcases l.activePrefix with _ | ⟨kind, rootfs⟩
    · dsimp only
      decide +kernel
    · cases kind <;> dsimp only <;> decide +kernel

/-- A command without a directory is looked for in directories below the
sysroot, which it cannot leave. -/
theorem searchDirs_spec {dir : Bytes} (h : dir ∈ l.searchDirs) :
    ∃ r, dir = Path.slash :: r ∧ r ≠ [] ∧ r.getLast? ≠ some Path.slash ∧
      r.head? ≠ some Path.slash ∧ r.splitOn Path.slash ≠ [] ∧
      ∀ n ∈ r.splitOn Path.slash, Path.Plain n := by
  have hall : ∀ dir ∈ [ascii "/bin", ascii "/usr/bin", ascii "/sbin", ascii "/usr/sbin",
      ascii "/system/bin", ascii "/system/xbin"], dir = Path.slash :: dir.tail ∧
      dir.tail ≠ [] ∧ dir.tail.getLast? ≠ some Path.slash ∧ dir.tail.head? ≠ some Path.slash ∧
      dir.tail.splitOn Path.slash ≠ [] ∧ ∀ n ∈ dir.tail.splitOn Path.slash, Path.Plain n := by
    decide +kernel
  exact ⟨dir.tail, hall dir (mem_searchDirs l dir h)⟩

theorem stays_command {r : Bytes} (hne : r.splitOn Path.slash ≠ [])
    (hplain : ∀ n ∈ r.splitOn Path.slash, Path.Plain n) (hslash : Path.slash ∉ path) :
    Stays 0 ((r ++ Path.slash :: path).splitOn Path.slash) := by
  rw [splitOn_slash, List.splitOn_eq_singleton hslash, stays_append_plain hplain]
  obtain ⟨depth, hdepth⟩ := Nat.exists_eq_add_one_of_ne_zero
    (Nat.pos_iff_ne_zero.mp (List.length_pos_iff.mpr hne))
  rw [hdepth, Nat.zero_add]
  exact stays_singleton _ _

theorem head_ne_slash (h : Path.slash ∉ path) : path.head? ≠ some Path.slash := fun hhead =>
  h (List.mem_of_mem_head? hhead)

/-- Two appended paths are one. -/
theorem appendPath_assoc {r : Bytes} (hne : r ≠ [])
    (hlast : r.getLast? ≠ some Path.slash) (hhead : r.head? ≠ some Path.slash)
    (hslash : Path.slash ∉ path) :
    appendPath (appendPath l.sysroot r) path =
      appendPath l.sysroot (r ++ Path.slash :: path) := by
  have hmore : (r ++ Path.slash :: path).head? ≠ some Path.slash := by
    rw [head_append hne]
    exact hhead
  have hend : ∀ p : Bytes, p ++ r ≠ [] ∧ (p ++ r).getLast? ≠ some Path.slash := fun p =>
    ⟨List.append_ne_nil_of_right_ne_nil _ hne, by rwa [List.getLast?_append_of_ne_nil _ hne]⟩
  rw [appendPath, if_neg (head_ne_slash hslash), appendPath, if_neg hhead, appendPath, if_neg hmore]
  split
  · have hcond := hend l.sysroot
    rw [if_neg (not_or.mpr hcond), List.append_assoc]
  · have hcond := hend (l.sysroot ++ [Path.slash])
    rw [List.append_assoc, List.singleton_append] at hcond
    rw [if_neg (not_or.mpr hcond), List.append_assoc, List.cons_append]

/-! ## What is set for a path -/

/-- **A path of the guest**: what is set denotes the file exactly where
the path never goes above the sysroot. -/
theorem faithful_absolute_iff {r : Bytes} (hsys : l.sysroot ≠ [])
    (hexists : l.fileExists (appendPath l.sysroot r) = true) :
    l.Faithful (appendPath l.sysroot r, Path.slash :: r) ↔
      l.root = [] ∨ r.head? ≠ some Path.slash ∧
        Stays 0 ((Path.slash :: r).splitOn Path.slash) := by
  obtain ⟨file, hfile⟩ := Option.isSome_iff_exists.mp hexists
  have hiff : l.Faithful (appendPath l.sysroot r, Path.slash :: r) ↔
      l.files.resolveIn l.root (Path.slash :: r) = some file := by
    constructor
    · intro h
      exact (h (List.cons_ne_nil _ _) file hfile).2
    · rintro hin - file' hfile'
      rw [hfile] at hfile'
      cases hfile'
      exact ⟨rfl, hin⟩
  rw [hiff, splitOn_rooted, stays_here (.inl rfl)]
  by_cases hr : r.head? = some Path.slash
  · rw [appendPath, if_pos hr] at hfile
    rw [denotes_absolute_iff hr hfile]
    exact ⟨.inl, fun h => h.resolve_right fun hno => hno.1 hr⟩
  · rw [denotes_found_iff hsys hr hfile]
    exact or_congr_right ⟨fun h => ⟨hr, h⟩, fun h => h.2⟩

/-- **A command**: what is set denotes the file. -/
theorem faithful_command {dir : Bytes} (hdir : dir ∈ l.searchDirs) (hsys : l.sysroot ≠ [])
    (hslash : Path.slash ∉ path)
    (hexists : l.fileExists (appendPath (appendPath l.sysroot dir.tail) path) = true) :
    l.Faithful (appendPath (appendPath l.sysroot dir.tail) path,
      dir ++ Path.slash :: path) := by
  obtain ⟨r, rfl, hne, hlast, hhead, hnames, hplain⟩ := searchDirs_spec hdir
  rw [List.tail_cons, appendPath_assoc hne hlast hhead hslash] at hexists ⊢
  rw [List.cons_append]
  refine (faithful_absolute_iff hsys hexists).mpr (.inr ⟨?_, ?_⟩)
  · rw [head_append hne]
    exact hhead
  · rw [splitOn_rooted, stays_here (.inl rfl)]
    exact stays_command hnames hplain hslash

/-- What `run` sets, case by case. -/
theorem setPaths_eq (l : Launch) (path : Bytes) :
    l.setPaths path =
      if path = [] then (path, l.stripSysroot path)
      else if path.head? = some Path.slash then
        if l.sysroot ≠ [] ∧ l.fileExists (appendPath l.sysroot path.tail) then
          (appendPath l.sysroot path.tail, path)
        else (path, l.stripSysroot path)
      else if Path.slash ∉ path then
        match l.searchDirs.find? fun dir => l.sysroot ≠ [] ∧
            l.fileExists (appendPath (appendPath l.sysroot dir.tail) path) with
        | some dir =>
          (appendPath (appendPath l.sysroot dir.tail) path, dir ++ Path.slash :: path)
        | none => (path, l.stripSysroot path)
      else if l.fileExists (appendPath l.baseDir path) then
        (appendPath l.baseDir path, l.stripSysroot (appendPath l.baseDir path))
      else (path, l.stripSysroot path) := by
  rw [setPaths, resolvePath]
  by_cases hne : path = []
  · rw [if_pos hne, if_pos hne]
    rfl
  rw [if_neg hne, if_neg hne]
  by_cases hhead : path.head? = some Path.slash
  · rw [if_pos hhead, if_pos hhead]
    dsimp only
    by_cases hfound : l.sysroot ≠ [] ∧ l.fileExists (appendPath l.sysroot path.tail) = true
    · rw [if_pos hfound, if_pos hfound]
      exact if_pos hne
    · rw [if_neg hfound, if_neg hfound]
      rfl
  rw [if_neg hhead, if_neg hhead]
  by_cases hslash : Path.slash ∉ path
  · rw [if_pos hslash, if_pos hslash]
    cases l.searchDirs.find? fun dir => l.sysroot ≠ [] ∧
        l.fileExists (appendPath (appendPath l.sysroot dir.tail) path) with
    | none => rfl
    | some dir => exact if_pos (by simp)
  rw [if_neg hslash, if_neg hslash]
  dsimp only
  by_cases hexists : l.fileExists (appendPath l.baseDir path) = true
  · rw [if_pos hexists, if_pos hexists]
    dsimp only
    split <;> rfl
  · rw [if_neg hexists, if_neg hexists]
    rfl

theorem cut_nil : l.Cut [] := by
  intro hsys _ rest heq
  exact absurd (List.append_eq_nil_iff.mp heq.symm).1 hsys

/-- **One path**: what is set denotes the file where the path is sound. -/
theorem faithful_of_sound (h : l.Sound path) : l.Faithful (l.setPaths path) := by
  rw [setPaths_eq]
  rw [Sound] at h
  by_cases hne : path = []
  · rw [if_pos hne, hne]
    exact faithful_of_cut cut_nil
  rw [if_neg hne]
  split at h
  · next hhead =>
    rw [if_pos hhead]
    obtain ⟨r, rfl⟩ : ∃ r, path = Path.slash :: r := List.head?_eq_some_iff.mp hhead
    rw [List.tail_cons] at h ⊢
    split at h
    · next hfound =>
      rw [if_pos hfound]
      exact (faithful_absolute_iff hfound.1 hfound.2).mpr h
    · next hnone =>
      rw [if_neg hnone]
      exact faithful_of_cut h
  · next hhead =>
    rw [if_neg hhead]
    split at h
    · next hslash =>
      rw [if_pos hslash]
      split
      · next dir hfind =>
        have hcond := List.find?_some hfind
        obtain ⟨hsys, hexists⟩ := of_decide_eq_true hcond
        exact faithful_command (List.mem_of_find?_eq_some hfind) hsys hslash hexists
      · next hfind =>
        refine faithful_of_cut (h fun dir hdir hcond => ?_)
        exact absurd (decide_eq_true hcond) (List.find?_eq_none.mp hfind dir hdir)
    · next hslash =>
      rw [if_neg hslash]
      split at h
      · next hexists =>
        rw [if_pos hexists]
        exact faithful_of_cut h
      · next hexists =>
        rw [if_neg hexists]
        exact faithful_of_cut h

/-- And only there, where the sysroot's last name is a name. -/
theorem sound_of_faithful (hdots : ¬l.EndsInDots) (h : l.Faithful (l.setPaths path)) :
    l.Sound path := by
  rw [setPaths_eq] at h
  rw [Sound]
  by_cases hne : path = []
  · subst hne
    rw [if_neg (by simp), if_pos List.not_mem_nil]
    exact fun _ => cut_nil
  rw [if_neg hne] at h
  split
  · next hhead =>
    rw [if_pos hhead] at h
    obtain ⟨r, rfl⟩ : ∃ r, path = Path.slash :: r := List.head?_eq_some_iff.mp hhead
    rw [List.tail_cons] at h ⊢
    split
    · next hfound =>
      rw [if_pos hfound] at h
      exact (faithful_absolute_iff hfound.1 hfound.2).mp h
    · next hnone =>
      rw [if_neg hnone] at h
      exact cut_of_faithful hdots h
  · next hhead =>
    rw [if_neg hhead] at h
    split
    · next hslash =>
      intro hnone
      have hfind : l.searchDirs.find? (fun dir => l.sysroot ≠ [] ∧
          l.fileExists (appendPath (appendPath l.sysroot dir.tail) path)) = none :=
        List.find?_eq_none.mpr fun dir hdir hcond => hnone dir hdir (of_decide_eq_true hcond)
      rw [if_pos hslash, hfind] at h
      exact cut_of_faithful hdots h
    · next hslash =>
      rw [if_neg hslash] at h
      split
      · next hexists =>
        rw [if_pos hexists] at h
        exact cut_of_faithful hdots h
      · next hexists =>
        rw [if_neg hexists] at h
        exact cut_of_faithful hdots h

/-! ## Normal forms -/

/-- Where a path leads by its names alone. -/
def locate (l : Launch) (path : Bytes) : Location :=
  (path.splitOn Path.slash).foldl (enter []) (start l.cwd path)

/-- A walk is the names followed, the last first. -/
theorem reverse_visit {kept : List Bytes} (h : ∀ n ∈ kept, Path.Plain n) (name : Bytes) :
    (Path.visit true kept name).reverse = enter [] kept.reverse name := by
  unfold Path.visit enter
  split
  · rfl
  · split
    · cases kept with
      | nil => rfl
      | cons last rest =>
        have hlast : last ≠ Path.dotDot := (h last List.mem_cons_self).2.2
        dsimp only
        rw [if_neg hlast, if_neg (by simp), List.reverse_cons, List.dropLast_concat]
    · rw [List.reverse_cons]

theorem reverse_foldl_visit (names : List Bytes) {kept : List Bytes}
    (h : ∀ n ∈ kept, Path.Plain n) :
    (names.foldl (Path.visit true) kept).reverse = names.foldl (enter []) kept.reverse := by
  induction names generalizing kept with
  | nil => rfl
  | cons name names ih =>
    rw [List.foldl_cons, List.foldl_cons, ih (Path.visit_keeps_plain h name), reverse_visit h]

theorem foldl_enter_filter (names : List Bytes) (loc : Location) :
    (names.filter (· ≠ [])).foldl (enter []) loc = names.foldl (enter []) loc := by
  induction names generalizing loc with
  | nil => rfl
  | cons name names ih =>
    by_cases hname : name = []
    · rw [List.filter_cons_of_neg (by simp [hname]), ih, List.foldl_cons, hname, enter_empty]
    · rw [List.filter_cons_of_pos (by simp [hname]), List.foldl_cons, List.foldl_cons, ih]

theorem foldl_ofString (path : Bytes) (loc : Location) :
    (Path.ofString path).names.foldl (enter []) loc =
      (path.splitOn Path.slash).foldl (enter []) loc := by
  rw [Path.ofString, ← foldl_enter_filter (path.splitOn Path.slash)]
  dsimp only
  split
  · rw [List.foldl_append, List.foldl_cons, enter_empty, List.foldl_nil]
  · rfl

theorem absolute_rooted (l : Launch) (path : Bytes) : (l.absolute path).rooted = true := by
  rw [absolute]
  split
  · next hhead => exact decide_eq_true hhead
  · exact Path.rooted_join rfl

/-- **Normalising leads where the path does**, by names alone. -/
theorem walk_absolute (l : Launch) (path : Bytes) : (l.absolute path).walk = l.locate path := by
  rw [absolute, locate, start]
  split
  · next hhead =>
    have hrooted : (Path.ofString path).rooted = true := decide_eq_true hhead
    rw [Path.walk, hrooted, reverse_foldl_visit _ fun n hn => absurd hn List.not_mem_nil,
      foldl_ofString]
    rfl
  · next hhead =>
    have hrooted : (Path.ofString path).rooted = false := decide_eq_false hhead
    have hcwd : ∀ n ∈ l.cwd, Path.Plain n := fun n hn => (l.plain n hn).1
    have hplain : ∀ n ∈ l.cwd.reverse, Path.Plain n := fun n hn => hcwd n (List.mem_reverse.mp hn)
    rw [Path.walk_join hrooted, Path.walk_of_plain hcwd, reverse_foldl_visit _ hplain,
      List.reverse_reverse, foldl_ofString]

theorem plain_locate (l : Launch) (path : Bytes) : ∀ n ∈ l.locate path, Path.Plain n := by
  rw [← walk_absolute]
  exact Path.walk_plain (absolute_rooted l path)

theorem not_mem_enter {root loc : Location} {name : Bytes} (hloc : ∀ n ∈ loc, Path.slash ∉ n)
    (hname : Path.slash ∉ name) : ∀ n ∈ enter root loc name, Path.slash ∉ n := by
  rcases enter_cases root loc name with ⟨-, heq⟩ | ⟨-, heq⟩ | ⟨-, heq⟩
  · rwa [heq]
  · rw [heq]
    split
    · exact hloc
    · exact fun n hn => hloc n (List.dropLast_subset _ hn)
  · rw [heq]
    intro n hn
    rcases List.mem_append.mp hn with hn | hn
    · exact hloc n hn
    · rwa [List.mem_singleton.mp hn]

theorem not_mem_locate (l : Launch) (path : Bytes) : ∀ n ∈ l.locate path, Path.slash ∉ n := by
  have hstart : ∀ n ∈ start l.cwd path, Path.slash ∉ n := by
    rw [start]
    split
    · exact fun n hn => absurd hn List.not_mem_nil
    · exact fun n hn => (l.plain n hn).2
  have hnames : ∀ n ∈ path.splitOn Path.slash, Path.slash ∉ n := fun n => not_mem_of_splitOn
  rw [locate]
  generalize path.splitOn Path.slash = names at hnames
  generalize start l.cwd path = loc at hstart
  induction names generalizing loc with
  | nil => exact hstart
  | cons name names ih =>
    exact ih (fun n hn => hnames n (List.mem_cons_of_mem _ hn)) _
      (not_mem_enter hstart (hnames name List.mem_cons_self))

/-- The separator a normal form keeps at its end, as a name. -/
def tail (l : Launch) (path : Bytes) : List Bytes :=
  if (l.absolute path).keepsSeparator then [[]] else []

/-- **The names of a normal form**: those that lead to the place, and an
empty one where it keeps a separator. -/
theorem normal_eq (l : Launch) (path : Bytes) :
    (l.absolute path).lexicallyNormal = ⟨true, l.locate path ++ l.tail path⟩ := by
  rw [Path.lexicallyNormal_eq (absolute_rooted l path), walk_absolute, tail]
  split
  · rfl
  · rw [List.append_nil]

theorem tail_cases (l : Launch) (path : Bytes) :
    l.tail path = [] ∨ l.tail path = [[]] ∧ l.locate path ≠ [] ∧ (l.absolute path).endsOpen := by
  rw [tail]
  split
  · next hkeeps =>
    have hcond := of_decide_eq_true hkeeps
    rw [walk_absolute] at hcond
    exact .inr ⟨rfl, hcond⟩
  · exact .inl rfl

/-- No name of a normal form but the last is empty. -/
theorem normal_inner (l : Launch) (path : Bytes) :
    ∀ n ∈ (l.locate path ++ l.tail path).dropLast, n ≠ [] := by
  intro n hn
  refine (plain_locate l path n ?_).1
  rcases tail_cases l path with htail | ⟨htail, -, -⟩
  · rw [htail, List.append_nil] at hn
    exact List.dropLast_subset _ hn
  · rwa [htail, List.dropLast_concat] at hn

theorem normal_spelled (l : Launch) (path : Bytes) :
    (⟨true, l.locate path ++ l.tail path⟩ : Path).Spelled where
  separated := by
    intro n hn
    rcases List.mem_append.mp hn with hn | hn
    · exact not_mem_locate l path n hn
    · rcases tail_cases l path with htail | ⟨htail, -, -⟩
      · rw [htail] at hn
        cases hn
      · rw [htail] at hn
        rw [List.mem_singleton.mp hn]
        exact List.not_mem_nil
  inner := normal_inner l path
  several := by
    show l.locate path ++ l.tail path ≠ [[]]
    intro heq
    rcases List.append_eq_singleton_iff.mp heq with ⟨hloc, htail⟩ | ⟨hloc, -⟩
    · rcases tail_cases l path with hnil | ⟨-, hne, -⟩
      · rw [hnil] at htail
        cases htail
      · exact hne hloc
    · have hmem : ([] : Bytes) ∈ l.locate path := by
        rw [hloc]
        exact List.mem_cons_self
      exact (plain_locate l path [] hmem).1 rfl

/-- The parts of the text of a normal form; the root alone is two empty
ones. -/
def parts (l : Launch) (path : Bytes) : List Bytes :=
  if l.locate path ++ l.tail path = [] then [[]] else l.locate path ++ l.tail path

theorem splitOn_normalText (l : Launch) (path : Bytes) :
    (l.normalText path).splitOn Path.slash = [] :: l.parts path := by
  rw [normalText, normal_eq, parts]
  split
  · next hnil =>
    rw [hnil]
    decide
  · next hne => exact Path.splitOn_string (normal_spelled l path) hne

theorem normalText_head (l : Launch) (path : Bytes) :
    (l.normalText path).head? = some Path.slash := by
  rw [normalText, normal_eq]
  rfl

theorem normalText_ne_nil (l : Launch) (path : Bytes) : l.normalText path ≠ [] := by
  intro h
  have hhead := normalText_head l path
  rw [h] at hhead
  cases hhead

/-- **A separator follows the sysroot's normal form**: that is its names
alone, and the names of the path go on. -/
theorem parts_of_follows {root rest : Bytes}
    (h : l.normalText path = l.normalText root ++ Path.slash :: rest) :
    l.tail root = [] ∧ l.locate path ++ l.tail path =
      l.locate root ++ rest.splitOn Path.slash := by
  have hsplit := congrArg (List.splitOn Path.slash) h
  rw [splitOn_slash, splitOn_normalText, splitOn_normalText, List.cons_append] at hsplit
  have hparts := (List.cons.inj hsplit).2
  have hrest := List.splitOn_ne_nil Path.slash rest
  have hinner : ∀ n ∈ (l.parts path).dropLast, n ≠ [] := by
    rw [parts]
    split
    · exact fun n hn => absurd hn List.not_mem_nil
    · exact normal_inner l path
  rw [hparts, List.dropLast_append_of_ne_nil hrest] at hinner
  have hroot : ∀ n ∈ l.parts root, n ≠ [] := fun n hn =>
    hinner n (List.mem_append_left _ hn)
  have hne : l.locate root ++ l.tail root ≠ [] := by
    intro hnil
    rw [parts, if_pos hnil] at hroot
    exact hroot [] List.mem_cons_self rfl
  rw [parts, if_neg hne] at hroot
  rw [parts, parts, if_neg hne] at hparts
  have htail : l.tail root = [] := by
    rcases tail_cases l root with htail | ⟨htail, -, -⟩
    · exact htail
    · rw [htail] at hroot
      exact absurd rfl (hroot [] (List.mem_append_right _ List.mem_cons_self))
  rw [htail, List.append_nil] at hparts hne
  split at hparts
  · -- one part is not one and more
    have hlen := congrArg List.length hparts
    rw [List.length_append, List.length_singleton] at hlen
    have hpos := List.length_pos_iff.mpr hne
    have hpos' := List.length_pos_iff.mpr hrest
    omega
  · exact ⟨htail, hparts⟩

theorem locate_of_normalText {other : Bytes} (h : l.normalText path = l.normalText other) :
    l.locate path = l.locate other := by
  rw [normalText, normalText] at h
  have hpath := congrArg Path.ofString h
  rw [normal_eq, normal_eq, Path.ofString_string (normal_spelled l path),
    Path.ofString_string (normal_spelled l other)] at hpath
  have hwalk := congrArg Path.walk hpath
  rw [← normal_eq, ← normal_eq, Path.walk_lexicallyNormal (absolute_rooted l path),
    Path.walk_lexicallyNormal (absolute_rooted l other), walk_absolute, walk_absolute] at hwalk
  exact hwalk

/-- The last name of a path is the last of its absolute form, unless it
leads nowhere new. -/
theorem endsOpen_of_plain {init : List Bytes} {last : Bytes}
    (hparts : path.splitOn Path.slash = init ++ [last]) (hlast : Path.Plain last) :
    (l.absolute path).endsOpen = false := by
  have hend : path.getLast? ≠ some Path.slash := by
    intro hslash
    obtain ⟨p, rfl⟩ : ∃ p, path = p ++ [Path.slash] := List.getLast?_eq_some_iff.mp hslash
    rw [splitOn_slash, List.splitOn_nil] at hparts
    have hempty := (List.append_inj' hparts rfl).2
    exact hlast.1 (List.singleton_inj.mp hempty).symm
  have hnames : (Path.ofString path).names = init.filter (· ≠ []) ++ [last] := by
    rw [Path.ofString]
    dsimp only
    rw [if_neg fun h => hend h.2, hparts, List.filter_append]
    exact congrArg _ (by simp [hlast.1])
  have hget : (l.absolute path).names.getLast? = some last := by
    rw [absolute]
    split
    · rw [hnames, List.getLast?_concat]
    · next hhead =>
      have hrooted : (Path.ofString path).rooted = false := decide_eq_false hhead
      have hne : (Path.ofString path).names ≠ [] := by
        rw [hnames]
        exact List.append_ne_nil_of_right_ne_nil _ (List.cons_ne_nil _ _)
      rw [Path.join, if_neg (by rw [hrooted]; exact Bool.false_ne_true), if_neg hne]
      dsimp only
      rw [hnames, ← List.append_assoc, List.getLast?_concat]
  rw [Path.endsOpen, hget]
  refine decide_eq_false ?_
  rintro (h | h | h)
  · exact hlast.1 h
  · exact hlast.2.1 h
  · exact hlast.2.2 h

theorem locate_of_resolve (h : l.files.resolve l.cwd path = some file) :
    l.locate path = file := by
  have hne : path ≠ [] := by
    rintro rfl
    cases h
  rw [resolve_eq hne] at h
  exact eq_of_follow h

theorem node_of_resolve (h : l.files.resolve l.cwd path = some file) :
    l.files.node file ≠ none := by
  have hne : path ≠ [] := by
    rintro rfl
    cases h
  rw [resolve_eq hne] at h
  exact node_of_follow h

theorem dir_of_endsOpen (h : l.files.resolve l.cwd path = some file)
    (hopen : (l.absolute path).endsOpen = true) : l.files.node file = some .dir := by
  have hne : path ≠ [] := by
    rintro rfl
    cases h
  obtain ⟨init, last, hparts, -⟩ := exists_unlines Path.slash path
  rw [resolve_eq hne, hparts] at h
  refine dir_of_follow_open (fun hplain => ?_) h
  rw [endsOpen_of_plain hparts hplain] at hopen
  cases hopen

/-! ## One path of the plan -/

theorem guestPathFor_append {rest : Bytes}
    (h : l.normalText path = l.normalText l.sysroot ++ rest) :
    l.guestPathFor path = if rest = [] then [Path.slash] else rest := by
  have hprefix : (l.normalText l.sysroot).isPrefixOf (l.normalText path) = true := by
    rw [h]
    exact List.isPrefixOf_iff_prefix.mpr (List.prefix_append _ _)
  rw [guestPathFor]
  dsimp only
  rw [if_pos ⟨normalText_ne_nil l l.sysroot, hprefix⟩, h, List.drop_left]

/-- The plan's path of a file below the sysroot. -/
theorem resolveIn_of_follows {rest : Bytes} (hfile : l.files.resolve l.cwd path = some file)
    (h : l.normalText path = l.normalText l.sysroot ++ Path.slash :: rest) :
    l.files.resolveIn l.root (Path.slash :: rest) = some file := by
  obtain ⟨-, hnames⟩ := parts_of_follows h
  have hloc := locate_of_resolve hfile
  have hnode := node_of_resolve hfile
  have hplain := plain_locate l path
  have hroot : l.locate l.sysroot = l.root := rfl
  rw [hroot, hloc] at hnames
  rw [hloc] at hplain
  rw [resolveIn, splitOn_rooted, follow_cons_empty (List.splitOn_ne_nil _ _)]
  rcases tail_cases l path with htail | ⟨htail, -, hopen⟩
  · rw [htail, List.append_nil] at hnames
    rw [hnames] at hnode hplain ⊢
    exact follow_plain (fun n hn => hplain n (List.mem_append_right _ hn)) hnode
  · -- the path ends in a separator, so the file is a directory
    have hdir := dir_of_endsOpen hfile hopen
    obtain ⟨names, last, hsplit, -⟩ := exists_unlines Path.slash rest
    rw [htail, hsplit, ← List.append_assoc] at hnames
    obtain ⟨hfront, hlast⟩ := List.append_inj' hnames rfl
    rw [hfront] at hnode hplain hdir ⊢
    rw [hsplit, ← hlast, follow_append,
      follow_plain (fun n hn => hplain n (List.mem_append_right _ hn)) hnode, Option.bind_some,
      follow_cons hdir, enter_empty, follow_nil hnode]

/-- **A path of the plan** denotes its file exactly where nothing or a
separator follows the normal form of the sysroot. -/
theorem maps_iff (l : Launch) (hostPath : Bytes) : l.Maps hostPath ↔ l.Mapped hostPath := by
  constructor
  · intro hmaps hsys hexists rest heq
    obtain ⟨file, hfile⟩ := Option.isSome_iff_exists.mp hexists
    have hguest := guestPathFor_append heq
    have hloc := locate_of_resolve hfile
    by_cases hrest : rest = []
    · left
      refine ⟨hrest, ?_⟩
      rw [hrest, List.append_nil] at heq
      have hroot : l.root = file := (locate_of_normalText heq).symm.trans hloc
      rw [if_pos hrest] at hguest
      by_cases hsame : l.guestPathFor hostPath = l.normalText hostPath
      · -- the sysroot is the root of the tree
        rw [hguest, normalText, normal_eq] at hsame
        have hpath := congrArg Path.ofString hsame
        rw [Path.ofString_string (normal_spelled l hostPath)] at hpath
        have hnil := (List.append_eq_nil_iff.mp (congrArg Path.names hpath).symm).1
        rw [hroot, ← hloc, hnil, l.files.root]
      · obtain ⟨-, hin⟩ := hmaps hsys hsame file hfile
        rw [hguest, resolveIn, splitOn_rooted] at hin
        exact dir_of_follow (List.cons_ne_nil _ _) hin
    · right
      rw [if_neg hrest] at hguest
      have hdiffer : l.guestPathFor hostPath ≠ l.normalText hostPath := by
        rw [hguest, heq]
        exact fun hsame => normalText_ne_nil l l.sysroot (List.self_eq_append_left.mp hsame)
      obtain ⟨hhead, -⟩ := hmaps hsys hdiffer file hfile
      rwa [hguest] at hhead
  · intro hmapped hsys hdiffer file hfile
    have hexists : l.fileExists hostPath = true := by
      rw [fileExists, hfile]
      rfl
    by_cases hprefix : (l.normalText l.sysroot).isPrefixOf (l.normalText hostPath) = true
    · obtain ⟨rest, hrest⟩ := List.isPrefixOf_iff_prefix.mp hprefix
      have hguest := guestPathFor_append hrest.symm
      rw [hguest]
      rcases hmapped hsys hexists rest hrest.symm with ⟨hnil, hdir⟩ | hslash
      · rw [if_pos hnil]
        rw [hnil, List.append_nil] at hrest
        have hroot : l.root = file := (locate_of_normalText hrest).trans (locate_of_resolve hfile)
        refine ⟨rfl, ?_⟩
        rw [resolveIn, splitOn_rooted, List.splitOn_nil, follow_cons hdir, enter_empty,
          follow_cons hdir, enter_empty, follow_nil (by rw [hdir]; exact Option.some_ne_none _),
          hroot]
      · obtain ⟨r, rfl⟩ : ∃ r, rest = Path.slash :: r := List.head?_eq_some_iff.mp hslash
        rw [if_neg (List.cons_ne_nil _ _)]
        exact ⟨rfl, resolveIn_of_follows hfile hrest.symm⟩
    · refine absurd ?_ hdiffer
      rw [guestPathFor]
      dsimp only
      rw [if_neg fun h => hprefix h.2]

/-! ## Guest paths -/

/-- **Guest paths denote the files they were derived from.** In every run
whose paths are sound each pair that is set does, and where the sysroot's
last name is a name, in no other; and a path of the plan does exactly
where it is mapped as it stands. -/
theorem guest_paths_denote (l : Launch) :
    (∀ inputPath, (∀ path ∈ l.resolvedPaths inputPath, l.Sound path) →
      ∀ pair ∈ l.run inputPath, l.Faithful pair) ∧
    (¬l.EndsInDots → ∀ inputPath, (∀ pair ∈ l.run inputPath, l.Faithful pair) →
      ∀ path ∈ l.resolvedPaths inputPath, l.Sound path) ∧
    ∀ hostPath, l.Maps hostPath ↔ l.Mapped hostPath := by
  refine ⟨fun inputPath hsound pair hpair => ?_, fun hdots inputPath hfaithful path hpath => ?_,
    maps_iff l⟩
  · obtain ⟨path, hpath, rfl⟩ := List.mem_map.mp hpair
    exact faithful_of_sound (hsound path hpath)
  · exact sound_of_faithful hdots (hfaithful _ (List.mem_map_of_mem hpath))

/-- A shell in the sysroot, and a tool in a directory beside it. -/
def besideRoot : FileTree :=
  let dirs := (FileTree.empty.makeDirs [ascii "srv", ascii "root", ascii "bin"]).makeDirs
    [ascii "srv", ascii "root2"]
  let shell := dirs.writeFile [ascii "srv", ascii "root", ascii "bin", ascii "sh"] (ascii "sh")
    (by decide +kernel)
  shell.writeFile [ascii "srv", ascii "root2", ascii "tool"] (ascii "tool") (by decide +kernel)

/-- A launch with the sysroot `/srv/root`. -/
def launchBeside : Launch where
  runtime := .androidAarch64
  files := besideRoot
  cwd := []
  plain := by simp
  cwd_dir := rfl
  activePrefix := none
  sysroot := ascii "/srv/root"

theorem guest_paths_denote_shell :
    ∀ pair ∈ launchBeside.run (ascii "/bin/sh"), launchBeside.Faithful pair := by
  refine (guest_paths_denote launchBeside).1 _ fun path hpath => ?_
  have hpaths : launchBeside.resolvedPaths (ascii "/bin/sh") = [ascii "/bin/sh"] := by
    decide +kernel
  rw [hpaths] at hpath
  rw [List.mem_singleton.mp hpath, Sound, if_pos (by decide +kernel), if_pos (by decide +kernel)]
  exact .inr (by decide +kernel)

/-- **A sibling is misnamed.** The path of a tool beside the sysroot loses
half a name and then denotes nothing. -/
theorem sibling_misnamed :
    ¬∀ pair ∈ launchBeside.run (ascii "/srv/root2/tool"), launchBeside.Faithful pair := by
  intro h
  have hmem : (ascii "/srv/root2/tool", ascii "/2/tool") ∈
      launchBeside.run (ascii "/srv/root2/tool") := by decide +kernel
  have hfile : launchBeside.files.resolve launchBeside.cwd (ascii "/srv/root2/tool") =
      some [ascii "srv", ascii "root2", ascii "tool"] := by decide +kernel
  have hdenotes := (h _ hmem (by decide +kernel) _ hfile).2
  exact absurd hdenotes (by decide +kernel)

end Launch

end Android

end Muplar
