import Mathlib.Data.List.Nodup
import Mathlib.Logic.Relation
import Muplar.Common.Loop
import Muplar.Linker.Rela
/-!
# The linker — the objects of a process

`linker_main` registers the executable, loads what it needs, and what
that needs, and relocates every object; `lnk_dlopen` does the same for
one more library later. The table of objects only ever grows at its end,
and a name that is in it is not loaded again, so the walk over the
libraries needs no order and ends on any graph of them.

What relocating does to the memory is said elsewhere. Here it is noted
which object is relocated, each time one is.
-/

namespace Muplar

namespace Linker

/-! ## Files -/

/-- `PT_TLS`. -/
structure TlsSegment where
  vaddr : UInt64
  filesz : UInt64
  memsz : UInt64
  align : UInt64

/-- What `load_so` finds in a file, or `linker_main` in the executable:
the tables, the names of `DT_NEEDED` (none without a string table) and
the last TLS segment. -/
structure Library where
  symbols : Option Symbols := none
  rela : List Rela := []
  jmprel : List Rela := []
  relr : List UInt64 := []
  androidRela : Bytes := []
  needed : List Bytes := []
  tls : Option TlsSegment := none

/-- A file that is opened: `load_so` can load it, or ends the process. -/
inductive File
  | library (lib : Library)
  | unusable

/-- What the linker runs in: the files, and where the kernel maps a
library beside the objects that are there. -/
structure Environment where
  openat : Bytes → Option File
  mmap : List Object → Library → Option UInt64

/-- The executable, as the kernel started it. -/
structure Executable where
  argv0 : Option Bytes
  loadBase : UInt64
  image : Library

def maxObjects : ℕ := 1024
def maxNeeded : ℕ := 256

/-- `sizeof(((Object *)0)->soname)`. -/
def sonameSize : ℕ := 128

/-- `sizeof(path)`. -/
def pathSize : ℕ := 256

/-- The object of a library that is loaded. -/
def Library.object (lib : Library) (loadBase : UInt64) (soname path : Bytes) : Object :=
  { loadBase, soname, path
    symbols := lib.symbols
    rela := lib.rela
    jmprel := lib.jmprel
    relr := lib.relr
    androidRela := lib.androidRela
    needed := lib.needed.take maxNeeded
    tlsVaddr := (lib.tls.map (·.vaddr)).getD 0
    tlsFilesz := (lib.tls.map (·.filesz)).getD 0
    tlsMemsz := (lib.tls.map (·.memsz)).getD 0
    tlsAlign := (lib.tls.map (·.align)).getD 0 }

/-- An object that is only a name. -/
def Object.phantom (soname : Bytes) : Object :=
  { soname }

/-! ## Loading -/

/-- Why the linker does not go on: it ended the process, or a copy of a
name ran over the end of its array, after which anything may happen. -/
inductive Stop
  | fatal
  | overrun
  deriving DecidableEq

def isSystemLib (soname : Bytes) : Bool :=
  soname = ascii "libdl.so" || soname = ascii "libdl_android.so" || soname = ascii "ld-android.so"

/-- The directories `load_needed_so` tries, in order. -/
def searchDirs : List Bytes :=
  [ascii "/data/local/tmp", ascii "/system/lib64", ascii "/apex/com.android.art/lib64",
    ascii "/apex/com.android.runtime/lib64", ascii "/apex/com.android.i18n/lib64",
    ascii "/apex/com.android.conscrypt/lib64", ascii "/vendor/lib64", ascii "/lib",
    ascii "/usr/lib"]

def inDir (dir soname : Bytes) : Bytes :=
  dir ++ 47 :: soname

/-- `try_dir` for each directory: the first file that opens. -/
def Environment.search (env : Environment) (soname : Bytes) : Option (Bytes × File) :=
  searchDirs.findSome? fun dir => (env.openat (inDir dir soname)).map fun file =>
    (inDir dir soname, file)

/-- `load_needed_so`. A walk down the needed libraries gets so much fuel. -/
def loadNeededSo (env : Environment) :
    (fuel : ℕ) → Bytes → List Object → ExceptT Stop Option (List Object)
  | 0, _, _ => ExceptT.mk none
  | fuel + 1, soname, objects =>
    if objects.any (·.soname = soname) then pure objects
    else if maxObjects ≤ objects.length then throw .fatal
    else if sonameSize ≤ soname.length then throw .overrun
    else if isSystemLib soname then pure (objects ++ [.phantom soname])
    else match env.search soname with
      | none => pure (objects ++ [.phantom soname])
      | some (_, .unusable) => throw .fatal
      | some (path, .library lib) =>
        match env.mmap objects lib with
        | none => throw .fatal
        | some loadBase =>
          (lib.needed.take maxNeeded).foldlM (fun objects name => loadNeededSo env fuel name objects)
            (objects ++ [lib.object loadBase soname path])

/-! ## The process -/

/-- The objects, and the indices `relocate_object` was called with. -/
structure Process where
  objects : List Object
  relocated : List ℕ

/-- The loop that gives each object its place in the TLS block. -/
def assignTls : (current : UInt64) → List Object → List Object
  | _, [] => []
  | current, obj :: objects =>
    if 0 < obj.tlsMemsz then
      let current := (current + 15) &&& ~~~15
      { obj with tlsOffset := current } :: assignTls (current + obj.tlsMemsz) objects
    else obj :: assignTls current objects

/-- The name the executable is registered with. -/
def Executable.name (exe : Executable) : Bytes :=
  exe.argv0.getD (ascii "main")

def Executable.object (exe : Executable) : Object :=
  exe.image.object exe.loadBase exe.name []

/-- The rest of `linker_main`, when all is loaded: the executable is
relocated, then the others. -/
def Process.start (objects : List Object) : Process where
  objects := assignTls 256 objects
  relocated := 0 :: List.range' 1 ((assignTls 256 objects).length - 1)

/-- `linker_main`, up to the jump to the executable. -/
def linkerMain (env : Environment) (exe : Executable) : Loop.Fueled Stop Process := fun fuel =>
  if sonameSize ≤ exe.name.length then throw .overrun
  else do
    let objects ← exe.object.needed.foldlM
      (fun objects name => loadNeededSo env fuel name objects) [exe.object]
    return .start objects

/-- `get_basename`. -/
def getBasename (path : Bytes) : Bytes :=
  (path.reverse.takeWhile (· ≠ 47)).reverse

/-- `lnk_dlopen`: the index of the object, if there is one. -/
def lnkDlopen (env : Environment) (filename : Option Bytes) (p : Process) :
    Loop.Fueled Stop (Option ℕ × Process) := fun fuel =>
  match filename with
  | none => pure (some 0, p)
  | some filename =>
    let base := getBasename filename
    match p.objects.findIdx? fun obj =>
        obj.soname = filename || obj.path = filename || obj.soname = base with
    | some i => pure (some i, p)
    | none => do
      let objects ← loadNeededSo env fuel base p.objects
      let added := List.range' p.objects.length (objects.length - p.objects.length)
      return (objects.findIdx? (·.soname = base), { objects, relocated := p.relocated ++ added })

/-- Calls of `lnk_dlopen`, one after the other. -/
def dlopenAll (env : Environment) (filenames : List (Option Bytes)) (p : Process) :
    Loop.Fueled Stop Process := fun fuel =>
  filenames.foldlM (fun p filename => do return (← lnkDlopen env filename p fuel).2) p

/-! ## What loading does -/

/-- The names in the table. -/
def sonames (objects : List Object) : List Bytes :=
  objects.map (·.soname)

/-- Where an object that `load_needed_so` registers comes from: a name
alone, for a system library and for a file that is not found; or the
file that the search finds. -/
inductive Origin (env : Environment) : Object → Prop
  | phantom {soname : Bytes} (h : isSystemLib soname ∨ env.search soname = none) :
      Origin env (.phantom soname)
  | loaded {soname path : Bytes} {lib : Library} {loadBase : UInt64} (hsystem : ¬isSystemLib soname)
      (hfound : env.search soname = some (path, .library lib)) :
      Origin env (lib.object loadBase soname path)

/-- **What loading adds.** The table keeps what it has and gets objects at
its end, of new names; whatever a new object needs is in the table. -/
structure Extends (env : Environment) (old new : List Object) (added : List Object) : Prop where
  grown : new = old ++ added
  origin : ∀ obj ∈ added, Origin env obj
  closed : ∀ obj ∈ added, ∀ name ∈ obj.needed, name ∈ sonames new
  distinct : (sonames old).Nodup → (sonames new).Nodup
  bounded : old.length ≤ maxObjects → new.length ≤ maxObjects

section Load

variable {env : Environment} {old mid new added later : List Object} {soname : Bytes}

theorem sonames_append : sonames (old ++ added) = sonames old ++ sonames added :=
  List.map_append

theorem Extends.refl : Extends env old old [] where
  grown := (List.append_nil old).symm
  origin _ h := absurd h List.not_mem_nil
  closed _ h := absurd h List.not_mem_nil
  distinct h := h
  bounded h := h

theorem Extends.mem (h : Extends env old new added) {name : Bytes} (hname : name ∈ sonames old) :
    name ∈ sonames new := by
  rw [h.grown, sonames_append]
  exact List.mem_append_left _ hname

theorem Extends.length_le (h : Extends env old new added) : old.length ≤ new.length := by
  rw [h.grown, List.length_append]
  omega

theorem Extends.trans (h : Extends env old mid added) (h' : Extends env mid new later) :
    Extends env old new (added ++ later) where
  grown := by rw [h'.grown, h.grown, List.append_assoc]
  origin obj hobj := (List.mem_append.mp hobj).elim (h.origin obj) (h'.origin obj)
  closed obj hobj name hname := by
    rcases List.mem_append.mp hobj with hobj | hobj
    · exact h'.mem (h.closed obj hobj name hname)
    · exact h'.closed obj hobj name hname
  distinct hold := h'.distinct (h.distinct hold)
  bounded hold := h'.bounded (h.bounded hold)

/-- One object more, whose needs are in the table when all is done. -/
theorem Extends.cons {obj : Object} (hnew : obj.soname ∉ sonames old) (hroom : old.length < maxObjects)
    (horigin : Origin env obj) (h : Extends env (old ++ [obj]) new added)
    (hneeds : ∀ name ∈ obj.needed, name ∈ sonames new) : Extends env old new (obj :: added) where
  grown := by rw [h.grown, List.append_assoc, List.singleton_append]
  origin o ho := by
    rcases List.mem_cons.mp ho with rfl | ho
    · exact horigin
    · exact h.origin o ho
  closed o ho := by
    rcases List.mem_cons.mp ho with rfl | ho
    · exact hneeds
    · exact h.closed o ho
  distinct hold := by
    refine h.distinct ?_
    rw [sonames_append, List.nodup_append]
    refine ⟨hold, List.nodup_singleton _, fun a ha b hb hab => hnew ?_⟩
    have hb : b = obj.soname := List.mem_singleton.mp hb
    rwa [← hb, ← hab]
  bounded _ := h.bounded (by rw [List.length_append, List.length_singleton]; omega)

theorem mem_sonames_iff : objects.any (·.soname = soname) ↔ soname ∈ sonames objects := by
  simp [sonames]

/-- A list of names is loaded one after the other. -/
theorem foldlM_extends {load : Bytes → List Object → ExceptT Stop Option (List Object)}
    (hload : ∀ name old new, (load name old).run = some (.ok new) →
      ∃ added, Extends env old new added ∧ name ∈ sonames new) (names : List Bytes) {old new}
    (h : (names.foldlM (fun objects name => load name objects) old).run = some (.ok new)) :
    ∃ added, Extends env old new added ∧ ∀ name ∈ names, name ∈ sonames new := by
  induction names generalizing old with
  | nil =>
    cases h
    exact ⟨[], .refl, fun _ h => absurd h List.not_mem_nil⟩
  | cons name names ih =>
    rw [List.foldlM_cons] at h
    rcases Loop.run_bind_cases h with ⟨e, -, he⟩ | ⟨mid, hmid, hnew⟩
    · cases he
    obtain ⟨added, hfirst, hname⟩ := hload name old mid hmid
    obtain ⟨later, hrest, hnames⟩ := ih hnew
    refine ⟨added ++ later, hfirst.trans hrest, fun n hn => ?_⟩
    rcases List.mem_cons.mp hn with rfl | hn
    · exact hrest.mem hname
    · exact hnames n hn

theorem extends_phantom (hnew : soname ∉ sonames old) (hroom : old.length < maxObjects)
    (h : isSystemLib soname ∨ env.search soname = none) :
    Extends env old (old ++ [.phantom soname]) [.phantom soname] :=
  .cons hnew hroom (.phantom h) .refl fun _ h => absurd h List.not_mem_nil

/-- **Loading one library.** -/
theorem loadNeededSo_extends {fuel : ℕ} {old new : List Object}
    (h : (loadNeededSo env fuel soname old).run = some (.ok new)) :
    ∃ added, Extends env old new added ∧ soname ∈ sonames new := by
  induction fuel generalizing soname old new with
  | zero => cases h
  | succ fuel ih =>
    have hlast (obj : Object) (hobj : obj.soname = soname) : soname ∈ sonames (old ++ [obj]) := by
      simp [sonames, hobj]
    rw [loadNeededSo] at h
    split at h
    · next hany =>
      cases h
      exact ⟨[], .refl, mem_sonames_iff.mp hany⟩
    next hany =>
    have hnew : soname ∉ sonames old := fun hmem => hany (mem_sonames_iff.mpr hmem)
    split at h
    · cases h
    next hroom =>
    have hroom : old.length < maxObjects := by omega
    split at h
    · cases h
    split at h
    · next hsystem =>
      cases h
      exact ⟨_, extends_phantom hnew hroom (Or.inl hsystem), hlast _ rfl⟩
    next hsystem =>
    split at h
    · next hfound =>
      cases h
      exact ⟨_, extends_phantom hnew hroom (Or.inr hfound), hlast _ rfl⟩
    · cases h
    next path lib hfound =>
    split at h
    · cases h
    next loadBase _ =>
    obtain ⟨added, hrest, hneeds⟩ := foldlM_extends (fun name old new => ih) _ h
    exact ⟨_, .cons hnew hroom (.loaded hsystem hfound) hrest hneeds, hrest.mem (hlast _ rfl)⟩

theorem foldlM_halts {load : Bytes → List Object → ExceptT Stop Option (List Object)} {fuel : ℕ}
    (hload : ∀ name old new, (load name old).run = some (.ok new) →
      ∃ added, Extends env old new added ∧ name ∈ sonames new)
    (hhalts : ∀ name old, old.length ≤ maxObjects → maxObjects < fuel + old.length →
      ∃ out, (load name old).run = some out) (names : List Bytes) {old : List Object}
    (hold : old.length ≤ maxObjects) (hfuel : maxObjects < fuel + old.length) :
    ∃ out, (names.foldlM (fun objects name => load name objects) old).run = some out := by
  induction names generalizing old with
  | nil => exact ⟨_, rfl⟩
  | cons name names ih =>
    rw [List.foldlM_cons]
    obtain ⟨out, hout⟩ := hhalts name old hold hfuel
    cases out with
    | error e => exact ⟨_, Loop.run_bind_error hout⟩
    | ok mid =>
      obtain ⟨added, hextends, -⟩ := hload name old mid hout
      have hlen := hextends.length_le
      rw [Loop.run_bind_ok hout]
      exact ih (hextends.bounded hold) (by omega)

/-- Loading ends: the walk down goes no deeper than there is room in the
table. -/
theorem loadNeededSo_halts {fuel : ℕ} (hold : old.length ≤ maxObjects)
    (hfuel : maxObjects < fuel + old.length) :
    ∃ out, (loadNeededSo env fuel soname old).run = some out := by
  induction fuel generalizing soname old with
  | zero => omega
  | succ fuel ih =>
    rw [loadNeededSo]
    split
    · exact ⟨_, rfl⟩
    split
    · exact ⟨_, rfl⟩
    next hroom =>
    split
    · exact ⟨_, rfl⟩
    split
    · exact ⟨_, rfl⟩
    split
    · exact ⟨_, rfl⟩
    · exact ⟨_, rfl⟩
    split
    · exact ⟨_, rfl⟩
    refine foldlM_halts (fun name old new => loadNeededSo_extends) (fun name old => ih) _ ?_ ?_
    all_goals
      rw [List.length_append, List.length_singleton]
      omega

/-! ## Where there is room -/

/-- What the object of a name asks for. -/
def Environment.needs (env : Environment) (exe : Executable) (name : Bytes) : List Bytes :=
  if name = exe.name then exe.image.needed.take maxNeeded
  else if isSystemLib name then []
  else match env.search name with
    | some (_, .library lib) => lib.needed.take maxNeeded
    | _ => []

theorem Environment.needs_of_phantom {env : Environment} {exe : Executable} {name : Bytes}
    (hname : name ≠ exe.name) (h : isSystemLib name = true ∨ env.search name = none) :
    env.needs exe name = [] := by
  rw [Environment.needs, if_neg hname]
  by_cases hsystem : isSystemLib name = true
  · rw [if_pos hsystem]
  · rw [if_neg hsystem, h.resolve_left hsystem]

theorem Environment.needs_of_found {env : Environment} {exe : Executable} {name path : Bytes}
    {lib : Library} (hname : name ≠ exe.name) (hsystem : ¬isSystemLib name = true)
    (hfound : env.search name = some (path, .library lib)) :
    env.needs exe name = lib.needed.take maxNeeded := by
  rw [Environment.needs, if_neg hname, if_neg hsystem, hfound]

/-- A name is asked for by the executable, or on the way from it. -/
def Reaches (env : Environment) (exe : Executable) (name : Bytes) : Prop :=
  Relation.ReflTransGen (fun asks name => name ∈ env.needs exe asks) exe.name name

/-- **Capacity suffices.** The names that are reached are few enough and
short enough, and each file that is found can be loaded. -/
structure Suffices (env : Environment) (exe : Executable) (names : List Bytes) : Prop where
  listed : ∀ name, Reaches env exe name → name ∈ names
  count : names.length ≤ maxObjects
  fits : ∀ name, Reaches env exe name → name.length < sonameSize
  loads : ∀ name, Reaches env exe name → name ≠ exe.name → ¬isSystemLib name → ∀ path file,
    env.search name = some (path, file) → ∃ lib, file = .library lib ∧
      ∀ objects, env.mmap objects lib ≠ none

variable {exe : Executable} {names : List Bytes}

/-- The table has the executable and names that are reached, once each. -/
structure Within (env : Environment) (exe : Executable) (objects : List Object) : Prop where
  root : exe.name ∈ sonames objects
  reached : ∀ name ∈ sonames objects, Reaches env exe name
  distinct : (sonames objects).Nodup

theorem Within.append {o : Object} (h : Within env exe old) (hname : Reaches env exe o.soname)
    (hnew : o.soname ∉ sonames old) : Within env exe (old ++ [o]) := by
  have hadd : sonames (old ++ [o]) = sonames old ++ [o.soname] := sonames_append
  refine ⟨?_, fun n hn => ?_, ?_⟩
  · rw [hadd]
    exact List.mem_append_left _ h.root
  · rw [hadd, List.mem_append, List.mem_singleton] at hn
    rcases hn with hn | rfl
    · exact h.reached n hn
    · exact hname
  · rw [hadd, ← List.concat_eq_append]
    exact h.distinct.concat hnew

theorem Suffices.length_le (h : Suffices env exe names) (hold : Within env exe old) :
    old.length ≤ maxObjects := by
  have hlen := hold.distinct.length_le_of_subset fun n hn => h.listed n (hold.reached n hn)
  have hcount := h.count
  rw [sonames, List.length_map] at hlen
  omega

theorem foldlM_ok {load : Bytes → List Object → ExceptT Stop Option (List Object)} {fuel : ℕ}
    (hload : ∀ name old, Reaches env exe name → Within env exe old → maxObjects < fuel + old.length →
      ∃ new, (load name old).run = some (.ok new) ∧ Within env exe new ∧ old.length ≤ new.length)
    (needed : List Bytes) (hneeded : ∀ name ∈ needed, Reaches env exe name) {old : List Object}
    (hold : Within env exe old) (hfuel : maxObjects < fuel + old.length) :
    ∃ new, (needed.foldlM (fun objects name => load name objects) old).run = some (.ok new) ∧
      Within env exe new ∧ old.length ≤ new.length := by
  induction needed generalizing old with
  | nil => exact ⟨old, rfl, hold, Nat.le_refl _⟩
  | cons name needed ih =>
    obtain ⟨mid, hmid, hwithin, hlen⟩ := hload name old (hneeded name List.mem_cons_self) hold hfuel
    obtain ⟨new, hnew, hlast, hlen'⟩ := ih (fun n hn => hneeded n (List.mem_cons_of_mem name hn))
      hwithin (by omega)
    refine ⟨new, ?_, hlast, by omega⟩
    rw [List.foldlM_cons, Loop.run_bind_ok hmid]
    exact hnew

/-- Where capacity suffices, loading comes to its end. -/
theorem loadNeededSo_ok (h : Suffices env exe names) {fuel : ℕ} (hname : Reaches env exe soname)
    (hold : Within env exe old) (hfuel : maxObjects < fuel + old.length) :
    ∃ new, (loadNeededSo env fuel soname old).run = some (.ok new) ∧ Within env exe new ∧
      old.length ≤ new.length := by
  induction fuel generalizing soname old with
  | zero =>
    have hlen := h.length_le hold
    omega
  | succ fuel ih =>
    rw [loadNeededSo]
    split
    · exact ⟨old, rfl, hold, Nat.le_refl _⟩
    next hany =>
    have hnew : soname ∉ sonames old := fun hmem => hany (mem_sonames_iff.mpr hmem)
    have hother : soname ≠ exe.name := fun heq => hnew (heq ▸ hold.root)
    have hlen (obj : Object) : (old ++ [obj]).length = old.length + 1 := by
      rw [List.length_append, List.length_singleton]
    have hphantom : Within env exe (old ++ [.phantom soname]) := hold.append hname hnew
    have hroom := h.length_le hphantom
    rw [hlen] at hroom
    rw [if_neg (by omega), if_neg (Nat.not_le.mpr (h.fits _ hname))]
    split
    · exact ⟨_, rfl, hphantom, by rw [hlen]; omega⟩
    next hsystem =>
    cases hfound : env.search soname with
    | none => exact ⟨_, rfl, hphantom, by rw [hlen]; omega⟩
    | some found =>
      obtain ⟨lib, hlib, hmmap⟩ := h.loads _ hname hother hsystem found.1 found.2 hfound
      obtain ⟨path, file⟩ := found
      cases hlib
      obtain ⟨loadBase, hbase⟩ := Option.ne_none_iff_exists'.mp (hmmap old)
      have hneeds : env.needs exe soname = lib.needed.take maxNeeded := by
        rw [Environment.needs, if_neg hother, if_neg hsystem, hfound]
      have hneeded : ∀ n ∈ lib.needed.take maxNeeded, Reaches env exe n :=
        fun n hn => hname.tail (by rw [hneeds]; exact hn)
      simp only [hbase]
      obtain ⟨new, hrun, hwithin, hle⟩ := foldlM_ok (fun name old hname hold hfuel =>
        ih hname hold hfuel) _ hneeded (hold.append (o := lib.object loadBase soname path) hname hnew)
        (by rw [hlen]; omega)
      exact ⟨new, hrun, hwithin, by rw [hlen] at hle; omega⟩

end Load

end Linker

end Muplar
