import Muplar.Linker.Closure
/-!
# The linker — names in the records

An object's record has two arrays for text, `path` and `soname`, and
behind them the fields of its TLS segment. Names come from the command
line and from the files, and are copied without a look at their length.

A run is followed here through all it copies: each object that is
registered is noted, with its name and the directories that are tried for
it. Up to the first copy that does not fit the notes are what the linker
does; `session_inside_iff` says when there is none.
-/

namespace Muplar

namespace Linker

/-! ## Copies -/

/-- `sizeof(Object)`. -/
def recordSize : ℕ := 1552

/-- `offsetof(Object, path)`. -/
def pathAt : ℕ := 1132

/-- `offsetof(Object, soname)`. -/
def sonameAt : ℕ := 1388

/-- `offsetof(Object, tls_offset)`. -/
def tlsOffsetAt : ℕ := 1520

/-- The arrays that text is copied to: the two of the record at an index,
and the one of `try_dir`. -/
inductive CharArray
  | soname (index : ℕ)
  | path (index : ℕ)
  | tryPath
  deriving DecidableEq

/-- `sizeof`. -/
def CharArray.size : CharArray → ℕ
  | .soname _ => sonameSize
  | .path _ => pathSize
  | .tryPath => pathSize

/-- Where an array is, with `g_objects` at `table` and the array of
`try_dir` at `frame`. -/
def CharArray.address (table frame : ℕ) : CharArray → ℕ
  | .soname index => table + index * recordSize + sonameAt
  | .path index => table + index * recordSize + pathAt
  | .tryPath => frame

/-- What `lnk_strcpy` and `lnk_strcat` do: the text goes to the array from
`start` on, and its NUL behind it. -/
structure StringCopy where
  array : CharArray
  start : ℕ
  text : Bytes

namespace StringCopy

variable (table frame : ℕ) (c : StringCopy) (m : Memory)

def write : Memory :=
  m.overwrite (c.array.address table frame + c.start) (c.text ++ [0])

/-- The NUL is in the array. -/
def Fits : Prop :=
  c.start + c.text.length < c.array.size

instance : Decidable c.Fits :=
  inferInstanceAs (Decidable (_ < _))

theorem fits_zero {array : CharArray} {text : Bytes} :
    (StringCopy.mk array 0 text).Fits ↔ text.length < array.size := by
  rw [Fits, Nat.zero_add]

end StringCopy

/-- The copies of `try_dir` before it opens the file. -/
def tryDirCopies (soname dir : Bytes) : List StringCopy :=
  [⟨.tryPath, 0, dir⟩, ⟨.tryPath, dir.length, [47]⟩, ⟨.tryPath, dir.length + 1, soname⟩]

/-- An object that is registered: its index and name, the directories that
are tried, and the path where a file is opened. -/
structure Registration where
  index : ℕ
  soname : Bytes
  tried : List Bytes := []
  path : Option Bytes := none

namespace Registration

variable (table frame : ℕ) (r : Registration)

/-- All that is copied for the object. -/
def copies : List StringCopy :=
  ⟨.soname r.index, 0, r.soname⟩ ::
    (r.tried.flatMap (tryDirCopies r.soname) ++
      r.path.toList.map fun path => ⟨.path r.index, 0, path⟩)

/-- The memory behind them. -/
def store (m : Memory) : Memory :=
  r.copies.foldl (fun m c => c.write table frame m) m

/-- The addresses that are the object's to write to. -/
def Own (a : ℕ) : Prop :=
  ∃ array ∈ [CharArray.soname r.index, .path r.index, .tryPath],
    array.address table frame ≤ a ∧ a < array.address table frame + array.size

/-- **The copies stay inside their arrays**, and every other byte is what
it was. -/
structure Inside : Prop where
  fits : ∀ c ∈ r.copies, c.Fits
  frame : ∀ table frame m a, ¬r.Own table frame a → (r.store table frame m).byte a = m.byte a

/-- The name fits its array, and so does each path that is tried. -/
structure Short : Prop where
  soname : r.soname.length < sonameSize
  tried : ∀ dir ∈ r.tried, (inDir dir r.soname).length < pathSize

/-- The path is one of those that are tried. -/
def Opened : Prop :=
  ∀ path, r.path = some path → ∃ dir ∈ r.tried, path = inDir dir r.soname

variable {table frame r}

theorem array_mem {c : StringCopy} (h : c ∈ r.copies) :
    c.array ∈ [CharArray.soname r.index, .path r.index, .tryPath] := by
  rcases List.mem_cons.mp h with rfl | h
  · simp
  rcases List.mem_append.mp h with h | h
  · obtain ⟨dir, -, hc⟩ := List.mem_flatMap.mp h
    simp only [tryDirCopies, List.mem_cons, List.not_mem_nil, or_false] at hc
    rcases hc with rfl | rfl | rfl <;> simp
  · obtain ⟨path, -, rfl⟩ := List.mem_map.mp h
    simp

theorem fits_tryDirCopies_iff {soname dir : Bytes} :
    (∀ c ∈ tryDirCopies soname dir, c.Fits) ↔ (inDir dir soname).length < pathSize := by
  simp only [tryDirCopies, List.forall_mem_cons, StringCopy.Fits, CharArray.size, inDir,
    List.length_append, List.length_cons, List.length_nil, List.not_mem_nil, false_imp_iff,
    implies_true, and_true]
  omega

theorem fits_iff (h : r.Opened) : (∀ c ∈ r.copies, c.Fits) ↔ r.Short := by
  rw [copies, List.forall_mem_cons, StringCopy.fits_zero]
  constructor
  · rintro ⟨hname, hrest⟩
    refine ⟨hname, fun dir hdir => fits_tryDirCopies_iff.mp fun c hc => ?_⟩
    exact hrest c (List.mem_append_left _ (List.mem_flatMap.mpr ⟨dir, hdir, hc⟩))
  · rintro ⟨hname, htried⟩
    refine ⟨hname, fun c hc => ?_⟩
    rcases List.mem_append.mp hc with hc | hc
    · obtain ⟨dir, hdir, hc⟩ := List.mem_flatMap.mp hc
      exact fits_tryDirCopies_iff.mpr (htried dir hdir) c hc
    · -- the path was put together before, in an array of the same size
      obtain ⟨path, hpath, rfl⟩ := List.mem_map.mp hc
      obtain ⟨dir, hdir, rfl⟩ := h path (Option.mem_toList.mp hpath)
      exact StringCopy.fits_zero.mpr (htried dir hdir)

theorem byte_write {c : StringCopy} {m : Memory} {a : ℕ} (hmem : c ∈ r.copies) (hfits : c.Fits)
    (ha : ¬r.Own table frame a) : (c.write table frame m).byte a = m.byte a := by
  have hout : ¬(c.array.address table frame ≤ a ∧ a < c.array.address table frame + c.array.size) :=
    fun h => ha ⟨c.array, array_mem hmem, h⟩
  rw [StringCopy.Fits] at hfits
  refine Memory.byte_overwrite_of_outside ?_
  rw [List.length_append, List.length_singleton]
  omega

theorem byte_foldl_write {cs : List StringCopy} {a : ℕ} (hmem : ∀ c ∈ cs, c ∈ r.copies)
    (hfits : ∀ c ∈ cs, c.Fits) (ha : ¬r.Own table frame a) (m : Memory) :
    (cs.foldl (fun m c => c.write table frame m) m).byte a = m.byte a := by
  induction cs generalizing m with
  | nil => rfl
  | cons c cs ih =>
    obtain ⟨hc, hcs⟩ := List.forall_mem_cons.mp hmem
    obtain ⟨hcfits, hcsfits⟩ := List.forall_mem_cons.mp hfits
    rw [List.foldl_cons, ih hcs hcsfits, byte_write hc hcfits ha]

theorem inside_iff (h : r.Opened) : r.Inside ↔ r.Short := by
  rw [← fits_iff h]
  refine ⟨fun hin => hin.fits, fun hfits => ⟨hfits, fun table frame m a ha => ?_⟩⟩
  exact byte_foldl_write (fun c hc => hc) hfits ha m

end Registration

/-! ## A run and what it notes -/

/-- Why a run that is followed ends early. -/
inductive Halt
  | fatal
  | fuel

/-- What was registered, and the result. -/
abbrev Traced (α : Type) : Type :=
  List Registration × Except Halt α

namespace Traced

variable {α β : Type}

/-- One registration, and then the rest. -/
def note (r : Registration) (x : Traced α) : Traced α :=
  (r :: x.1, x.2)

def bind (x : Traced α) (f : α → Traced β) : Traced β :=
  match x with
  | (log, .error e) => (log, .error e)
  | (log, .ok a) => (log ++ (f a).1, (f a).2)

/-- For each item of a list, one after the other. -/
def forEach (load : β → α → Traced α) : List β → α → Traced α
  | [], a => ([], .ok a)
  | b :: bs, a => (load b a).bind (forEach load bs)

/-- What holds of all that was registered. -/
def All (P : Registration → Prop) (x : Traced α) : Prop :=
  ∀ r ∈ x.1, P r

variable {P : Registration → Prop}

theorem All.note {r : Registration} {x : Traced α} (hr : P r) (h : x.All P) :
    (x.note r).All P :=
  List.forall_mem_cons.mpr ⟨hr, h⟩

theorem All.bind {x : Traced α} {f : α → Traced β} (hx : x.All P) (hf : ∀ a, (f a).All P) :
    (x.bind f).All P := by
  obtain ⟨log, e | a⟩ := x
  · exact hx
  · exact List.forall_mem_append.mpr ⟨hx, hf a⟩

theorem all_forEach {load : β → α → Traced α} {bs : List β}
    (hload : ∀ b ∈ bs, ∀ a, (load b a).All P) (a : α) : (forEach load bs a).All P := by
  induction bs generalizing a with
  | nil => exact fun r hr => nomatch hr
  | cons b bs ih =>
    obtain ⟨hb, hbs⟩ := List.forall_mem_cons.mp hload
    exact (hb a).bind (ih hbs)

end Traced

/-- `try_dir` for each directory: those that are tried, and the first file
that opens. -/
def Environment.tryDirs (env : Environment) (soname : Bytes) :
    List Bytes → List Bytes × Option (Bytes × File)
  | [] => ([], none)
  | dir :: dirs =>
    match env.openat (inDir dir soname) with
    | some file => ([dir], some (inDir dir soname, file))
    | none => (dir :: (env.tryDirs soname dirs).1, (env.tryDirs soname dirs).2)

/-- `load_needed_so`, with the directories it tries. -/
def loadTrace (env : Environment) (dirs : List Bytes) :
    (fuel : ℕ) → Bytes → List Object → Traced (List Object)
  | 0, _, _ => ([], .error .fuel)
  | fuel + 1, soname, objects =>
    if objects.any (·.soname = soname) then ([], .ok objects)
    else if maxObjects ≤ objects.length then ([], .error .fatal)
    else if isSystemLib soname then
      Traced.note { index := objects.length, soname } ([], .ok (objects ++ [.phantom soname]))
    else
      let (tried, found) := env.tryDirs soname dirs
      Traced.note { index := objects.length, soname, tried, path := found.map Prod.fst } <|
        match found with
        | none => ([], .ok (objects ++ [.phantom soname]))
        | some (_, .unusable) => ([], .error .fatal)
        | some (path, .library lib) =>
          match env.mmap objects lib with
          | none => ([], .error .fatal)
          | some loadBase =>
            Traced.forEach (loadTrace env dirs fuel) (lib.needed.take maxNeeded)
              (objects ++ [lib.object loadBase soname path])

/-- `linker_main`, up to the jump to the executable. -/
def mainTrace (env : Environment) (dirs : List Bytes) (fuel : ℕ) (exe : Executable) :
    Traced (List Object) :=
  Traced.note { index := 0, soname := exe.name } <|
    (Traced.forEach (loadTrace env dirs fuel) exe.object.needed [exe.object]).bind fun objects =>
      ([], .ok (assignTls 256 objects))

/-- `lnk_dlopen`. -/
def dlopenTrace (env : Environment) (dirs : List Bytes) (fuel : ℕ) (filename : Option Bytes)
    (objects : List Object) : Traced (List Object) :=
  match filename with
  | none => ([], .ok objects)
  | some filename =>
    let base := getBasename filename
    if objects.any fun obj =>
        obj.soname = filename || obj.path = filename || obj.soname = base then ([], .ok objects)
    else loadTrace env dirs fuel base objects

/-- The start, and calls of `lnk_dlopen` after it. -/
def session (env : Environment) (dirs : List Bytes) (fuel : ℕ) (exe : Executable)
    (filenames : List (Option Bytes)) : Traced (List Object) :=
  (mainTrace env dirs fuel exe).bind (Traced.forEach (dlopenTrace env dirs fuel) filenames)

section Runs

variable {env : Environment} {dirs : List Bytes} {fuel : ℕ} {exe : Executable}
variable {soname : Bytes} {objects : List Object} {filenames : List (Option Bytes)}

theorem opened_of_tryDirs {index : ℕ} : Registration.Opened
    { index, soname
      tried := (env.tryDirs soname dirs).1
      path := (env.tryDirs soname dirs).2.map Prod.fst } := by
  intro path hpath
  induction dirs with
  | nil => cases hpath
  | cons dir dirs ih =>
    rw [Environment.tryDirs] at hpath ⊢
    cases hfile : env.openat (inDir dir soname) with
    | some file =>
      rw [hfile] at hpath
      cases hpath
      exact ⟨dir, List.mem_singleton.mpr rfl, rfl⟩
    | none =>
      rw [hfile] at hpath
      obtain ⟨dir', hdir', heq⟩ := ih hpath
      exact ⟨dir', List.mem_cons_of_mem _ hdir', heq⟩

theorem opened_of_path_eq_none {r : Registration} (h : r.path = none) : r.Opened :=
  fun _ hpath => nomatch h.symm.trans hpath

theorem openat_of_tryDirs {path : Bytes} {file : File}
    (h : (env.tryDirs soname dirs).2 = some (path, file)) : env.openat path = some file := by
  induction dirs with
  | nil => cases h
  | cons dir dirs ih =>
    rw [Environment.tryDirs] at h
    cases hfile : env.openat (inDir dir soname) with
    | some file' =>
      rw [hfile] at h
      cases h
      exact hfile
    | none =>
      rw [hfile] at h
      exact ih h

/-- **What holds of every registration**: of those of a name that may come
up, where the names of every file may. -/
structure Holds (env : Environment) (dirs : List Bytes) (P : Registration → Prop)
    (Q : Bytes → Prop) : Prop where
  plain : ∀ index soname, Q soname → P { index, soname }
  tried : ∀ index soname, Q soname → P
    { index, soname
      tried := (env.tryDirs soname dirs).1
      path := (env.tryDirs soname dirs).2.map Prod.fst }
  needed : ∀ path lib, env.openat path = some (.library lib) → ∀ name ∈ lib.needed, Q name

variable {P : Registration → Prop} {Q : Bytes → Prop}

theorem loadTrace_all (h : Holds env dirs P Q) (hname : Q soname) :
    (loadTrace env dirs fuel soname objects).All P := by
  induction fuel generalizing soname objects with
  | zero => exact fun r hr => nomatch hr
  | succ fuel ih =>
    rw [loadTrace]
    split_ifs
    · exact fun r hr => nomatch hr
    · exact fun r hr => nomatch hr
    · exact .note (h.plain _ _ hname) fun r hr => nomatch hr
    · refine .note (h.tried _ _ hname) ?_
      split
      · exact fun r hr => nomatch hr
      · exact fun r hr => nomatch hr
      next path lib hfound =>
      split
      · exact fun r hr => nomatch hr
      · refine Traced.all_forEach (fun name hmem objects => ih ?_) _
        exact h.needed path lib (openat_of_tryDirs hfound) name (List.mem_of_mem_take hmem)

theorem session_all (h : Holds env dirs P Q) (hexe : Q exe.name)
    (hneeded : ∀ name ∈ exe.image.needed, Q name)
    (hfiles : ∀ filename, some filename ∈ filenames → Q (getBasename filename)) :
    (session env dirs fuel exe filenames).All P := by
  refine .bind (.note (h.plain _ _ hexe) (.bind ?_ fun objects => fun r hr => nomatch hr)) ?_
  · exact Traced.all_forEach
      (fun name hmem objects => loadTrace_all h (hneeded name (List.mem_of_mem_take hmem))) _
  · refine Traced.all_forEach fun filename hmem objects => ?_
    rw [dlopenTrace.eq_def]
    split
    · exact fun r hr => nomatch hr
    · dsimp only
      split_ifs
      · exact fun r hr => nomatch hr
      · exact loadTrace_all h (hfiles _ hmem)

end Runs

/-! ## A long name -/

/-- An executable that is started by a name of 140 bytes. -/
def longNamed : Executable where
  argv0 := some (List.replicate 140 97)
  loadBase := 0
  image := {}

theorem length_longNamed : longNamed.name.length = 140 :=
  List.length_replicate

/-- A table of one record of zeros. -/
def emptyTable : Memory where
  byte a := if 0x10000 ≤ a ∧ a < 0x10000 + recordSize then some 0 else none
  below a h := by
    by_contra hbig
    rw [recordSize, if_neg (by omega)] at h
    cases h

end Linker

end Muplar
