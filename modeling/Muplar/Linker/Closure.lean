import Muplar.Linker.Process
/-!
# The linker — the table over whole runs

What holds of the table of objects when the executable starts, and after
any calls of `lnk_dlopen`: each name is in it once, it has room for all
that it has, whatever one of its objects needs is in it, and each object
has been relocated once. Three system libraries are entered as names
only, by design, and so what only they need is not loaded.
-/

namespace Muplar

namespace Linker

/-- An object before it has its place in the TLS block. -/
def Object.unplaced (obj : Object) : Object :=
  { obj with tlsOffset := 0 }

/-- **The invariant of the process.** -/
structure Process.Sound (env : Environment) (exe : Executable) (p : Process) : Prop where
  table : ∃ added, p.objects.map Object.unplaced = exe.object :: added ∧
    ∀ obj ∈ added, Origin env obj
  distinct : (sonames p.objects).Nodup
  bounded : p.objects.length ≤ maxObjects
  closed : ∀ obj ∈ p.objects, ∀ name ∈ obj.needed, name ∈ sonames p.objects
  relocated : p.relocated = List.range p.objects.length

section Run

variable {env : Environment} {exe : Executable} {p q : Process} {old new added : List Object}
  {fuel : ℕ}

/-! ## The start -/

theorem map_assignTls {α : Type} {f : Object → α}
    (hf : ∀ obj offset, f { obj with tlsOffset := offset } = f obj) (current : UInt64)
    (objects : List Object) : (assignTls current objects).map f = objects.map f := by
  induction objects generalizing current with
  | nil => rfl
  | cons obj objects ih =>
    rw [assignTls]
    split
    · rw [List.map_cons, List.map_cons, hf, ih]
    · rw [List.map_cons, List.map_cons, ih]

theorem Origin.unplaced_eq {obj : Object} (h : Origin env obj) : obj.unplaced = obj := by
  cases h <;> rfl

theorem map_unplaced_of_origin (h : ∀ obj ∈ added, Origin env obj) :
    added.map Object.unplaced = added :=
  (List.map_congr_left fun obj hobj => (h obj hobj).unplaced_eq).trans (List.map_id' added)

/-- What the executable needs is loaded after it. -/
theorem needed_extends {objects : List Object}
    (h : (exe.object.needed.foldlM (fun objects name => loadNeededSo env fuel name objects)
      [exe.object]).run = some (.ok objects)) :
    ∃ added, Extends env [exe.object] objects added ∧
      ∀ name ∈ exe.object.needed, name ∈ sonames objects :=
  foldlM_extends (fun _ _ _ => loadNeededSo_extends) _ h

theorem start_sound {objects : List Object} (hextends : Extends env [exe.object] objects added)
    (hneeded : ∀ name ∈ exe.object.needed, name ∈ sonames objects) :
    (Process.start objects).Sound env exe := by
  have hnames : sonames (Process.start objects).objects = sonames objects :=
    map_assignTls (fun _ _ => rfl) 256 objects
  have hlength : (Process.start objects).objects.length = objects.length := by
    have hlen := congrArg List.length hnames
    rwa [sonames, sonames, List.length_map, List.length_map] at hlen
  refine ⟨⟨added, ?_, hextends.origin⟩, ?_, ?_, fun obj hobj name hname => ?_, ?_⟩
  · show (assignTls 256 objects).map Object.unplaced = _
    rw [map_assignTls (fun _ _ => rfl), hextends.grown, List.map_append,
      map_unplaced_of_origin hextends.origin]
    rfl
  · rw [hnames]
    exact hextends.distinct (List.nodup_singleton _)
  · rw [hlength]
    exact hextends.bounded (show 1 ≤ maxObjects by decide)
  · rw [hnames]
    have hsame : (Process.start objects).objects.map (·.needed) = objects.map (·.needed) :=
      map_assignTls (fun _ _ => rfl) 256 objects
    have hmem : obj.needed ∈ objects.map (·.needed) := by
      rw [← hsame]
      exact List.mem_map_of_mem hobj
    obtain ⟨o, ho, hoeq⟩ := List.mem_map.mp hmem
    rw [← hoeq] at hname
    rw [hextends.grown] at ho
    rcases List.mem_append.mp ho with ho | ho
    · rw [List.mem_singleton.mp ho] at hname
      exact hneeded name hname
    · exact hextends.closed o ho name hname
  · have hpos : 0 < (Process.start objects).objects.length := by
      rw [hlength, hextends.grown, List.length_append, List.length_singleton]
      omega
    show 0 :: List.range' 1 ((Process.start objects).objects.length - 1) = _
    obtain ⟨n, hn⟩ : ∃ n, (Process.start objects).objects.length = n + 1 :=
      ⟨_, (Nat.succ_pred_eq_of_pos hpos).symm⟩
    rw [hn, Nat.add_sub_cancel, List.range_eq_range', List.range'_succ]

theorem linkerMain_sound (h : (linkerMain env exe fuel).run = some (.ok p)) : p.Sound env exe := by
  rw [linkerMain] at h
  split at h
  · cases h
  rcases Loop.run_bind_cases h with ⟨e, -, he⟩ | ⟨objects, hobjects, hp⟩
  · cases he
  cases hp
  obtain ⟨added, hextends, hneeded⟩ := needed_extends hobjects
  exact start_sound hextends hneeded

theorem linkerMain_halts (env : Environment) (exe : Executable) :
    ∃ out, Loop.Yields (linkerMain env exe) out := by
  have hload : ∃ out, (exe.object.needed.foldlM
      (fun objects name => loadNeededSo env maxObjects name objects) [exe.object]).run = some out :=
    foldlM_halts (fun name old new => loadNeededSo_extends) (fun name old => loadNeededSo_halts) _
      (show 1 ≤ maxObjects by decide) (Nat.lt_succ_self _)
  obtain ⟨out, hout⟩ := hload
  by_cases hlong : sonameSize ≤ exe.name.length
  · refine ⟨.error .overrun, maxObjects, ?_⟩
    rw [linkerMain, if_pos hlong]
    rfl
  · cases out with
    | error stop =>
      refine ⟨.error stop, maxObjects, ?_⟩
      rw [linkerMain, if_neg hlong]
      exact Loop.run_bind_error hout
    | ok objects =>
      refine ⟨.ok (.start objects), maxObjects, ?_⟩
      rw [linkerMain, if_neg hlong]
      exact Loop.run_bind_ok hout

/-- Where capacity suffices, the start comes to its end. -/
theorem linkerMain_ok {names : List Bytes} (h : Suffices env exe names) :
    ∃ p, Loop.Yields (linkerMain env exe) (.ok p) := by
  have hroot : Within env exe [exe.object] :=
    ⟨List.mem_singleton.mpr rfl, fun n hn => by rw [List.mem_singleton.mp hn]; exact .refl,
      List.nodup_singleton _⟩
  have hneeds : env.needs exe exe.name = exe.object.needed := if_pos rfl
  have hload : ∃ objects, (exe.object.needed.foldlM
      (fun objects name => loadNeededSo env maxObjects name objects) [exe.object]).run =
        some (.ok objects) ∧ Within env exe objects ∧ 1 ≤ objects.length :=
    foldlM_ok (fun name old hname hold => loadNeededSo_ok h hname hold) _
      (fun n hn => .tail .refl (by rw [hneeds]; exact hn)) hroot (Nat.lt_succ_self _)
  obtain ⟨objects, hobjects, -⟩ := hload
  refine ⟨.start objects, maxObjects, ?_⟩
  rw [linkerMain, if_neg (Nat.not_le.mpr (h.fits _ .refl))]
  exact Loop.run_bind_ok hobjects

/-! ## Later calls -/

theorem sonames_unplaced (objects : List Object) :
    sonames (objects.map Object.unplaced) = sonames objects := by
  rw [sonames, sonames, List.map_map]
  rfl

/-- What one more library adds. -/
theorem Process.Sound.extend (h : p.Sound env exe) (hextends : Extends env p.objects new added) :
    Process.Sound env exe
      { objects := new
        relocated := p.relocated ++ List.range' p.objects.length (new.length - p.objects.length) } := by
  obtain ⟨before, htable, horigin⟩ := h.table
  refine ⟨⟨before ++ added, ?_, fun obj hobj => ?_⟩, hextends.distinct h.distinct,
    hextends.bounded h.bounded, fun obj hobj name hname => ?_, ?_⟩
  · show new.map Object.unplaced = _
    rw [hextends.grown, List.map_append, htable, map_unplaced_of_origin hextends.origin,
      List.cons_append]
  · exact (List.mem_append.mp hobj).elim (horigin obj) (hextends.origin obj)
  · rw [hextends.grown] at hobj
    rcases List.mem_append.mp hobj with hobj | hobj
    · exact hextends.mem (h.closed obj hobj name hname)
    · exact hextends.closed obj hobj name hname
  · have hlen := hextends.length_le
    have happend := List.range'_append_1 (s := 0) (m := p.objects.length)
      (n := new.length - p.objects.length)
    rw [Nat.zero_add, Nat.add_sub_cancel' hlen] at happend
    show p.relocated ++ _ = List.range new.length
    rw [h.relocated, List.range_eq_range', List.range_eq_range', happend]

theorem lnkDlopen_sound {filename : Option Bytes} {i : Option ℕ} (h : p.Sound env exe)
    (hopen : (lnkDlopen env filename p fuel).run = some (.ok (i, q))) :
    q.Sound env exe ∧ ∃ added, q.objects = p.objects ++ added ∧ ∀ obj ∈ added, Origin env obj := by
  cases filename with
  | none =>
    cases hopen
    exact ⟨h, [], (List.append_nil _).symm, fun _ hobj => absurd hobj List.not_mem_nil⟩
  | some filename =>
    rw [lnkDlopen] at hopen
    simp only at hopen
    split at hopen
    · cases hopen
      exact ⟨h, [], (List.append_nil _).symm, fun _ hobj => absurd hobj List.not_mem_nil⟩
    rcases Loop.run_bind_cases hopen with ⟨e, -, he⟩ | ⟨objects, hobjects, hq⟩
    · cases he
    cases hq
    obtain ⟨added, hextends, -⟩ := loadNeededSo_extends hobjects
    exact ⟨h.extend hextends, added, hextends.grown, hextends.origin⟩

theorem lnkDlopen_halts (h : p.Sound env exe) (filename : Option Bytes) :
    ∃ out, (lnkDlopen env filename p (maxObjects + 1)).run = some out := by
  have hbounded := h.bounded
  cases filename with
  | none => exact ⟨_, rfl⟩
  | some filename =>
    rw [lnkDlopen]
    simp only
    split
    · exact ⟨_, rfl⟩
    have hload : ∃ out, (loadNeededSo env (maxObjects + 1) (getBasename filename) p.objects).run =
        some out := loadNeededSo_halts hbounded (by omega)
    obtain ⟨out, hout⟩ := hload
    cases out with
    | error stop => exact ⟨_, Loop.run_bind_error hout⟩
    | ok objects => exact ⟨_, Loop.run_bind_ok hout⟩

/-- Later calls keep the invariant, and the table grows at its end. -/
theorem dlopenAll_sound {filenames : List (Option Bytes)} (h : p.Sound env exe)
    (hopen : (dlopenAll env filenames p fuel).run = some (.ok q)) :
    q.Sound env exe ∧ ∃ added, q.objects = p.objects ++ added ∧ ∀ obj ∈ added, Origin env obj := by
  rw [dlopenAll] at hopen
  induction filenames generalizing p with
  | nil =>
    cases hopen
    exact ⟨h, [], (List.append_nil _).symm, fun _ hobj => absurd hobj List.not_mem_nil⟩
  | cons filename filenames ih =>
    rw [List.foldlM_cons] at hopen
    rcases Loop.run_bind_cases hopen with ⟨e, -, he⟩ | ⟨mid, hmid, hrest⟩
    · cases he
    rcases Loop.run_bind_cases hmid with ⟨e, -, he⟩ | ⟨⟨i, p'⟩, hfirst, hp⟩
    · cases he
    cases hp
    obtain ⟨hsound, added, hadded, horigin⟩ := lnkDlopen_sound h hfirst
    obtain ⟨hsound', later, hlater, horigin'⟩ := ih hsound hrest
    refine ⟨hsound', added ++ later, by rw [hlater, hadded, List.append_assoc], fun obj hobj => ?_⟩
    exact (List.mem_append.mp hobj).elim (horigin obj) (horigin' obj)

theorem dlopenAll_halts (h : p.Sound env exe) (filenames : List (Option Bytes)) :
    ∃ out, Loop.Yields (dlopenAll env filenames p) out := by
  suffices hrun : ∃ out, (dlopenAll env filenames p (maxObjects + 1)).run = some out from
    hrun.imp fun out hout => ⟨maxObjects + 1, hout⟩
  rw [dlopenAll]
  induction filenames generalizing p with
  | nil => exact ⟨_, rfl⟩
  | cons filename filenames ih =>
    rw [List.foldlM_cons]
    obtain ⟨out, hout⟩ := lnkDlopen_halts h filename
    cases out with
    | error stop => exact ⟨_, Loop.run_bind_error (Loop.run_bind_error hout)⟩
    | ok opened =>
      have hfirst : (lnkDlopen env filename p (maxObjects + 1) >>= fun opened => pure opened.2).run =
          some (.ok opened.2) := Loop.run_bind_ok hout
      rw [Loop.run_bind_ok hfirst]
      exact ih (lnkDlopen_sound h (i := opened.1) hout).1

/-! ## What is reached -/

/-- The object of a name: the executable, or one that came from where the
name is searched. -/
theorem Process.Sound.object (h : p.Sound env exe) {name : Bytes}
    (hname : name ∈ sonames p.objects) : ∃ obj ∈ p.objects, obj.soname = name ∧
      (name = exe.name ∧ obj.unplaced = exe.object ∨
        name ≠ exe.name ∧ Origin env obj.unplaced) := by
  obtain ⟨added, htable, horigin⟩ := h.table
  obtain ⟨obj, hobj, rfl⟩ := List.mem_map.mp hname
  have hdistinct := h.distinct
  rw [← sonames_unplaced, htable, sonames, List.map_cons, List.nodup_cons] at hdistinct
  have hmem : obj.unplaced ∈ exe.object :: added := by
    rw [← htable]
    exact List.mem_map_of_mem hobj
  refine ⟨obj, hobj, rfl, ?_⟩
  rcases List.mem_cons.mp hmem with heq | hmem
  · exact Or.inl ⟨congrArg Object.soname heq, heq⟩
  · refine Or.inr ⟨fun heq => hdistinct.1 ?_, horigin _ hmem⟩
    exact List.mem_map.mpr ⟨_, hmem, heq⟩

/-- An object asks for what its name stands for. -/
theorem Origin.needs {obj : Object} (h : Origin env obj) (hname : obj.soname ≠ exe.name) :
    env.needs exe obj.soname = obj.needed := by
  cases h with
  | phantom h => exact Environment.needs_of_phantom hname h
  | loaded hsystem hfound => exact Environment.needs_of_found hname hsystem hfound

/-- Whatever is reached from the executable is in the table. -/
theorem Process.Sound.reaches (h : p.Sound env exe) {name : Bytes} (hreach : Reaches env exe name) :
    name ∈ sonames p.objects := by
  induction hreach with
  | refl =>
    obtain ⟨added, htable, -⟩ := h.table
    rw [← sonames_unplaced, htable]
    exact List.mem_cons_self
  | tail _ hneeds ih =>
    obtain ⟨obj, hobj, rfl, hfrom⟩ := h.object ih
    refine h.closed obj hobj _ ?_
    have hneeded : obj.unplaced.needed = obj.needed := rfl
    rcases hfrom with ⟨hname, heq⟩ | ⟨hname, horigin⟩
    · rw [← hneeded, heq]
      rwa [Environment.needs, if_pos hname] at hneeds
    · rw [← hneeded, ← horigin.needs hname]
      exact hneeds

end Run

/-- **The table is closed.** Start-up ends, and comes to a process where
capacity suffices. Any later calls of `lnk_dlopen` end too, and after them
the table has each name once and no more names than it has room for; what
is reached from the executable is in it, from where its name is searched;
whatever an object needs is in it; and each object has been relocated
once, in order. -/
theorem dependency_closure (env : Environment) (exe : Executable) :
    (∃ out, Loop.Yields (linkerMain env exe) out) ∧
      (∀ names, Suffices env exe names → ∃ p, Loop.Yields (linkerMain env exe) (.ok p)) ∧
      ∀ p, Loop.Yields (linkerMain env exe) (.ok p) → ∀ filenames,
        (∃ out, Loop.Yields (dlopenAll env filenames p) out) ∧
          ∀ q, Loop.Yields (dlopenAll env filenames p) (.ok q) →
            (sonames q.objects).Nodup ∧ q.objects.length ≤ maxObjects ∧
              (∀ name, Reaches env exe name → ∃ obj ∈ q.objects, obj.soname = name ∧
                (name = exe.name ∨ Origin env obj.unplaced)) ∧
              (∀ obj ∈ q.objects, ∀ name ∈ obj.needed, name ∈ sonames q.objects) ∧
              q.relocated = List.range q.objects.length := by
  refine ⟨linkerMain_halts env exe, fun names => linkerMain_ok, fun p hp filenames => ?_⟩
  obtain ⟨fuel, hp⟩ := hp
  have hstart := linkerMain_sound hp
  refine ⟨dlopenAll_halts hstart filenames, fun q hq => ?_⟩
  obtain ⟨fuel', hq⟩ := hq
  have hsound := (dlopenAll_sound hstart hq).1
  refine ⟨hsound.distinct, hsound.bounded, fun name hreach => ?_, hsound.closed, hsound.relocated⟩
  obtain ⟨obj, hobj, hsoname, hfrom⟩ := hsound.object (hsound.reaches hreach)
  exact ⟨obj, hobj, hsoname, hfrom.imp And.left And.right⟩

/-! ## Two small systems -/

/-- Files that can all be loaded. -/
def disk (files : List (Bytes × Library)) : Environment where
  openat path := (files.lookup path).map .library
  mmap _ _ := some 0x10000

theorem search_disk {files : List (Bytes × Library)} {name path : Bytes} {file : File}
    (h : (disk files).search name = some (path, file)) : ∃ lib, file = .library lib := by
  obtain ⟨dir, -, hdir⟩ := List.exists_of_findSome?_eq_some h
  obtain ⟨found, hfound, heq⟩ := Option.map_eq_some_iff.mp hdir
  obtain ⟨lib, -, rfl⟩ := Option.map_eq_some_iff.mp hfound
  cases heq
  exact ⟨lib, rfl⟩

/-- Two libraries that need each other, and themselves. -/
def cycle : Environment :=
  disk [(ascii "/system/lib64/liba.so", { needed := [ascii "libb.so"] }),
    (ascii "/vendor/lib64/libb.so", { needed := [ascii "liba.so", ascii "libb.so"] })]

def app (needed : List Bytes) : Executable where
  argv0 := some (ascii "app")
  loadBase := 0
  image := { needed }

def cycleNames : List Bytes :=
  [ascii "app", ascii "liba.so", ascii "libb.so"]

theorem cycle_suffices : Suffices cycle (app [ascii "liba.so"]) cycleNames := by
  have hlisted : ∀ name, Reaches cycle (app [ascii "liba.so"]) name → name ∈ cycleNames := by
    intro name hreach
    induction hreach with
    | refl => decide
    | tail _ hneeds ih =>
      have hclosed : ∀ asks ∈ cycleNames, ∀ name ∈ cycle.needs (app [ascii "liba.so"]) asks,
          name ∈ cycleNames := by decide
      exact hclosed _ ih _ hneeds
  have hshort : ∀ name ∈ cycleNames, name.length < sonameSize := by decide
  refine ⟨hlisted, by decide, fun name hreach => hshort name (hlisted name hreach), ?_⟩
  intro name _ _ _ path file hfound
  obtain ⟨lib, rfl⟩ := search_disk hfound
  exact ⟨lib, rfl, fun _ h => nomatch h⟩

theorem dependency_closure_cycle :
    ∃ p, Loop.Yields (linkerMain cycle (app [ascii "liba.so"])) (.ok p) ∧
      (∃ out, Loop.Yields (dlopenAll cycle [some (ascii "/vendor/lib64/libb.so"), none] p) out) := by
  have hclosure := dependency_closure cycle (app [ascii "liba.so"])
  obtain ⟨p, hp⟩ := hclosure.2.1 cycleNames cycle_suffices
  exact ⟨p, hp, (hclosure.2.2 p hp _).1⟩

/-- **A system library is not followed.** Both files can be found, but what
`libdl.so` needs is not in the table. -/
theorem system_lib_not_followed :
    let env := disk [(ascii "/system/lib64/libdl.so", { needed := [ascii "ld-android.so"] }),
      (ascii "/system/lib64/ld-android.so", {})]
    env.search (ascii "libdl.so") = some (ascii "/system/lib64/libdl.so",
        .library { needed := [ascii "ld-android.so"] }) ∧
      env.search (ascii "ld-android.so") = some (ascii "/system/lib64/ld-android.so", .library {}) ∧
      ∃ p, Loop.Yields (linkerMain env (app [ascii "libdl.so"])) (.ok p) ∧
        sonames p.objects = [ascii "app", ascii "libdl.so"] :=
  ⟨rfl, rfl, _, ⟨2, rfl⟩, rfl⟩

end Linker

end Muplar
