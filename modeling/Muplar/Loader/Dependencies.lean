import Mathlib.Data.List.Nodup
import Mathlib.Data.List.Pairwise
import Mathlib.Data.Prod.Lex
import Muplar.Common.Loop
import Muplar.Loader.Map
/-!
# The direct `.so` loader — dependencies

`load_direct_so_dependencies` goes over the objects it has, and maps
what they need behind them, each behind the one before. Whether a library
is there already it tells by name: its soname, or the last name of its
path. What it opens it finds by path. The two agree for names that are
one file name; a name with a directory in it is found as a file and never
recognised as one that is there.
-/

namespace Muplar

namespace Loader

/-! ## The loop -/

/-- The files of the host: which file a path opens, if any, and what is in
it. -/
structure LibraryFiles (ι : Type) where
  resolve : Bytes → Option ι
  contents : ι → Bytes

/-- What the loader is called with, and the guest's memory it maps into. -/
structure Search (ι : Type) where
  files : LibraryFiles ι
  searchDirs : List Bytes
  /-- `android_builtin_soname` -/
  builtin : Bytes → Bool
  tables : PageTables
  guestSize : UInt64

/-- `dir / name`. -/
def joinPath (dir name : Bytes) : Bytes :=
  if name.head? = some 47 then name
  else if dir.getLast? = some 47 then dir ++ name
  else dir ++ 47 :: name

/-- `direct_so_already_loaded`. -/
def directSoAlreadyLoaded (objects : List DirectSoObject) (soname : Bytes) : Bool :=
  objects.any fun obj => obj.soname = soname || pathFilename obj.path = soname

/-- The variables of the loop: the objects, where the next one goes, the
index, and the names that are left of the object there. -/
structure Loading where
  objects : List DirectSoObject
  nextBase : UInt64
  i : ℕ
  pending : List Bytes

section Run

variable {ι : Type} (env : Search ι)

/-- `direct_so_needed_names`. -/
def directSoNeededNames (obj : DirectSoObject) : List Bytes :=
  match env.files.resolve obj.path with
  | none => []
  | some file =>
    (obj.dyn.neededOff.map fun off =>
      readDynString (env.files.contents file) obj.phdrs obj.dyn off).filter (· ≠ [])

/-- `find_direct_so_dependency`. -/
def findDirectSoDependency (soname : Bytes) : Option Bytes :=
  env.searchDirs.findSome? fun dir =>
    if dir = [] then none
    else if (env.files.resolve (joinPath dir soname)).isSome then some (joinPath dir soname)
    else none

/-- One name of an object, or the step to the next object. It returns
whether all went well, and the objects. -/
def dependencyBody (s : Loading) : Except Empty (Loading ⊕ Bool × List DirectSoObject) :=
  match s.pending with
  | [] =>
    match s.objects[s.i + 1]? with
    | none => .ok (.inr (true, s.objects))
    | some obj => .ok (.inl { s with i := s.i + 1, pending := directSoNeededNames env obj })
  | needed :: pending =>
    if directSoAlreadyLoaded s.objects needed then .ok (.inl { s with pending })
    else match findDirectSoDependency env needed with
      | none =>
        if env.builtin needed then .ok (.inl { s with pending }) else .ok (.inr (false, s.objects))
      | some path =>
        let contents := ((env.files.resolve path).map env.files.contents).getD []
        match parseDirectSoMetadata path contents with
        | none => .ok (.inr (false, s.objects))
        | some dep =>
          let runtimeMin := alignUpU64 s.nextBase block2MiB
          let mapping := mapDirectSoObject env.tables env.guestSize contents dep runtimeMin
          if !mapping.ok then .ok (.inr (false, s.objects))
          else
            .ok (.inl
              { s with
                objects := s.objects ++ [mapping.obj]
                nextBase := alignUpU64 (mapping.obj.loadBase + mapping.obj.loadMax) block2MiB
                pending })

/-- `next_base`, before the loop. -/
def firstBase (objects : List DirectSoObject) : UInt64 :=
  objects.foldl (fun base obj => max base (alignUpU64 (obj.loadBase + obj.loadMax) block2MiB))
    0x180000000

def Loading.start (objects : List DirectSoObject) : Loading where
  objects := objects
  nextBase := firstBase objects
  i := 0
  pending := (objects.head?.map (directSoNeededNames env)).getD []

/-- `load_direct_so_dependencies`. -/
def loadDirectSoDependencies (objects : List DirectSoObject) :
    Loop.Fueled Empty (Bool × List DirectSoObject) :=
  Loop.run (dependencyBody env) (.start env objects)

/-- **What one turn does.** A name is passed over, a library is mapped
behind the others, or the loop goes on to the next object. -/
inductive Turn : Loading → Loading → Prop
  | passed {s : Loading} {needed : Bytes} {pending : List Bytes}
      (hpending : s.pending = needed :: pending)
      (hpassed : directSoAlreadyLoaded s.objects needed = true ∨
        findDirectSoDependency env needed = none) :
      Turn s { s with pending }
  | next {s : Loading} {obj : DirectSoObject} (hpending : s.pending = [])
      (hobj : s.objects[s.i + 1]? = some obj) :
      Turn s { s with i := s.i + 1, pending := directSoNeededNames env obj }
  | mapped {s : Loading} {needed path : Bytes} {pending : List Bytes} {file : ι} {dep : DirectSoObject}
      (hpending : s.pending = needed :: pending)
      (hloaded : directSoAlreadyLoaded s.objects needed = false)
      (hfound : findDirectSoDependency env needed = some path)
      (hfile : env.files.resolve path = some file)
      (hparse : parseDirectSoMetadata path (env.files.contents file) = some dep)
      (hroom : mapEnd dep (alignUpU64 s.nextBase block2MiB) ≤ env.guestSize) :
      Turn s
        { s with
          objects := s.objects ++
            [{ dep with loadBase := loadBaseAt dep (alignUpU64 s.nextBase block2MiB) }]
          nextBase := mapEnd dep (alignUpU64 s.nextBase block2MiB)
          pending }

variable {env}

theorem mapDirectSoObject_ok {tables : PageTables} {guestSize runtimeMin : UInt64} {file : Bytes}
    {obj : DirectSoObject} (h : (mapDirectSoObject tables guestSize file obj runtimeMin).ok = true) :
    mapEnd obj runtimeMin ≤ guestSize ∧
      (mapDirectSoObject tables guestSize file obj runtimeMin).obj =
        { obj with loadBase := loadBaseAt obj runtimeMin } := by
  rw [mapDirectSoObject] at h ⊢
  by_cases hsize : guestSize < mapEnd obj runtimeMin
  · simp only [if_pos hsize] at h
    cases h
  refine ⟨UInt64.not_lt.mp hsize, ?_⟩
  simp only [if_neg hsize]
  split
  · rfl
  · split <;> rfl

theorem resolve_of_found {needed path : Bytes} (h : findDirectSoDependency env needed = some path) :
    ∃ dir file, path = joinPath dir needed ∧ env.files.resolve path = some file := by
  obtain ⟨dir, -, hdir⟩ := List.exists_of_findSome?_eq_some h
  split at hdir
  · cases hdir
  split at hdir
  · next hsome =>
    cases hdir
    obtain ⟨file, hfile⟩ := Option.isSome_iff_exists.mp hsome
    exact ⟨dir, file, rfl, hfile⟩
  · cases hdir

theorem turn_of_body {s t : Loading} (h : dependencyBody env s = .ok (.inl t)) : Turn env s t := by
  rw [dependencyBody] at h
  split at h
  · next hpending =>
    split at h
    · cases h
    next obj hobj =>
    cases h
    exact .next hpending hobj
  next needed pending hpending =>
  split at h
  · next hloaded =>
    cases h
    exact .passed hpending (Or.inl hloaded)
  next hloaded =>
  split at h
  · next hnone =>
    split at h
    · cases h
      exact .passed hpending (Or.inr hnone)
    · cases h
  next path hfound =>
  obtain ⟨dir, file, -, hfile⟩ := resolve_of_found hfound
  simp only [hfile, Option.map_some, Option.getD_some] at h
  split at h
  · cases h
  next dep hparse =>
  split at h
  · cases h
  next hok =>
  obtain ⟨hroom, hobj⟩ := mapDirectSoObject_ok (by simpa using hok)
  cases h
  rw [hobj]
  exact .mapped hpending (by simpa using hloaded) hfound hfile hparse hroom

/-! ## Where the objects are -/

/-- The first address of an object in the guest. -/
def DirectSoObject.low (obj : DirectSoObject) : ℕ :=
  (obj.loadBase + obj.loadMin).toNat

/-- The end of an object: it spans what its addresses span. -/
def DirectSoObject.high (obj : DirectSoObject) : ℕ :=
  obj.low + (obj.loadMax - obj.loadMin).toNat

/-- No two objects share an address. -/
def Disjoint (objects : List DirectSoObject) : Prop :=
  objects.Pairwise fun a b => a.high ≤ b.low ∨ b.high ≤ a.low

/-- The addresses of an object are a range with something in it, and not
most of the address space. -/
structure Proper (obj : DirectSoObject) : Prop where
  nonempty : obj.loadMin < obj.loadMax
  small : (obj.loadMax - obj.loadMin).toNat < 2 ^ 62

/-- **What the search is asked to be.** Every library it can find has
proper headers, and the guest's memory is not most of the address
space. -/
structure Search.Proper (env : Search ι) : Prop where
  headers : ∀ path file dep, env.files.resolve path = some file →
    parseDirectSoMetadata path (env.files.contents file) = some dep → Loader.Proper dep
  guest : env.guestSize.toNat ≤ 2 ^ 62

/-- **The invariant of the loop.** The objects are apart, and all of them
end before the block where the next one goes. -/
structure Loading.Inv (s : Loading) : Prop where
  aligned : 2 ^ 21 ∣ s.nextBase.toNat
  bounded : s.nextBase.toNat ≤ 2 ^ 62
  below : ∀ obj ∈ s.objects, obj.high ≤ s.nextBase.toNat
  apart : Disjoint s.objects

theorem alignUp_of_aligned {base : UInt64} (haligned : 2 ^ 21 ∣ base.toNat)
    (hbounded : base.toNat ≤ 2 ^ 62) : alignUpU64 base block2MiB = base := by
  obtain ⟨hle, hlt, hdvd⟩ := alignUpU64_bounds (by omega : 21 < 64) (a := block2MiB) rfl (x := base)
    (by omega)
  exact UInt64.toNat_inj.mp (by omega)

/-- Where an object is that is mapped at an address. -/
theorem mapped_place {dep : DirectSoObject} {base : UInt64} (hproper : Proper dep)
    (hbounded : base.toNat ≤ 2 ^ 62) :
    let obj := { dep with loadBase := loadBaseAt dep base }
    obj.low = base.toNat ∧ base.toNat < obj.high ∧ obj.high ≤ (mapEnd dep base).toNat ∧
      2 ^ 21 ∣ (mapEnd dep base).toNat := by
  intro obj
  obtain ⟨hnonempty, hsmall⟩ := hproper
  have hlow : obj.loadBase + obj.loadMin = base := UInt64.sub_add_cancel _ _
  have hend : loadBaseAt dep base + dep.loadMax = base + (dep.loadMax - dep.loadMin) := by
    rw [loadBaseAt]
    grind
  have hsum : (base + (dep.loadMax - dep.loadMin)).toNat =
      base.toNat + (dep.loadMax - dep.loadMin).toNat := by
    rw [UInt64.toNat_add, Nat.mod_eq_of_lt (by omega)]
  have hpos : 0 < (dep.loadMax - dep.loadMin).toNat := by
    rw [UInt64.lt_iff_toNat_lt] at hnonempty
    rw [UInt64.toNat_sub]
    have hmax := dep.loadMax.toNat_lt
    omega
  obtain ⟨hle, -, hdvd⟩ := alignUpU64_bounds (by omega : 21 < 64) (a := block2MiB) rfl
    (x := base + (dep.loadMax - dep.loadMin)) (by omega)
  have hhigh : obj.high = base.toNat + (dep.loadMax - dep.loadMin).toNat := by
    rw [DirectSoObject.high, DirectSoObject.low, hlow]
  rw [DirectSoObject.low, hlow, hhigh, mapEnd, hend]
  rw [hsum] at hle
  exact ⟨rfl, by omega, hle, hdvd⟩

theorem Turn.inv (henv : env.Proper) {s t : Loading} (h : Turn env s t) (hs : s.Inv) : t.Inv := by
  cases h with
  | passed => exact ⟨hs.aligned, hs.bounded, hs.below, hs.apart⟩
  | next => exact ⟨hs.aligned, hs.bounded, hs.below, hs.apart⟩
  | @mapped needed path pending file dep hpending hloaded hfound hfile hparse hroom =>
    have halign := alignUp_of_aligned hs.aligned hs.bounded
    obtain ⟨hlow, hpos, hhigh, hdvd⟩ := mapped_place (henv.headers path file dep hfile hparse) hs.bounded
    have hguest := henv.guest
    rw [halign, UInt64.le_iff_toNat_le] at hroom
    have hgrows : s.nextBase.toNat ≤ (mapEnd dep s.nextBase).toNat := by omega
    simp only [halign]
    refine ⟨hdvd, Nat.le_trans hroom hguest, fun obj hobj => ?_, List.pairwise_append.mpr ⟨hs.apart,
      List.pairwise_singleton _ _, fun a ha b hb => Or.inl ?_⟩⟩
    · rcases List.mem_append.mp hobj with hobj | hobj
      · exact Nat.le_trans (hs.below obj hobj) hgrows
      · rw [List.mem_singleton.mp hobj]
        exact hhigh
    · rw [List.mem_singleton.mp hb, hlow]
      exact hs.below a ha

/-- Every turn gets on: memory is used up, objects are done, or names. -/
def Progress (env : Search ι) (s : Loading) : ℕ ×ₗ ℕ ×ₗ ℕ :=
  toLex (env.guestSize.toNat - s.nextBase.toNat, toLex (s.objects.length - s.i, s.pending.length))

theorem Turn.progress (henv : env.Proper) {s t : Loading} (h : Turn env s t) (hs : s.Inv) :
    Progress env t < Progress env s := by
  cases h with
  | passed hpending =>
    refine Prod.Lex.toLex_lt_toLex.mpr (Or.inr ⟨rfl, Prod.Lex.toLex_lt_toLex.mpr (Or.inr ⟨rfl, ?_⟩)⟩)
    show _ < s.pending.length
    rw [hpending]
    exact Nat.lt_succ_self _
  | next hpending hobj =>
    refine Prod.Lex.toLex_lt_toLex.mpr (Or.inr ⟨rfl, Prod.Lex.toLex_lt_toLex.mpr (Or.inl ?_)⟩)
    obtain ⟨hlt, -⟩ := List.getElem?_eq_some_iff.mp hobj
    show s.objects.length - (s.i + 1) < s.objects.length - s.i
    omega
  | @mapped needed path pending file dep hpending hloaded hfound hfile hparse hroom =>
    have halign := alignUp_of_aligned hs.aligned hs.bounded
    obtain ⟨-, hpos, hhigh, -⟩ := mapped_place (henv.headers path file dep hfile hparse) hs.bounded
    rw [halign, UInt64.le_iff_toNat_le] at hroom
    refine Prod.Lex.toLex_lt_toLex.mpr (Or.inl ?_)
    show env.guestSize.toNat - (mapEnd dep (alignUpU64 s.nextBase block2MiB)).toNat < _
    rw [halign]
    omega

/-- The loop ends. -/
theorem dependencyBody_halts (henv : env.Proper) {s : Loading} (hs : s.Inv) :
    Loop.Halts (Loop.run (dependencyBody env) s) :=
  Loop.halts_of_decreasing (InvImage.wf (Progress env) wellFounded_lt)
    (fun _ _ ht hbody => ⟨(turn_of_body hbody).inv henv ht, (turn_of_body hbody).progress henv ht⟩) hs

/-! ## The start -/

/-- An object that is there already, well below the end of the address
space. -/
structure Settled (obj : DirectSoObject) : Prop where
  proper : Proper obj
  bounded : obj.high ≤ 2 ^ 61

/-- The block behind an object. -/
theorem Settled.behind {obj : DirectSoObject} (h : Settled obj) :
    obj.high ≤ (alignUpU64 (obj.loadBase + obj.loadMax) block2MiB).toNat ∧
      (alignUpU64 (obj.loadBase + obj.loadMax) block2MiB).toNat ≤ 2 ^ 62 ∧
      2 ^ 21 ∣ (alignUpU64 (obj.loadBase + obj.loadMax) block2MiB).toNat := by
  have hbounded := h.bounded
  have hhigh : (obj.loadBase + obj.loadMax).toNat = obj.high := by
    have hsplit : obj.loadBase + obj.loadMax =
        obj.loadBase + obj.loadMin + (obj.loadMax - obj.loadMin) := by grind
    rw [DirectSoObject.high, DirectSoObject.low] at hbounded ⊢
    rw [hsplit, UInt64.toNat_add _ (obj.loadMax - obj.loadMin), Nat.mod_eq_of_lt (by omega)]
  obtain ⟨hle, hlt, hdvd⟩ := alignUpU64_bounds (by omega : 21 < 64) (a := block2MiB) rfl
    (x := obj.loadBase + obj.loadMax) (by omega)
  exact ⟨by omega, by omega, hdvd⟩

theorem max_cases (a b : UInt64) : max a b = a ∧ b ≤ a ∨ max a b = b ∧ a ≤ b := by
  have hmax : max a b = if a ≤ b then b else a := rfl
  rw [hmax]
  split
  · next h => exact Or.inr ⟨rfl, h⟩
  · next h => exact Or.inl ⟨rfl, UInt64.le_of_lt (UInt64.not_le.mp h)⟩

theorem foldl_base (objects : List DirectSoObject) (hsettled : ∀ obj ∈ objects, Settled obj)
    (base : UInt64) (haligned : 2 ^ 21 ∣ base.toNat) (hbounded : base.toNat ≤ 2 ^ 62) :
    let next := objects.foldl
      (fun base obj => max base (alignUpU64 (obj.loadBase + obj.loadMax) block2MiB)) base
    2 ^ 21 ∣ next.toNat ∧ next.toNat ≤ 2 ^ 62 ∧ base.toNat ≤ next.toNat ∧
      ∀ obj ∈ objects, obj.high ≤ next.toNat := by
  induction objects generalizing base with
  | nil => exact ⟨haligned, hbounded, Nat.le_refl _, fun _ h => absurd h List.not_mem_nil⟩
  | cons o objects ih =>
    obtain ⟨hhigh, hle, hdvd⟩ := (hsettled o List.mem_cons_self).behind
    have hrest := fun obj hobj => hsettled obj (List.mem_cons_of_mem o hobj)
    rw [List.foldl_cons]
    rcases max_cases base (alignUpU64 (o.loadBase + o.loadMax) block2MiB) with
      ⟨hmax, hcmp⟩ | ⟨hmax, hcmp⟩
    all_goals
      rw [UInt64.le_iff_toNat_le] at hcmp
      rw [hmax]
    · obtain ⟨hd, hb, hg, hall⟩ := ih hrest base haligned hbounded
      refine ⟨hd, hb, hg, fun obj hobj => ?_⟩
      rcases List.mem_cons.mp hobj with rfl | hobj
      · omega
      · exact hall obj hobj
    · obtain ⟨hd, hb, hg, hall⟩ := ih hrest _ hdvd hle
      refine ⟨hd, hb, by omega, fun obj hobj => ?_⟩
      rcases List.mem_cons.mp hobj with rfl | hobj
      · omega
      · exact hall obj hobj

theorem start_inv {objects : List DirectSoObject} (hsettled : ∀ obj ∈ objects, Settled obj)
    (hapart : Disjoint objects) : (Loading.start env objects).Inv := by
  obtain ⟨haligned, hbounded, -, hbelow⟩ := foldl_base objects hsettled 0x180000000
    (by decide) (by decide)
  exact ⟨haligned, hbounded, hbelow, hapart⟩

/-! ## Files that are mapped -/

/-- The file of an object. -/
def fileOf (env : Search ι) (obj : DirectSoObject) : Option ι :=
  env.files.resolve obj.path

/-- **The name test and the file agree.** If the file that is found for
the next name is that of an object, the name is recognised. -/
def Recognises (env : Search ι) (s : Loading) : Prop :=
  ∀ needed path, s.pending.head? = some needed → findDirectSoDependency env needed = some path →
    env.files.resolve path ∈ s.objects.map (fileOf env) →
    directSoAlreadyLoaded s.objects needed = true

theorem parse_path {path contents : Bytes} {obj : DirectSoObject}
    (h : parseDirectSoMetadata path contents = some obj) : obj.path = path := by
  simp only [parseDirectSoMetadata] at h
  split at h
  · cases h
  · split at h
    · cases h
    · split at h
      · cases h
      · obtain rfl := Option.some.inj h
        rfl

theorem Turn.grows {s t : Loading} (h : Turn env s t) : s.objects <+: t.objects := by
  cases h with
  | passed => exact List.prefix_rfl
  | next => exact List.prefix_rfl
  | mapped => exact List.prefix_append _ _

theorem grows_of_visits {s t : Loading} (h : Loop.Visits (dependencyBody env) s t) :
    s.objects <+: t.objects := by
  induction h with
  | refl => exact List.prefix_rfl
  | next hbody _ ih => exact (turn_of_body hbody).grows.trans ih

/-- A file that is mapped is none of those before, just when the name is
recognised where it has to be. -/
theorem Turn.files_nodup {s t : Loading} (h : Turn env s t)
    (hs : (s.objects.map (fileOf env)).Nodup) (hrecognises : Recognises env s) :
    (t.objects.map (fileOf env)).Nodup := by
  cases h with
  | passed => exact hs
  | next => exact hs
  | @mapped needed path pending file dep hpending hloaded hfound hfile hparse hroom =>
    have hnew : env.files.resolve path ∉ s.objects.map (fileOf env) := by
      intro hmem
      have htrue := hrecognises needed path (by rw [hpending]; rfl) hfound hmem
      rw [hloaded] at htrue
      cases htrue
    rw [List.map_append, List.map_singleton, ← List.concat_eq_append]
    refine hs.concat ?_
    show env.files.resolve dep.path ∉ _
    rwa [parse_path hparse]

theorem files_nodup_of_visits {s t : Loading} (h : Loop.Visits (dependencyBody env) s t)
    (hs : (s.objects.map (fileOf env)).Nodup)
    (hrecognises : ∀ u, Loop.Visits (dependencyBody env) s u → Recognises env u) :
    (t.objects.map (fileOf env)).Nodup := by
  induction h with
  | refl => exact hs
  | next hbody _ ih =>
    exact ih ((turn_of_body hbody).files_nodup hs (hrecognises _ (.refl _)))
      fun u hu => hrecognises u (.next hbody hu)

/-- Where the loop goes on and maps no file twice, the name was
recognised. -/
theorem recognises_of_turn {s t : Loading} (hbody : dependencyBody env s = .ok (.inl t))
    (ht : (t.objects.map (fileOf env)).Nodup) : Recognises env s := by
  intro needed path hhead hfound hmem
  by_contra hnot
  have hloaded : directSoAlreadyLoaded s.objects needed = false := by simpa using hnot
  cases turn_of_body hbody with
  | @passed needed' pending hpending hpassed =>
    rw [hpending] at hhead
    cases hhead
    rcases hpassed with hpassed | hpassed
    · exact hnot hpassed
    · rw [hfound] at hpassed
      cases hpassed
  | next hpending hobj =>
    rw [hpending] at hhead
    cases hhead
  | @mapped needed' path' pending file dep hpending hloaded' hfound' hfile hparse hroom =>
    rw [hpending] at hhead
    cases hhead
    rw [hfound] at hfound'
    cases hfound'
    rw [List.map_append, List.map_singleton, List.nodup_append] at ht
    refine ht.2.2 _ hmem _ (List.mem_singleton.mpr rfl) ?_
    show env.files.resolve path = env.files.resolve dep.path
    rw [parse_path hparse]

theorem return_of_body {s : Loading} {out : Bool × List DirectSoObject}
    (h : dependencyBody env s = .ok (.inr out)) :
    out.2 = s.objects ∧ (out.1 = true → s.pending = []) := by
  rw [dependencyBody] at h
  split at h
  · next hpending =>
    split at h
    · cases h
      exact ⟨rfl, fun _ => hpending⟩
    · cases h
  split at h
  · cases h
  split at h
  · split at h
    · cases h
    · cases h
      exact ⟨rfl, fun h => absurd h Bool.false_ne_true⟩
  simp only at h
  split at h
  · cases h
    exact ⟨rfl, fun h => absurd h Bool.false_ne_true⟩
  split at h
  · cases h
    exact ⟨rfl, fun h => absurd h Bool.false_ne_true⟩
  · cases h

/-- What the loop returns has the objects of every state it came to. -/
theorem grows_of_yields {s : Loading} {out : Bool × List DirectSoObject}
    (h : Loop.Yields (Loop.run (dependencyBody env) s) (.ok out)) : s.objects <+: out.2 := by
  obtain ⟨t, hvisits, ht⟩ := Loop.visits_of_yields h
  rw [(return_of_body ht).1]
  exact grows_of_visits hvisits

/-- A run that succeeds and maps no file twice recognised every name. -/
theorem recognises_of_yields {s u : Loading} {final : List DirectSoObject}
    (h : Loop.Yields (Loop.run (dependencyBody env) s) (.ok (true, final)))
    (hfinal : (final.map (fileOf env)).Nodup) (hu : Loop.Visits (dependencyBody env) s u) :
    Recognises env u := by
  rw [Loop.yields_visits hu] at h
  cases hbody : dependencyBody env u with
  | error e => exact e.elim
  | ok next =>
    cases next with
    | inl v =>
      rw [Loop.yields_next hbody] at h
      have hgrown := (grows_of_yields h).map (fileOf env)
      exact recognises_of_turn hbody (hgrown.sublist.nodup hfinal)
    | inr out =>
      have hout := Loop.Yields.unique (Loop.run_steady _ _) h (Loop.yields_return hbody)
      cases hout
      intro needed path hhead
      rw [(return_of_body hbody).2 rfl] at hhead
      cases hhead

end Run

/-- A shared object that needs others: its headers, its dynamic table and
their names. -/
def needing (needed : List Bytes) : Bytes :=
  let entry (tag val : ℕ) := encodeLe 8 tag ++ encodeLe 8 val
  let strings : Bytes := 0 :: needed.flatMap (· ++ [0])
  let strtab := 176 + 16 * (needed.length + 3)
  let offset (i : ℕ) := 1 + ((needed.take i).map (·.length + 1)).sum
  headersOnly
      [{ type := ptLoad, flags := 5, offset := 0, vaddr := 0
         filesz := UInt64.ofNat (strtab + strings.length), memsz := 0x1000 },
       { type := ptDynamic, flags := 6, offset := 176, vaddr := 176
         filesz := UInt64.ofNat (16 * (needed.length + 3)), memsz := 0x1000 }] ++
    entry 5 strtab ++ entry 10 strings.length ++
    (List.range needed.length).flatMap (fun i => entry 1 (offset i)) ++ entry 0 0 ++ strings

/-- Files by their paths. -/
def filesOf (table : List (Bytes × Bytes)) : LibraryFiles ℕ where
  resolve path := table.findIdx? fun file => file.1 = path
  contents i := (table[i]?.map (·.2)).getD []

def searchOf (table : List (Bytes × Bytes)) : Search ℕ where
  files := filesOf table
  searchDirs := [ascii "/app"]
  builtin _ := false
  tables := anyTables
  guestSize := 0x200000000

instance (obj : DirectSoObject) : Decidable (Proper obj) :=
  decidable_of_iff (obj.loadMin < obj.loadMax ∧ (obj.loadMax - obj.loadMin).toNat < 2 ^ 62)
    ⟨fun h => ⟨h.1, h.2⟩, fun h => ⟨h.nonempty, h.small⟩⟩

/-- The library the process was started with. -/
def mainSo (table : List (Bytes × Bytes)) : DirectSoObject :=
  { (parseDirectSoMetadata (ascii "/app/main.so") ((filesOf table).contents 0)).getD (parsed []) with
    loadBase := 0x400000 }

def plainTable : List (Bytes × Bytes) :=
  [(ascii "/app/main.so", needing [ascii "a.so", ascii "b.so"]), (ascii "/app/a.so", needing []),
    (ascii "/app/b.so", needing [ascii "a.so"])]

/-- The same, but `a.so` is in a directory of its own. -/
def nestedTable : List (Bytes × Bytes) :=
  [(ascii "/app/main.so", needing [ascii "sub/a.so", ascii "b.so"]),
    (ascii "/app/sub/a.so", needing []), (ascii "/app/b.so", needing [ascii "sub/a.so"])]

theorem searchOf_proper {table : List (Bytes × Bytes)}
    (h : ∀ file ∈ table, ∀ dep ∈ parseDirectSoMetadata file.1 file.2, Proper dep) :
    (searchOf table).Proper := by
  refine ⟨fun path file dep hfile hparse => ?_,
    show (0x200000000 : UInt64).toNat ≤ 2 ^ 62 by decide⟩
  obtain ⟨hlt, hname, -⟩ := List.findIdx?_eq_some_iff_getElem.mp hfile
  have hpath : table[file].1 = path := by simpa using hname
  have hcontents : (searchOf table).files.contents file = table[file].2 := by
    show (table[file]?.map (·.2)).getD [] = _
    rw [List.getElem?_eq_getElem hlt]
    rfl
  rw [hcontents, ← hpath] at hparse
  exact h _ (List.getElem_mem hlt) dep hparse

theorem mainSo_settled :
    ∀ table ∈ [plainTable, nestedTable], ∀ obj ∈ [mainSo table], Proper obj ∧ obj.high ≤ 2 ^ 61 := by
  decide +kernel

theorem nested_run :
    ((loadDirectSoDependencies (searchOf nestedTable) [mainSo nestedTable] 12).run.map fun out =>
      out.toOption.map fun out => (out.1, out.2.map (·.path))) =
      some (some (true, [ascii "/app/main.so", ascii "/app/sub/a.so", ascii "/app/b.so",
        ascii "/app/sub/a.so"])) := by
  decide +kernel

end Loader

end Muplar
