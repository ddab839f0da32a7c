import Muplar.Daemon.Transactions
/-!
# muplard — the list of surfaces

`surface_list` writes a table, a line for each surface and a tabulator
between the fields, and a reader cuts it at these two bytes. That the
reader finds the fields again rests on what the transactions let into a
name: the fields of a line have neither of the two.
-/

namespace Muplar

namespace Daemon

namespace Transaction

variable {F : Floats}

/-! ## What the map holds -/

/-- A text without the two bytes the list is cut at. -/
def Plain (text : Bytes) : Prop :=
  tabulator ∉ text ∧ newline ∉ text

/-- What the library writes for a number is plain. -/
def PlainNumbers (F : Floats) : Prop :=
  ∀ x, Plain (F.toString x)

/-- A surface as transactions leave it. -/
structure Sound (id : UInt64) (surface : SurfaceState F) : Prop where
  id : id ≠ 0
  width : 0 ≤ surface.width
  height : 0 ≤ surface.height
  name : Plain surface.name

/-- The surfaces are as transactions leave them. -/
def AllSound (surfaces : Surfaces F) : Prop :=
  ∀ id surface, surfaces.lookup id = some surface → Sound id surface

/-- An operation with a plain name. -/
def SurfaceOperation.Plain : SurfaceOperation F → Prop
  | .create _ name _ _ => Transaction.Plain name
  | .remove _ => True
  | .change _ _ => True

theorem Sound.change {id : UInt64} {surface : SurfaceState F} (h : Sound id surface)
    (change : SurfaceChange F) : Sound id (change.apply surface) := by
  cases change <;> exact ⟨h.id, h.width, h.height, h.name⟩

theorem AllSound.insert {surfaces : Surfaces F} (h : AllSound surfaces) {id : UInt64}
    {surface : SurfaceState F} (hsurface : Sound id surface) :
    AllSound (surfaces.insert id surface) := by
  intro key other hlookup
  by_cases hkey : key = id
  · subst hkey
    rw [AList.lookup_insert] at hlookup
    exact Option.some.inj hlookup ▸ hsurface
  · rw [AList.lookup_insert_ne hkey] at hlookup
    exact h key other hlookup

/-- **What one operation keeps.** -/
theorem AllSound.apply {surfaces updated : Surfaces F} (h : AllSound surfaces)
    {operation : SurfaceOperation F} (hplain : operation.Plain)
    (happly : operation.apply surfaces = some updated) : AllSound updated := by
  cases operation with
  | create id name width height =>
    rw [SurfaceOperation.apply] at happly
    split at happly
    · next hnew =>
      cases happly
      exact h.insert ⟨hnew.1, hnew.2.1, hnew.2.2.1, hplain⟩
    · cases happly
  | remove id =>
    cases happly
    intro key surface hlookup
    by_cases hkey : key = id
    · subst hkey
      rw [AList.lookup_erase] at hlookup
      cases hlookup
    · rw [AList.lookup_erase_ne hkey] at hlookup
      exact h key surface hlookup
  | change id what =>
    obtain ⟨surface, hlookup, rfl⟩ := Option.map_eq_some_iff.mp happly
    exact h.insert ((h id surface hlookup).change what)

/-- The name of a surface that is created is a field of its line. -/
theorem mem_of_readFields {fields : List Bytes} {id : UInt64} {name : Bytes} {width height : ℤ}
    (h : readFields (F := F) fields = some (.create id name width height)) : name ∈ fields := by
  unfold readFields at h
  split at h
  · next verb key rest =>
    split_ifs at h with hremove hcreate
    · cases hid : stoull key <;> simp [hid] at h
    · split at h
      · next name' width' height' =>
        have hname : name' = name := by
          cases hid : stoull key <;> cases hwidth : stoi width' <;>
            cases hheight : stoi height' <;> simp [hid, hwidth, hheight] at h
          exact h.2.1
        simp [hname]
      · cases h
    · cases hid : stoull key <;> cases hchange : readChange (F := F) verb rest <;>
        simp [hid, hchange] at h
  · cases h

/-- A line has no newline and its fields no tabulator, so the name it
gives is plain. -/
theorem readOperation_plain {line : Bytes} (hline : newline ∉ line)
    {operation : SurfaceOperation F} (h : readOperation line = some operation) :
    operation.Plain := by
  cases operation with
  | remove id => trivial
  | change id what => trivial
  | create id name width height =>
    have hname : name ∈ line.splitOn tabulator := mem_of_readFields h
    exact ⟨not_mem_of_splitOn hname, fun hmem => hline ((infix_of_mem_splitOn hname).subset hmem)⟩

theorem AllSound.foldlM {lines : List Bytes} (hlines : ∀ line ∈ lines, newline ∉ line)
    {surfaces updated : Surfaces F} (h : AllSound surfaces)
    (hfold : lines.foldlM applyLine surfaces = some updated) : AllSound updated := by
  induction lines generalizing surfaces with
  | nil => exact Option.some.inj hfold ▸ h
  | cons line lines ih =>
    rw [List.foldlM_cons, Option.bind_eq_bind, Option.bind_eq_some_iff] at hfold
    obtain ⟨next, hline, hrest⟩ := hfold
    obtain ⟨operation, hread, happly⟩ := Option.bind_eq_some_iff.mp hline
    have hplain := readOperation_plain (hlines line List.mem_cons_self) hread
    exact ih (fun l hl => hlines l (List.mem_cons_of_mem _ hl)) (h.apply hplain happly) hrest

/-- **What a transaction keeps.** -/
theorem AllSound.served {screen : Screen F} (h : AllSound screen.surfaces) (payload : Bytes) :
    AllSound (Transaction.served screen payload).1.surfaces := by
  cases hfold : (getlines newline payload).foldlM applyLine screen.surfaces with
  | none =>
    simp only [Transaction.served, hfold]
    exact h
  | some surfaces =>
    simp only [Transaction.served, hfold]
    exact h.foldlM (fun _ => not_mem_of_getlines) hfold

/-- The screens transactions lead to from the empty one. -/
inductive Reachable : Screen F → Prop
  | start : Reachable { surfaces := ∅, generation := 0 }
  | next {screen screen' : Screen F} {payload : Bytes} {valid : Bool} {reply : Bytes} :
    Reachable screen →
    Loop.Yields (serveTransaction screen payload) (.ok (screen', valid, reply)) →
    Reachable screen'

theorem steady_serveTransaction (screen : Screen F) (payload : Bytes) :
    Loop.Steady (serveTransaction screen payload) :=
  Loop.steady_bind (Loop.steady_bind (Loop.run_steady _ _) fun _ => Loop.steady_pure _)
    fun _ => Loop.steady_pure _

theorem Reachable.allSound {screen : Screen F} (h : Reachable screen) :
    AllSound screen.surfaces := by
  induction h with
  | start => exact fun id surface hlookup => nomatch hlookup
  | @next screen screen' payload valid reply hreach hyields ih =>
    have hserved := Loop.Yields.unique (steady_serveTransaction screen payload) hyields
      (serveTransaction_yields screen payload)
    have hscreen : screen' = (served screen payload).1 :=
      congrArg Prod.fst (Except.ok.inj hserved)
    rw [hscreen]
    exact ih.served payload

/-- The screen the daemon's variables hold. -/
def screen (v : Variables F) : Screen F where
  surfaces := v.surfaces
  generation := v.surfaceGeneration

/-- **Whatever the daemon serves**, its screen stays one that transactions
lead to. -/
theorem Reachable.serve {env : Environment} {d : State (Variables F)} (h : Reachable (screen d.desk))
    (info : ClientInfo) (op : Opcode) (payload : Bytes) :
    Reachable (screen (serveVariables env d info op payload).desk) := by
  cases op
  case applySurfaceTransaction =>
    obtain ⟨valid, hyields⟩ := serveVariables_transaction env d info payload
    exact .next h hyields
  all_goals exact h

/-! ## The table -/

/-- The seven fields of a line. -/
def surfaceFields (e : Σ _ : UInt64, SurfaceState F) : List Bytes :=
  [decimal e.1.toNat, e.2.name, decimalInt e.2.layer,
    if e.2.visible then ascii "visible" else ascii "hidden",
    F.toString e.2.alpha,
    F.toString e.2.x ++ ascii "," ++ F.toString e.2.y,
    decimalInt e.2.cropWidth ++ ascii "x" ++ decimalInt e.2.cropHeight]

theorem surfaceLine_eq (e : Σ _ : UInt64, SurfaceState F) :
    surfaceLine e.1 e.2 = newline :: [tabulator].intercalate (surfaceFields e) := by
  rw [surfaceLine, surfaceFields, show ascii "\n" = [newline] from rfl,
    show ascii "\t" = [tabulator] from rfl]
  simp [List.intercalate]

theorem plain_append {s t : Bytes} (hs : Plain s) (ht : Plain t) : Plain (s ++ t) :=
  ⟨List.not_mem_append hs.1 ht.1, List.not_mem_append hs.2 ht.2⟩

theorem plain_decimal (n : ℕ) : Plain (decimal n) :=
  ⟨not_mem_decimal (by decide), not_mem_decimal (by decide)⟩

theorem plain_decimalInt (z : ℤ) : Plain (decimalInt z) :=
  ⟨not_mem_decimalInt (by decide) (by decide), not_mem_decimalInt (by decide) (by decide)⟩

theorem surfaceFields_plain (hF : PlainNumbers F) {e : Σ _ : UInt64, SurfaceState F}
    (h : Sound e.1 e.2) : ∀ field ∈ surfaceFields e, Plain field := by
  intro field hfield
  simp only [surfaceFields, List.mem_cons, List.not_mem_nil, or_false] at hfield
  rcases hfield with rfl | rfl | rfl | rfl | rfl | rfl | rfl
  · exact plain_decimal _
  · exact h.name
  · exact plain_decimalInt _
  · split
    · exact ⟨by decide, by decide⟩
    · exact ⟨by decide, by decide⟩
  · exact hF _
  · exact plain_append (plain_append (hF _) ⟨by decide, by decide⟩) (hF _)
  · exact plain_append (plain_append (plain_decimalInt _) ⟨by decide, by decide⟩)
      (plain_decimalInt _)

/-- The order of the lines: by layer, and by id within a layer. -/
def Above (a b : Σ _ : UInt64, SurfaceState F) : Prop :=
  a.2.layer < b.2.layer ∨ a.2.layer = b.2.layer ∧ a.1 < b.1

theorem surfaceBefore_iff {a b : Σ _ : UInt64, SurfaceState F} :
    surfaceBefore a b = true ↔ a.2.layer < b.2.layer ∨ a.2.layer = b.2.layer ∧ a.1 ≤ b.1 := by
  rw [surfaceBefore]
  split
  · next hne =>
    rw [decide_eq_true_eq]
    exact ⟨Or.inl, fun h => h.resolve_right fun h => hne h.1⟩
  · next heq =>
    rw [decide_eq_true_eq]
    have heq' : a.2.layer = b.2.layer := not_not.mp heq
    exact ⟨fun h => .inr ⟨heq', h⟩, fun h => (h.resolve_left (by omega)).2⟩

theorem sorted_ids (surfaces : Surfaces F) :
    (surfaces.entries.mergeSort surfaceBefore).Pairwise fun a b => a.1 ≠ b.1 :=
  List.nodupKeys_iff_pairwise.mp
    ((List.perm_nodupKeys (List.mergeSort_perm _ _)).mpr surfaces.nodupKeys)

/-- No two entries of the map have one id, so the sorted entries are in
strict order. -/
theorem sorted_above (surfaces : Surfaces F) :
    (surfaces.entries.mergeSort surfaceBefore).Pairwise Above := by
  have hsorted : (surfaces.entries.mergeSort surfaceBefore).Pairwise
      fun a b => surfaceBefore a b = true := by
    refine List.pairwise_mergeSort ?_ ?_ _
    · intro a b c hab hbc
      rw [surfaceBefore_iff] at hab hbc ⊢
      rcases hab with hab | ⟨hab, hid⟩ <;> rcases hbc with hbc | ⟨hbc, hid'⟩
      · exact .inl (by omega)
      · exact .inl (by omega)
      · exact .inl (by omega)
      · exact .inr ⟨hab.trans hbc, UInt64.le_trans hid hid'⟩
    · intro a b
      rw [Bool.or_eq_true, surfaceBefore_iff, surfaceBefore_iff]
      rcases Int.lt_trichotomy a.2.layer b.2.layer with hlt | heq | hgt
      · exact .inl (.inl hlt)
      · rcases UInt64.le_total a.1 b.1 with hle | hle
        · exact .inl (.inr ⟨heq, hle⟩)
        · exact .inr (.inr ⟨heq.symm, hle⟩)
      · exact .inr (.inl hgt)
  refine (hsorted.and (sorted_ids surfaces)).imp ?_
  rintro a b ⟨hbefore, hne⟩
  rcases surfaceBefore_iff.mp hbefore with hlt | ⟨heq, hle⟩
  · exact .inl hlt
  · exact .inr ⟨heq, UInt64.lt_of_le_of_ne hle hne⟩

theorem intercalate_cons {sep : UInt8} (head : Bytes) (lines : List Bytes) :
    [sep].intercalate (head :: lines) = head ++ (lines.map (sep :: ·)).flatten := by
  induction lines generalizing head with
  | nil => simp [List.intercalate]
  | cons line lines ih =>
    have hcons : [sep].intercalate (head :: line :: lines) =
        head ++ sep :: [sep].intercalate (line :: lines) := by
      simp [List.intercalate]
    rw [hcons, ih, List.map_cons, List.flatten_cons, List.cons_append]

/-- **The table is read back**: its first line is the generation, and the
lines behind it are those of the surfaces, field by field. -/
theorem surfaceList_fields (hF : PlainNumbers F) {surfaces : Surfaces F} (h : AllSound surfaces)
    (generation : UInt64) :
    ((surfaceList surfaces generation).splitOn newline).map (·.splitOn tabulator) =
      [ascii "generation=" ++ decimal generation.toNat] ::
        (surfaces.entries.mergeSort surfaceBefore).map surfaceFields := by
  have hheader : Plain (ascii "generation=" ++ decimal generation.toNat) :=
    plain_append ⟨by decide, by decide⟩ (plain_decimal _)
  have hfields : ∀ e ∈ surfaces.entries.mergeSort surfaceBefore,
      ∀ field ∈ surfaceFields e, Plain field := by
    intro e he
    refine surfaceFields_plain hF (h e.1 e.2 ?_)
    exact AList.mem_lookup_iff.mpr ((List.mergeSort_perm _ _).mem_iff.mp he)
  generalize horder : surfaces.entries.mergeSort surfaceBefore = order at hfields
  have hlist : surfaceList surfaces generation =
      [newline].intercalate ((ascii "generation=" ++ decimal generation.toNat) ::
        order.map fun e => [tabulator].intercalate (surfaceFields e)) := by
    rw [surfaceList, horder, intercalate_cons, List.map_map]
    exact congrArg (_ ++ ·.flatten) (List.map_congr_left fun e _ => surfaceLine_eq e)
  have hlines : ∀ line ∈ (ascii "generation=" ++ decimal generation.toNat) ::
      order.map (fun e => [tabulator].intercalate (surfaceFields e)), newline ∉ line := by
    intro line hline
    rcases List.mem_cons.mp hline with rfl | hline
    · exact hheader.2
    · obtain ⟨e, he, rfl⟩ := List.mem_map.mp hline
      exact not_mem_intercalate (by decide) fun field hfield => (hfields e he field hfield).2
  rw [hlist, List.splitOn_intercalate newline hlines (List.cons_ne_nil _ _), List.map_cons,
    List.splitOn_eq_singleton hheader.1, List.map_map]
  refine congrArg _ (List.map_congr_left fun e he => ?_)
  exact List.splitOn_intercalate tabulator (fun field hfield => (hfields e he field hfield).1)
    (List.cons_ne_nil _ _)

/-- **The list can be read** on every screen transactions lead to. The ids
are not zero and the sizes not negative; the list is a table with a line of
seven fields for every surface, by layer and id, and no two of the lines
have one id. -/
theorem surfaceList_parseable (hF : PlainNumbers F) {screen : Screen F} (h : Reachable screen) :
    (∀ id surface, screen.surfaces.lookup id = some surface →
      id ≠ 0 ∧ 0 ≤ surface.width ∧ 0 ≤ surface.height) ∧
    ∃ order : List (Σ _ : UInt64, SurfaceState F),
      order.Perm screen.surfaces.entries ∧ order.Pairwise Above ∧
      ((surfaceList screen.surfaces screen.generation).splitOn newline).map (·.splitOn tabulator) =
        [ascii "generation=" ++ decimal screen.generation.toNat] :: order.map surfaceFields ∧
      (∀ e ∈ order, (surfaceFields e).length = 7) ∧
      (order.map fun e => (surfaceFields e).head?).Nodup := by
  have hsound := h.allSound
  refine ⟨fun id surface hlookup => ?_, screen.surfaces.entries.mergeSort surfaceBefore,
    List.mergeSort_perm _ _, sorted_above _, surfaceList_fields hF hsound _, fun e _ => rfl, ?_⟩
  · have hsurface := hsound id surface hlookup
    exact ⟨hsurface.id, hsurface.width, hsurface.height⟩
  · rw [List.Nodup, List.pairwise_map]
    refine (sorted_ids screen.surfaces).imp ?_
    intro a b hne heq
    exact hne (UInt64.toNat_inj.mp (decimal_injective (Option.some.inj heq)))

theorem plainNumbers_wholeNumbers : PlainNumbers wholeNumbers :=
  fun x => plain_append (plain_decimalInt x) ⟨by decide, by decide⟩

theorem surfaceList_parseable_desktop :
    let screen := (served (F := wholeNumbers) { surfaces := ∅, generation := 0 }
      (ascii "create\t7\tdesk top\t8\t6\nshow\t7")).1
    ∃ order : List (Σ _ : UInt64, SurfaceState wholeNumbers),
      order.Perm screen.surfaces.entries ∧
      ((surfaceList screen.surfaces screen.generation).splitOn newline).map (·.splitOn tabulator) =
        [ascii "generation=1"] :: order.map surfaceFields := by
  obtain ⟨-, order, hperm, -, hlist, -, -⟩ := surfaceList_parseable plainNumbers_wholeNumbers
    (.next .start (serveTransaction_yields { surfaces := ∅, generation := 0 }
      (ascii "create\t7\tdesk top\t8\t6\nshow\t7")))
  exact ⟨order, hperm, hlist⟩

end Transaction

end Daemon

end Muplar
