import Muplar.Common.Lines
/-!
# Paths handed over as C strings

A system call reads a path up to its first zero byte. `seen` is what it
sees of a path that was put together from names with zero bytes in them:
the name of the first zero byte is cut there and nothing follows it.

A name that is cut may come out as a dot-dot. It is the last one then, so
a path without a dot-dot is seen with one at its end or with none
(`not_mem_cutNames_dropLast`).
-/

namespace Muplar

namespace Path

/-- The names of a path up to the first zero byte. -/
def cutNames : List Bytes → List Bytes
  | [] => []
  | name :: names =>
    if 0 ∈ name then [name.takeWhile (· ≠ 0)] else name :: cutNames names

/-- `c_str()`. -/
def seen (p : Path) : Path :=
  { p with names := cutNames p.names }

/-- No name has a zero byte. -/
def Clean (p : Path) : Prop :=
  ∀ name ∈ p.names, 0 ∉ name

variable {names more : List Bytes} {p q : Path}

/-- What is behind names without a zero byte is cut by itself. -/
theorem cutNames_append (h : ∀ name ∈ names, 0 ∉ name) (more : List Bytes) :
    cutNames (names ++ more) = names ++ cutNames more := by
  induction names with
  | nil => rfl
  | cons name names ih =>
    rw [List.cons_append, cutNames, if_neg (h name List.mem_cons_self),
      ih fun n hn => h n (List.mem_cons_of_mem _ hn), List.cons_append]

theorem cutNames_ne_nil (h : names ≠ []) : cutNames names ≠ [] := by
  obtain ⟨name, names, rfl⟩ := List.exists_cons_of_ne_nil h
  rw [cutNames]
  split
  · exact List.cons_ne_nil _ _
  · exact List.cons_ne_nil _ _

/-- **A cut does not bring a dot-dot in**, unless at the end. -/
theorem not_mem_cutNames_dropLast (h : dotDot ∉ names) : dotDot ∉ (cutNames names).dropLast := by
  induction names with
  | nil => exact List.not_mem_nil
  | cons name names ih =>
    rw [List.mem_cons, not_or] at h
    rw [cutNames]
    split
    · exact List.not_mem_nil
    · rcases eq_or_ne names [] with rfl | hne
      · exact List.not_mem_nil
      · rw [List.dropLast_cons_of_ne_nil (cutNames_ne_nil hne), List.mem_cons, not_or]
        exact ⟨h.1, ih h.2⟩

theorem Clean.ofString {s : Bytes} (h : 0 ∉ s) : (ofString s).Clean := by
  have hparts : ∀ n ∈ (s.splitOn slash).filter (· ≠ []), 0 ∉ n := fun n hn hzero =>
    h ((infix_of_mem_splitOn (List.mem_of_mem_filter hn)).subset hzero)
  intro n hn
  unfold Path.ofString at hn
  simp only at hn
  split at hn
  · rcases List.mem_append.mp hn with hn | hn
    · exact hparts n hn
    · rw [List.mem_singleton.mp hn]
      exact List.not_mem_nil
  · exact hparts n hn

theorem closed_isPrefix (names : List Bytes) : closed names <+: names := by
  unfold closed
  split
  · exact List.dropLast_prefix names
  · exact List.prefix_refl names

theorem Clean.closed (h : p.Clean) : ∀ name ∈ closed p.names, 0 ∉ name :=
  fun name hname => h name ((closed_isPrefix p.names).subset hname)

theorem Clean.join (hp : p.Clean) (hq : q.Clean) : (p.join q).Clean := by
  intro n hn
  unfold Path.join at hn
  split at hn
  · exact hq n hn
  · split at hn
    · simp only at hn
      split at hn
      · exact hp n hn
      · rcases List.mem_append.mp hn with hn | hn
        · exact hp n hn
        · rw [List.mem_singleton.mp hn]
          exact List.not_mem_nil
    · rcases List.mem_append.mp hn with hn | hn
      · exact hp.closed n hn
      · exact hq n hn

/-! ## What is below a directory -/

/-- **In the directory, or the directory itself**, once both are
normalised: where the names lead down from the directory and not up
again. -/
structure Inside (dir p : Path) : Prop where
  rooted : p.rooted = dir.rooted
  below : ∃ rest, p.walk = dir.walk ++ rest ∧ dotDot ∉ rest

/-- Names without a dot-dot take back none of the names kept. -/
theorem foldl_visit_down (rooted : Bool) (h : dotDot ∉ names) (kept : List Bytes) :
    ∃ rest, names.foldl (visit rooted) kept = rest ++ kept ∧ dotDot ∉ rest := by
  induction names generalizing kept with
  | nil => exact ⟨[], rfl, List.not_mem_nil⟩
  | cons name names ih =>
    rw [List.mem_cons, not_or] at h
    have hvisit : visit rooted kept name =
        if name = [] ∨ name = dot then kept else name :: kept := by
      unfold visit
      rw [if_neg (Ne.symm h.1)]
    rw [List.foldl_cons, hvisit]
    split
    · exact ih h.2 kept
    · obtain ⟨rest, hrest, hup⟩ := ih h.2 (name :: kept)
      refine ⟨rest ++ [name], ?_, ?_⟩
      · rw [hrest, List.append_assoc, List.singleton_append]
      · rw [List.mem_append, List.mem_singleton, not_or]
        exact ⟨hup, h.1⟩

/-- **Names without a dot-dot stay inside.** -/
theorem inside_of_not_mem {dir : Path} (h : dotDot ∉ names) :
    Inside dir ⟨dir.rooted, closed dir.names ++ names⟩ := by
  obtain ⟨rest, hrest, hup⟩ :=
    foldl_visit_down dir.rooted h (dir.names.foldl (visit dir.rooted) [])
  refine ⟨rfl, rest.reverse, ?_, ?_⟩
  · rw [walk, List.foldl_append, foldl_visit_closed, hrest, List.reverse_append]
    rfl
  · rwa [List.mem_reverse]

end Path

/-- A path that was a C string. -/
structure CPath where
  path : Path
  clean : path.Clean

end Muplar
