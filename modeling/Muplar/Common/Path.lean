import Mathlib.Tactic.Common
import Muplar.Common.Bytes
/-!
# Paths

`std::filesystem::path` on a POSIX system, as the components its iterator
yields: whether there is a root directory, and the file names after it. A
path that ends in a separator has an empty last name.

`lexicallyNormal` works on the spelling alone. A path whose last name was
a dot, a dot-dot or empty keeps a separator at its end, so one directory
has two normal forms. `walk` is what both have in common: the names from
the root to the directory, on a file system without links.
-/

namespace Muplar

/-- A path. -/
structure Path where
  rooted : Bool
  names : List Bytes
  deriving DecidableEq

namespace Path

def dot : Bytes := ascii "."
def dotDot : Bytes := ascii ".."
def slash : UInt8 := 47

/-- The path a string spells: separators in a row count as one. -/
def ofString (s : Bytes) : Path :=
  let parts := (s.splitOn slash).filter (· ≠ [])
  { rooted := s.head? = some slash
    names := if parts ≠ [] ∧ s.getLast? = some slash then parts ++ [[]] else parts }

/-- `string()`. -/
def string (p : Path) : Bytes :=
  (if p.rooted then [slash] else []) ++ [slash].intercalate p.names

/-- `empty()`. -/
def isEmpty (p : Path) : Bool :=
  !p.rooted && p.names.isEmpty

/-- `filename()`: empty after a separator. -/
def filename (p : Path) : Bytes :=
  p.names.getLastD []

/-- `parent_path()`. -/
def parent (p : Path) : Path :=
  { p with names := p.names.dropLast }

/-- The names without the empty one of a separator at the end. -/
def closed (names : List Bytes) : List Bytes :=
  if names.getLast? = some [] then names.dropLast else names

/-- `p / q`. -/
def join (p q : Path) : Path :=
  if q.rooted then q
  else if q.names = [] then
    { p with names := if p.filename = [] then p.names else p.names ++ [[]] }
  else { p with names := closed p.names ++ q.names }

/-! ## Normal forms -/

/-- One name of a path read from the left; the names kept so far stand in
reverse. Nothing is above a root directory. -/
def visit (rooted : Bool) (kept : List Bytes) (name : Bytes) : List Bytes :=
  if name = [] ∨ name = dot then kept
  else if name = dotDot then
    match kept with
    | [] => if rooted then [] else [dotDot]
    | last :: rest => if last = dotDot then dotDot :: last :: rest else rest
  else name :: kept

/-- The names of a path without dots, and without those a dot-dot
takes back. -/
def walk (p : Path) : List Bytes :=
  (p.names.foldl (visit p.rooted) []).reverse

/-- The last name leaves a separator at the end of the normal form. -/
def endsOpen (p : Path) : Bool :=
  match p.names.getLast? with
  | none => false
  | some name => name = [] ∨ name = dot ∨ name = dotDot

/-- `lexically_normal()`. -/
def lexicallyNormal (p : Path) : Path :=
  if p.walk = [] then
    if p.rooted ∨ p.names = [] then { p with names := [] } else { p with names := [dot] }
  else if p.endsOpen ∧ p.walk.getLast? ≠ some dotDot then { p with names := p.walk ++ [[]] }
  else { p with names := p.walk }

/-- A name that normalising leaves alone. -/
def Plain (name : Bytes) : Prop :=
  name ≠ [] ∧ name ≠ dot ∧ name ≠ dotDot

instance (name : Bytes) : Decidable (Plain name) :=
  inferInstanceAs (Decidable (_ ∧ _ ∧ _))

/-! ## Rooted paths -/

theorem visit_plain {name : Bytes} (h : Plain name) (rooted : Bool) (kept : List Bytes) :
    visit rooted kept name = name :: kept := by
  obtain ⟨hempty, hdot, hdots⟩ := h
  unfold visit
  rw [if_neg (by simp [hempty, hdot]), if_neg hdots]

theorem foldl_visit_plain (rooted : Bool) {names : List Bytes} (h : ∀ n ∈ names, Plain n)
    (kept : List Bytes) : names.foldl (visit rooted) kept = names.reverse ++ kept := by
  induction names generalizing kept with
  | nil => rfl
  | cons name names ih =>
    have hname := h name List.mem_cons_self
    rw [List.foldl_cons, visit_plain hname, ih fun n hn => h n (List.mem_cons_of_mem _ hn)]
    simp

/-- Below a root directory only plain names are kept. -/
theorem visit_keeps_plain {kept : List Bytes} (h : ∀ n ∈ kept, Plain n) (name : Bytes) :
    ∀ n ∈ visit true kept name, Plain n := by
  unfold visit
  split
  · exact h
  · rename_i hname
    rw [not_or] at hname
    split
    · -- a dot-dot drops the last name, which is not a dot-dot itself
      cases kept with
      | nil => exact h
      | cons last rest =>
        have hlast : last ≠ dotDot := (h last List.mem_cons_self).2.2
        simp only [if_neg hlast]
        exact fun n hn => h n (List.mem_cons_of_mem _ hn)
    · rename_i hdots
      intro n hn
      rcases List.mem_cons.mp hn with rfl | hn
      · exact ⟨hname.1, hname.2, hdots⟩
      · exact h n hn

theorem foldl_visit_keeps_plain (names : List Bytes) {kept : List Bytes}
    (h : ∀ n ∈ kept, Plain n) : ∀ n ∈ names.foldl (visit true) kept, Plain n := by
  induction names generalizing kept with
  | nil => exact h
  | cons name names ih => exact ih (visit_keeps_plain h name)

theorem walk_plain {p : Path} (hp : p.rooted) : ∀ n ∈ p.walk, Plain n := by
  intro n hn
  rw [walk, hp, List.mem_reverse] at hn
  exact foldl_visit_keeps_plain p.names (by simp) n hn

/-- Plain names are walked as they stand. -/
theorem walk_of_plain {names : List Bytes} (h : ∀ n ∈ names, Plain n) (rooted : Bool) :
    walk ⟨rooted, names⟩ = names := by
  rw [walk, foldl_visit_plain rooted h]
  simp

/-- A separator at the end does not lead anywhere else. -/
theorem walk_append_empty (rooted : Bool) (names : List Bytes) :
    walk ⟨rooted, names ++ [[]]⟩ = walk ⟨rooted, names⟩ := by
  simp [walk, List.foldl_append, visit]

/-- Whether the normal form of a rooted path ends in a separator. -/
def keepsSeparator (p : Path) : Bool :=
  p.walk ≠ [] ∧ p.endsOpen

/-- **The normal form of a rooted path**: its walk, with or without a
separator at the end. -/
theorem lexicallyNormal_eq {p : Path} (hp : p.rooted) :
    p.lexicallyNormal = ⟨true, if p.keepsSeparator then p.walk ++ [[]] else p.walk⟩ := by
  have hlast : p.walk.getLast? ≠ some dotDot := by
    intro hsome
    exact (walk_plain hp dotDot (List.mem_of_getLast? hsome)).2.2 rfl
  unfold lexicallyNormal keepsSeparator
  by_cases hwalk : p.walk = []
  · simp [hwalk, hp]
  · by_cases hopen : p.endsOpen
    · simp [hwalk, hopen, hlast, hp]
    · simp [hwalk, hopen, hp]

theorem walk_lexicallyNormal {p : Path} (hp : p.rooted) : p.lexicallyNormal.walk = p.walk := by
  rw [lexicallyNormal_eq hp]
  split
  · rw [walk_append_empty, walk_of_plain (walk_plain hp)]
  · rw [walk_of_plain (walk_plain hp)]

theorem rooted_lexicallyNormal {p : Path} (hp : p.rooted) : p.lexicallyNormal.rooted := by
  rw [lexicallyNormal_eq hp]

theorem endsOpen_append_empty (rooted : Bool) (names : List Bytes) :
    endsOpen ⟨rooted, names ++ [[]]⟩ = true := by
  simp [endsOpen]

theorem endsOpen_of_plain {rooted : Bool} {names : List Bytes} (h : ∀ n ∈ names, Plain n) :
    endsOpen ⟨rooted, names⟩ = false := by
  unfold endsOpen
  cases hlast : names.getLast? with
  | none => rfl
  | some name =>
    obtain ⟨hempty, hdot, hdots⟩ := h name (List.mem_of_getLast? hlast)
    simp [hempty, hdot, hdots]

theorem keepsSeparator_lexicallyNormal {p : Path} (hp : p.rooted) :
    p.lexicallyNormal.keepsSeparator = p.keepsSeparator := by
  rw [keepsSeparator, walk_lexicallyNormal hp, lexicallyNormal_eq hp]
  by_cases hopen : p.keepsSeparator
  · have hwalk : p.walk ≠ [] := by
      unfold keepsSeparator at hopen
      simp only [decide_eq_true_eq] at hopen
      exact hopen.1
    rw [if_pos hopen, endsOpen_append_empty]
    simp [hopen, hwalk]
  · rw [if_neg hopen, endsOpen_of_plain (walk_plain hp)]
    simp [hopen]

/-- **Normalising twice is normalising once.** -/
theorem lexicallyNormal_idem {p : Path} (hp : p.rooted) :
    p.lexicallyNormal.lexicallyNormal = p.lexicallyNormal := by
  rw [lexicallyNormal_eq (rooted_lexicallyNormal hp), walk_lexicallyNormal hp,
    keepsSeparator_lexicallyNormal hp, ← lexicallyNormal_eq hp]

/-! ## Joining -/

/-- The empty name at the end is not walked. -/
theorem foldl_visit_closed (rooted : Bool) (names kept : List Bytes) :
    (closed names).foldl (visit rooted) kept = names.foldl (visit rooted) kept := by
  unfold closed
  split
  · rename_i hlast
    have hsplit : names = names.dropLast ++ [[]] := by
      rw [List.dropLast_append_getLast? [] hlast]
    nth_rewrite 2 [hsplit]
    simp [List.foldl_append, visit]
  · rfl

/-- The walk of a path below another. -/
theorem walk_join {p q : Path} (hq : q.rooted = false) :
    (p.join q).walk = (q.names.foldl (visit p.rooted) p.walk.reverse).reverse := by
  unfold join
  rw [if_neg (by simp [hq])]
  split
  · rename_i hempty
    rw [hempty]
    split
    · simp [walk]
    · simp [walk, List.foldl_append, visit]
  · simp [walk, List.foldl_append, foldl_visit_closed]

theorem rooted_join {p q : Path} (hp : p.rooted) : (p.join q).rooted := by
  unfold join
  split
  · assumption
  · split
    · exact hp
    · exact hp

example : lexicallyNormal (ofString (ascii "/a/./b/../c")) = ofString (ascii "/a/c") := by decide
example : lexicallyNormal (ofString (ascii "/a/b/..")) = ofString (ascii "/a/") := by decide

end Path

end Muplar
