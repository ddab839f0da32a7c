import Mathlib.Tactic.Common
import Muplar.Common.Bytes
/-!
# File trees

A file system without links is a tree: a node is a directory or a file,
and is known by the names that lead to it from the root. Only directories
have anything below them (`FileTree.parent`), so a tree with a node
hanging in the air cannot be built.

The operations change what they are asked to and nothing else; the
lemmas after each say where the tree is as it was.
-/

namespace Muplar

/-- The names that lead from the root to a node. -/
abbrev Location := List Bytes

inductive Node
  | dir
  | file (content : Bytes)
  deriving DecidableEq

/-- A file system without links. -/
structure FileTree where
  node : Location → Option Node
  root : node [] = some .dir
  parent : ∀ l name, node (l ++ [name]) ≠ none → node l = some .dir

namespace FileTree

variable {t : FileTree} {l loc : Location}

theorem ext_node {t t' : FileTree} (h : t.node = t'.node) : t = t' := by
  obtain ⟨node, root, parent⟩ := t
  obtain ⟨node', root', parent'⟩ := t'
  change node = node' at h
  subst h
  rfl

/-- What is above a node is a directory. -/
theorem dir_of_append_ne_none {rest : Location} (hne : rest ≠ [])
    (h : t.node (l ++ rest) ≠ none) : t.node l = some .dir := by
  induction rest using List.reverseRecOn with
  | nil => exact absurd rfl hne
  | append_singleton rest name ih =>
    rw [← List.append_assoc] at h
    have habove := t.parent _ name h
    by_cases hrest : rest = []
    · subst hrest
      rwa [List.append_nil] at habove
    · exact ih hrest (by rw [habove]; exact Option.some_ne_none _)

/-- The tree of the root alone. -/
def empty : FileTree where
  node l := if l = [] then some .dir else none
  root := rfl
  parent l name h := by simp at h

/-! ## Removing -/

/-- What `remove_all` leaves; the root itself cannot be removed. -/
def remove (t : FileTree) (loc : Location) : FileTree where
  node l := if loc <+: l ∧ l ≠ [] then none else t.node l
  root := by rw [if_neg (by simp), t.root]
  parent l name h := by
    by_cases hunder : loc <+: l ++ [name]
    · rw [if_pos ⟨hunder, by simp⟩] at h
      exact absurd rfl h
    · rw [if_neg (by simp [hunder])] at h
      have hl : ¬loc <+: l := fun hl => hunder (hl.trans (List.prefix_append l [name]))
      rw [if_neg (by simp [hl])]
      exact t.parent l name h

theorem remove_of_not_under (h : ¬loc <+: l) : (t.remove loc).node l = t.node l :=
  if_neg fun hunder => h hunder.1

theorem remove_of_under (h : loc <+: l) (hne : l ≠ []) : (t.remove loc).node l = none :=
  if_pos ⟨h, hne⟩

/-! ## Making directories -/

/-- A location all of whose ancestors, and itself, are directories or
missing. -/
def isFree (t : FileTree) (loc : Location) : Bool :=
  loc.inits.all fun l => t.node l = none ∨ t.node l = some .dir

theorem isFree_iff : t.isFree loc ↔ ∀ l, l <+: loc → t.node l = none ∨ t.node l = some .dir := by
  simp [isFree, List.mem_inits]

/-- The tree with a location and all above it made directories. -/
def makeDirs (t : FileTree) (loc : Location) : FileTree where
  node l := if l <+: loc then some .dir else t.node l
  root := by exact if_pos ( List.nil_prefix)
  parent l name hnode := by
    by_cases hl : l <+: loc
    · exact if_pos hl
    · have hname : ¬l ++ [name] <+: loc := fun hpre => hl ((List.prefix_append l [name]).trans hpre)
      rw [if_neg hname] at hnode
      rw [if_neg hl]
      exact t.parent l name hnode

/-- Only what was missing above the location changes. -/
theorem makeDirs_of_not_above (hl : ¬l <+: loc) : (t.makeDirs loc).node l = t.node l :=
  if_neg hl

theorem makeDirs_above (hl : l <+: loc) : (t.makeDirs loc).node l = some .dir :=
  if_pos hl

/-- A directory made in a directory changes nothing that was there. -/
theorem makeDirs_of_missing {name : Bytes} {m : Location} (hdir : t.node l = some .dir)
    (hnone : t.node (l ++ [name]) = none) (hm : t.node m ≠ none) :
    (t.makeDirs (l ++ [name])).node m = t.node m := by
  by_cases habove : m <+: l ++ [name]
  · rw [makeDirs_above habove]
    rcases List.prefix_concat_iff.mp habove with rfl | hpre
    · exact absurd hnone hm
    · -- what is above a directory is a directory
      obtain ⟨rest, rfl⟩ := hpre
      rcases eq_or_ne rest [] with rfl | hne
      · rw [List.append_nil] at hdir
        exact hdir.symm
      · exact (dir_of_append_ne_none hne (by rw [hdir]; exact Option.some_ne_none _)).symm
  · exact makeDirs_of_not_above habove

/-! ## Files -/

/-- A file may be written where the directory exists and no directory is
in its place. -/
def isWritable (t : FileTree) (loc : Location) : Bool :=
  loc ≠ [] ∧ t.node loc.dropLast = some .dir ∧ t.node loc ≠ some .dir

/-- The tree with a file written. -/
def writeFile (t : FileTree) (loc : Location) (content : Bytes) (h : t.isWritable loc) :
    FileTree where
  node l := if l = loc then some (.file content) else t.node l
  root := by
    rw [isWritable, decide_eq_true_eq] at h
    rw [if_neg (fun hnil => h.1 hnil.symm), t.root]
  parent l name hnode := by
    rw [isWritable, decide_eq_true_eq] at h
    obtain ⟨hne, hdir, hnot⟩ := h
    by_cases hloc : l ++ [name] = loc
    · subst hloc
      rw [List.dropLast_concat] at hdir
      rwa [if_neg (by simp)]
    · rw [if_neg hloc] at hnode
      have hl := t.parent l name hnode
      rw [if_neg (by rintro rfl; exact hnot hl), hl]

theorem writeFile_of_ne {content : Bytes} (h : t.isWritable loc) (hl : l ≠ loc) :
    (t.writeFile loc content h).node l = t.node l :=
  if_neg hl

theorem writeFile_self {content : Bytes} (h : t.isWritable loc) :
    (t.writeFile loc content h).node loc = some (.file content) :=
  if_pos rfl

/-! ## Copying -/

/-- A directory may be copied to a place that is in an existing directory
and holds no file. -/
def isCopyable (t : FileTree) (src dst : Location) : Bool :=
  t.node src = some .dir ∧ t.node dst.dropLast = some .dir ∧
    (t.node dst = none ∨ t.node dst = some .dir)

/-- The tree with `dst` made a copy of `src`, as copying into an empty or
missing directory does. -/
def copyDir (t : FileTree) (src dst : Location) (h : t.isCopyable src dst) : FileTree where
  node l := if dst <+: l then t.node (src ++ l.drop dst.length) else t.node l
  root := by
    rw [isCopyable, decide_eq_true_eq] at h
    by_cases hdst : dst <+: []
    · obtain rfl := List.prefix_nil.mp hdst
      simpa using h.1
    · rw [if_neg hdst, t.root]
  parent l name hnode := by
    rw [isCopyable, decide_eq_true_eq] at h
    obtain ⟨hsrc, hdir, -⟩ := h
    by_cases hl : dst <+: l
    · obtain ⟨rest, rfl⟩ := hl
      rw [if_pos (by simp)] at hnode ⊢
      rw [List.append_assoc, List.drop_left, ← List.append_assoc] at hnode
      rw [List.drop_left]
      exact t.parent _ name hnode
    · rw [if_neg hl]
      by_cases hname : dst <+: l ++ [name]
      · -- the copy itself hangs in a directory that was there
        have hdst : dst = l ++ [name] := (List.prefix_concat_iff.mp hname).resolve_right hl
        rwa [hdst, List.dropLast_concat] at hdir
      · rw [if_neg hname] at hnode
        exact t.parent l name hnode

theorem copyDir_of_not_under {src dst : Location} (h : t.isCopyable src dst) (hl : ¬dst <+: l) :
    (t.copyDir src dst h).node l = t.node l :=
  if_neg hl

end FileTree

end Muplar
