import Muplar.Common.FileTree
import Muplar.Common.PathText
/-!
# Resolving paths

A path is followed name by name. Each name is looked for in a directory, a
dot stays, a dot-dot goes up, and nothing is above the directory that
serves as root: the root of the tree for a process as it is, another
directory for one that was given that directory as root.

The same names, followed from the same directory under the two roots, lead
to the same node exactly where they never go above the inner root
(`follow_eq_iff`). Two walks that are apart in a certain sense never meet
again (`follow_ne_of_apart`).
-/

namespace Muplar

open Muplar.Path

/-- One name, looked for from `l` where nothing is above `root`. -/
def enter (root l : Location) (name : Bytes) : Location :=
  if name = [] ∨ name = dot then l
  else if name = dotDot then if l = root then l else l.dropLast
  else l ++ [name]

/-- The names never go above where they start, `depth` names below it. -/
def Stays : (depth : ℕ) → List Bytes → Prop
  | _, [] => True
  | depth, name :: names =>
    if name = [] ∨ name = dot then Stays depth names
    else if name = dotDot then
      match depth with
      | 0 => False
      | depth + 1 => Stays depth names
    else Stays (depth + 1) names

section Stays

variable {depth : ℕ} {name : Bytes} {names : List Bytes}

theorem stays_nil (depth : ℕ) : Stays depth [] := by
  unfold Stays
  trivial

theorem stays_here (h : name = [] ∨ name = dot) :
    Stays depth (name :: names) ↔ Stays depth names := by
  rw [Stays.eq_def]
  exact iff_of_eq (if_pos h)

theorem stays_up_zero : ¬Stays 0 (dotDot :: names) := by
  rw [Stays.eq_def]
  exact id

theorem stays_up_succ : Stays (depth + 1) (dotDot :: names) ↔ Stays depth names := by
  rw [Stays.eq_def]
  exact Iff.rfl

theorem stays_plain (h : Plain name) :
    Stays depth (name :: names) ↔ Stays (depth + 1) names := by
  rw [Stays.eq_def]
  dsimp only
  rw [if_neg (not_or.mpr ⟨h.1, h.2.1⟩), if_neg h.2.2]

/-- Plain names lead down. -/
theorem stays_append_plain (h : ∀ n ∈ names, Plain n) (more : List Bytes) :
    Stays depth (names ++ more) ↔ Stays (depth + names.length) more := by
  induction names generalizing depth with
  | nil => rfl
  | cons name names ih =>
    rw [List.cons_append, stays_plain (h name List.mem_cons_self),
      ih fun n hn => h n (List.mem_cons_of_mem _ hn), List.length_cons, Nat.add_right_comm,
      Nat.add_assoc]

/-- One name does not lead above the directory a name has led down to. -/
theorem stays_singleton (depth : ℕ) (name : Bytes) : Stays (depth + 1) [name] := by
  by_cases hstay : name = [] ∨ name = dot
  · exact (stays_here hstay).mpr (stays_nil _)
  · by_cases hup : name = dotDot
    · rw [hup]
      exact stays_up_succ.mpr (stays_nil _)
    · rw [not_or] at hstay
      exact (stays_plain ⟨hstay.1, hstay.2, hup⟩).mpr (stays_nil _)

end Stays

instance decidableStays : (depth : ℕ) → (names : List Bytes) → Decidable (Stays depth names)
  | depth, [] => .isTrue (stays_nil depth)
  | depth, name :: names =>
    if hstay : name = [] ∨ name = dot then
      have := decidableStays depth names
      decidable_of_iff _ (stays_here hstay).symm
    else if hup : name = dotDot then
      match depth with
      | 0 => .isFalse (hup ▸ stays_up_zero)
      | depth + 1 =>
        have := decidableStays depth names
        decidable_of_iff (Stays depth names) (hup ▸ stays_up_succ.symm)
    else
      have := decidableStays (depth + 1) names
      decidable_of_iff _
        (stays_plain ⟨fun h => hstay (.inl h), fun h => hstay (.inr h), hup⟩).symm

namespace FileTree

/-- The names one after the other: what is followed further is a
directory, and what is reached exists. -/
def follow (t : FileTree) (root : Location) : Location → List Bytes → Option Location
  | l, [] => if t.node l = none then none else some l
  | l, name :: names =>
    if t.node l = some .dir then follow t root (enter root l name) names else none

/-- Where a path starts. -/
def start (cwd : Location) (path : Bytes) : Location :=
  if path.head? = some slash then [] else cwd

/-- What a path denotes to a process in the directory `cwd`. -/
def resolve (t : FileTree) (cwd : Location) (path : Bytes) : Option Location :=
  if path = [] then none else t.follow [] (start cwd path) (path.splitOn slash)

/-- What an absolute path denotes to a process whose root is `root`. -/
def resolveIn (t : FileTree) (root : Location) (path : Bytes) : Option Location :=
  t.follow root root (path.splitOn slash)

variable {t : FileTree} {root l m : Location} {names more : List Bytes}

theorem enter_empty : enter root l [] = l := if_pos (.inl rfl)

theorem enter_plain {name : Bytes} (h : Plain name) : enter root l name = l ++ [name] := by
  rw [enter, if_neg (not_or.mpr ⟨h.1, h.2.1⟩), if_neg h.2.2]

/-- What is done with a name, in three cases. -/
theorem enter_cases (root l : Location) (name : Bytes) :
    (name = [] ∨ name = dot) ∧ enter root l name = l ∨
    name = dotDot ∧ enter root l name = (if l = root then l else l.dropLast) ∨
    Plain name ∧ enter root l name = l ++ [name] := by
  by_cases hstay : name = [] ∨ name = dot
  · exact .inl ⟨hstay, if_pos hstay⟩
  · by_cases hup : name = dotDot
    · refine .inr (.inl ⟨hup, ?_⟩)
      rw [enter, if_neg hstay, if_pos hup]
    · rw [not_or] at hstay
      have hplain : Plain name := ⟨hstay.1, hstay.2, hup⟩
      exact .inr (.inr ⟨hplain, enter_plain hplain⟩)

theorem follow_cons (h : t.node l = some .dir) (name : Bytes) :
    t.follow root l (name :: names) = t.follow root (enter root l name) names :=
  if_pos h

theorem follow_of_not_dir (hne : names ≠ []) (h : t.node l ≠ some .dir) :
    t.follow root l names = none := by
  obtain ⟨name, names, rfl⟩ := List.exists_cons_of_ne_nil hne
  exact if_neg h

/-- What is followed first is a directory. -/
theorem dir_of_follow (hne : names ≠ []) (h : t.follow root l names = some m) :
    t.node l = some .dir := by
  by_contra hdir
  rw [follow_of_not_dir hne hdir] at h
  cases h

theorem follow_nil (h : t.node l ≠ none) : t.follow root l [] = some l := if_neg h

/-- What is reached exists. -/
theorem node_of_follow (h : t.follow root l names = some m) : t.node m ≠ none := by
  induction names generalizing l with
  | nil =>
    rw [follow] at h
    split at h
    · cases h
    · next hnode =>
      cases h
      exact hnode
  | cons name names ih =>
    rw [follow_cons (dir_of_follow (List.cons_ne_nil _ _) h)] at h
    exact ih h

/-- Where the names lead can be told from them alone. -/
theorem eq_of_follow (h : t.follow root l names = some m) : names.foldl (enter root) l = m := by
  induction names generalizing l with
  | nil =>
    rw [follow] at h
    split at h
    · cases h
    · cases h
      rfl
  | cons name names ih =>
    rw [follow_cons (dir_of_follow (List.cons_ne_nil _ _) h)] at h
    exact ih h

theorem follow_append (t : FileTree) (root l : Location) (names more : List Bytes) :
    t.follow root l (names ++ more) =
      (t.follow root l names).bind fun m => t.follow root m more := by
  induction names generalizing l with
  | nil =>
    rw [List.nil_append, follow]
    split
    · next hnode =>
      cases more with
      | nil => exact if_pos hnode
      | cons name more => exact if_neg (by rw [hnode]; exact Option.some_ne_none _ ∘ Eq.symm)
    · rfl
  | cons name names ih =>
    rw [List.cons_append, follow, follow]
    split
    · exact ih _
    · rfl

theorem follow_of_append (h : t.follow root l (names ++ more) = some m) :
    ∃ k, t.follow root l names = some k ∧ t.follow root k more = some m := by
  rw [follow_append] at h
  exact Option.bind_eq_some_iff.mp h

/-- A name that stays where it is asks for a directory, no more. -/
theorem follow_cons_empty (hne : names ≠ []) :
    t.follow root l ([] :: names) = t.follow root l names := by
  by_cases hdir : t.node l = some .dir
  · rw [follow_cons hdir, enter_empty]
  · rw [follow_of_not_dir (List.cons_ne_nil _ _) hdir, follow_of_not_dir hne hdir]

/-- Plain names lead to what is below, if it exists. -/
theorem follow_plain (h : ∀ n ∈ names, Plain n) (hnode : t.node (l ++ names) ≠ none) :
    t.follow root l names = some (l ++ names) := by
  induction names generalizing l with
  | nil =>
    rw [List.append_nil] at hnode ⊢
    exact follow_nil hnode
  | cons name names ih =>
    have hsplit : l ++ name :: names = l ++ [name] ++ names := by simp
    rw [follow_cons (dir_of_append_ne_none (List.cons_ne_nil _ _) hnode),
      enter_plain (h name List.mem_cons_self), hsplit]
    rw [hsplit] at hnode
    exact ih (fun n hn => h n (List.mem_cons_of_mem _ hn)) hnode

/-- What a path with a separator, a dot or a dot-dot at its end leads to
is a directory. -/
theorem dir_of_follow_open {last : Bytes} (hlast : ¬Plain last)
    (h : t.follow root l (names ++ [last]) = some m) : t.node m = some .dir := by
  obtain ⟨k, -, hk⟩ := follow_of_append h
  have hdir := dir_of_follow (List.cons_ne_nil _ _) hk
  have hm := eq_of_follow hk
  rw [List.foldl_cons, List.foldl_nil] at hm
  rw [← hm]
  rcases enter_cases root k last with ⟨-, heq⟩ | ⟨-, heq⟩ | ⟨hplain, -⟩
  · rwa [heq]
  · rw [heq]
    split
    · exact hdir
    · rcases List.eq_nil_or_concat k with rfl | ⟨front, name, rfl⟩
      · exact hdir
      · rw [List.concat_eq_append] at hdir ⊢
        rw [List.dropLast_concat]
        exact t.parent front name (by rw [hdir]; exact Option.some_ne_none _)
  · exact absurd hplain hlast

/-! ## While the tree changes -/

/-- Directories stay directories. -/
def KeepsDirs (t t' : FileTree) : Prop :=
  ∀ l, t.node l = some .dir → t'.node l = some .dir

/-- Names lead where they led, as long as it is there. -/
theorem KeepsDirs.follow {t' : FileTree} (h : KeepsDirs t t')
    (hfollow : t.follow root l names = some m) (hm : t'.node m ≠ none) :
    t'.follow root l names = some m := by
  induction names generalizing l with
  | nil =>
    obtain rfl := eq_of_follow hfollow
    exact follow_nil hm
  | cons name names ih =>
    have hdir := dir_of_follow (List.cons_ne_nil _ _) hfollow
    rw [follow_cons hdir] at hfollow
    rw [follow_cons (h l hdir)]
    exact ih hfollow

/-- Names without a dot-dot lead down. -/
theorem foldl_enter_down (h : dotDot ∉ names) (l : Location) :
    l <+: names.foldl (enter root) l := by
  induction names generalizing l with
  | nil => exact List.prefix_refl l
  | cons name names ih =>
    rw [List.mem_cons, not_or] at h
    rw [List.foldl_cons]
    rcases enter_cases root l name with ⟨-, heq⟩ | ⟨hup, -⟩ | ⟨-, heq⟩
    · rw [heq]
      exact ih h.2 l
    · exact absurd hup.symm h.1
    · rw [heq]
      exact (List.prefix_append l [name]).trans (ih h.2 _)

/-! ## Two roots -/

/-- Names that stay below the inner root lead to the same node. -/
theorem follow_eq_of_stays {rel : Location} (h : Stays rel.length names) :
    t.follow [] (root ++ rel) names = t.follow root (root ++ rel) names := by
  induction names generalizing rel with
  | nil => rfl
  | cons name names ih =>
    by_cases hdir : t.node (root ++ rel) = some .dir
    · rw [follow_cons hdir, follow_cons hdir]
      rcases enter_cases root (root ++ rel) name with ⟨hstay, heq⟩ | ⟨hup, heq⟩ | ⟨hplain, heq⟩
      · rw [heq, enter, if_pos hstay]
        exact ih ((stays_here hstay).mp h)
      · rw [hup] at h
        cases hrel : rel using List.reverseRecOn with
        | nil =>
          rw [hrel] at h
          exact absurd h stays_up_zero
        | append_singleton front last _ =>
          rw [hrel, List.length_append, List.length_singleton, stays_up_succ] at h
          have hne : root ++ (front ++ [last]) ≠ root := by simp
          have hne' : root ++ (front ++ [last]) ≠ [] := by simp
          rw [hrel, if_neg hne] at heq
          rw [heq, enter, if_neg (by rw [hup]; decide), if_pos hup, if_neg hne',
            ← List.append_assoc, List.dropLast_concat]
          exact ih h
      · rw [stays_plain hplain] at h
        rw [heq, enter_plain hplain, List.append_assoc]
        refine ih ?_
        rw [List.length_append, List.length_singleton]
        exact h
    · rw [follow_of_not_dir (List.cons_ne_nil _ _) hdir,
        follow_of_not_dir (List.cons_ne_nil _ _) hdir]

/-- **Apart**: `g` is below the inner root, and `h` is nearer to the root
of the tree, or as near but not below the inner root. -/
structure Apart (root h g : Location) : Prop where
  inner : root ≠ []
  below : root <+: g
  apart : h.length < g.length ∨ h.length = g.length ∧ ¬root <+: h

theorem Apart.ne {h g : Location} (ha : Apart root h g) : h ≠ g := by
  rintro rfl
  rcases ha.apart with hlt | ⟨-, hnot⟩
  · omega
  · exact hnot ha.below

/-- The outer walk is above what the inner one cannot leave. -/
theorem Apart.enter {h g : Location} (ha : Apart root h g) (name : Bytes) :
    Apart root (Muplar.enter [] h name) (Muplar.enter root g name) := by
  have hroot : 0 < root.length := List.length_pos_iff.mpr ha.inner
  have hbelow := ha.below.length_le
  rcases enter_cases root g name with ⟨hstay, heq⟩ | ⟨hup, heq⟩ | ⟨hplain, heq⟩
  · rw [heq, Muplar.enter, if_pos hstay]
    exact ha
  · have hh : Muplar.enter [] h name = if h = [] then h else h.dropLast := by
      rw [Muplar.enter, if_neg (by rw [hup]; decide), if_pos hup]
    have hlen : (Muplar.enter [] h name).length = h.length - 1 := by
      rw [hh]
      split
      · next hnil => rw [hnil]; rfl
      · rw [List.length_dropLast]
    rw [heq]
    split
    · -- the inner walk stays at its root while the outer one goes up
      next hat =>
      refine ⟨ha.inner, ha.below, .inl ?_⟩
      rw [hlen]
      have hg := congrArg List.length hat
      rcases ha.apart with hlt | ⟨heq, -⟩ <;> omega
    · next hoff =>
      have hlt : root.length < g.length := by
        refine Nat.lt_of_le_of_ne hbelow fun hlen => hoff ?_
        exact (ha.below.eq_of_length hlen).symm
      have hdrop : root <+: g.dropLast := by
        refine List.prefix_of_prefix_length_le ha.below (List.dropLast_prefix g) ?_
        rw [List.length_dropLast]
        omega
      refine ⟨ha.inner, hdrop, ?_⟩
      rw [hlen, List.length_dropLast]
      rcases ha.apart with hlt' | ⟨hsame, hnot⟩
      · left
        omega
      · right
        refine ⟨by omega, fun hpre => hnot (hpre.trans ?_)⟩
        rw [hh]
        split
        · exact List.prefix_refl h
        · exact List.dropLast_prefix h
  · rw [heq, enter_plain hplain]
    refine ⟨ha.inner, ha.below.trans (List.prefix_append _ _), ?_⟩
    rw [List.length_append, List.length_append]
    rcases ha.apart with hlt | ⟨hsame, hnot⟩
    · left
      omega
    · right
      refine ⟨by omega, fun hpre => hnot ?_⟩
      exact List.prefix_of_prefix_length_le hpre (List.prefix_append _ _) (by omega)

/-- **Walks that are apart do not meet.** -/
theorem follow_ne_of_apart {h g : Location} (ha : Apart root h g)
    (hout : t.follow [] h names = some m) : t.follow root g names ≠ some m := by
  induction names generalizing h g with
  | nil =>
    intro hin
    have hh := eq_of_follow hout
    have hg := eq_of_follow hin
    exact ha.ne (hh.trans hg.symm)
  | cons name names ih =>
    intro hin
    rw [follow_cons (dir_of_follow (List.cons_ne_nil _ _) hout)] at hout
    rw [follow_cons (dir_of_follow (List.cons_ne_nil _ _) hin)] at hin
    exact ih (ha.enter name) hout hin

theorem follow_ne_of_not_stays {rel : Location} (hroot : root ≠ []) (h : ¬Stays rel.length names)
    (hout : t.follow [] (root ++ rel) names = some m) :
    t.follow root (root ++ rel) names ≠ some m := by
  induction names generalizing rel with
  | nil => exact absurd (stays_nil _) h
  | cons name names ih =>
    have hdir := dir_of_follow (List.cons_ne_nil _ _) hout
    rw [follow_cons hdir] at hout ⊢
    rcases enter_cases root (root ++ rel) name with ⟨hstay, heq⟩ | ⟨hup, heq⟩ | ⟨hplain, heq⟩
    · rw [stays_here hstay] at h
      rw [enter, if_pos hstay] at hout
      rw [heq]
      exact ih h hout
    · rw [hup] at h
      rw [enter, if_neg (by rw [hup]; decide), if_pos hup] at hout
      cases hrel : rel using List.reverseRecOn with
      | nil =>
        -- here the outer walk leaves the inner root
        rw [hrel, List.append_nil] at hout heq
        rw [List.append_nil]
        rw [if_neg hroot] at hout
        rw [heq, if_pos rfl]
        refine follow_ne_of_apart ⟨hroot, List.prefix_refl root, .inl ?_⟩ hout
        rw [List.length_dropLast]
        have hpos := List.length_pos_iff.mpr hroot
        omega
      | append_singleton front last _ =>
        rw [hrel, List.length_append, List.length_singleton, stays_up_succ] at h
        have hne : root ++ (front ++ [last]) ≠ root := by simp
        have hne' : root ++ (front ++ [last]) ≠ [] := by simp
        rw [hrel, if_neg hne', ← List.append_assoc, List.dropLast_concat] at hout
        rw [hrel, if_neg hne, ← List.append_assoc, List.dropLast_concat] at heq
        rw [← List.append_assoc, heq]
        exact ih h hout
    · rw [stays_plain hplain] at h
      rw [enter_plain hplain, List.append_assoc] at hout
      rw [heq, List.append_assoc]
      refine ih ?_ hout
      rw [List.length_append, List.length_singleton]
      exact h

/-- **The same names under two roots.** They lead to the same node exactly
where the inner root is that of the tree or they never go above it. -/
theorem follow_eq_iff (hout : t.follow [] root names = some m) :
    t.follow root root names = some m ↔ root = [] ∨ Stays 0 names := by
  constructor
  · intro hin
    by_contra hno
    rw [not_or] at hno
    have hout' : t.follow [] (root ++ []) names = some m := by rwa [List.append_nil]
    have hstays : ¬Stays ([] : Location).length names := hno.2
    have hne := follow_ne_of_not_stays hno.1 hstays hout'
    rw [List.append_nil] at hne
    exact hne hin
  · rintro (hroot | hstays)
    · rw [hroot] at hout ⊢
      exact hout
    · have hstays : Stays ([] : Location).length names := hstays
      have heq : t.follow [] (root ++ []) names = t.follow root (root ++ []) names :=
        follow_eq_of_stays hstays
      rw [List.append_nil] at heq
      rw [← heq, hout]

end FileTree

end Muplar
