import Mathlib.Data.List.Basic
import Mathlib.Data.List.Infix
import Mathlib.Data.Nat.Notation
import Mathlib.Tactic.Common
/-!
# Searching texts

`std::string::find` and its relatives, on lists of any kind of
characters. Two facts carry every use: a search passes over a stretch
that does not have the needle's first character, and a needle without
some character `c` does not reach across a `c`.
-/

namespace Muplar

variable {α : Type}

section

variable [DecidableEq α]

/-- The first place where `needle` starts. -/
def search (needle : List α) : List α → Option ℕ
  | [] => if needle = [] then some 0 else none
  | c :: cs => if needle <+: c :: cs then some 0 else (search needle cs).map (· + 1)

/-- `text.find(needle, pos)`. -/
def find (text needle : List α) (pos : ℕ) : Option ℕ :=
  if text.length < pos then none else (search needle (text.drop pos)).map (pos + ·)

/-- `text.find_first_of(chars, pos)`. -/
def findFirstOf (text chars : List α) (pos : ℕ) : Option ℕ :=
  if text.length ≤ pos then none else ((text.drop pos).findIdx? (· ∈ chars)).map (pos + ·)

/-! ## Where a search ends -/

theorem search_of_isPrefix {needle text : List α} (h : needle <+: text) :
    search needle text = some 0 := by
  cases text with
  | nil =>
    rw [List.prefix_nil.mp h]
    rfl
  | cons c cs => rw [search, if_pos h]

/-- A search passes over what does not have its first character. -/
theorem search_skip {c : α} {rest stretch : List α} (h : c ∉ stretch) (text : List α) :
    search (c :: rest) (stretch ++ text) = (search (c :: rest) text).map (stretch.length + ·) := by
  induction stretch with
  | nil => simp
  | cons d stretch ih =>
    rw [List.mem_cons, not_or] at h
    have hne : ¬c :: rest <+: d :: (stretch ++ text) := by
      intro hpre
      exact h.1 (List.cons_prefix_cons.mp hpre).1
    rw [List.cons_append, search, if_neg hne, ih h.2, Option.map_map]
    congr 1
    funext n
    simp only [Function.comp, List.length_cons]
    omega

theorem search_eq_none {c : α} {rest text : List α} (h : c ∉ text) :
    search (c :: rest) text = none := by
  rw [← List.append_nil text, search_skip h]
  rfl

/-- A search finds a needle that is there, and no other. -/
theorem search_eq_none_iff {needle text : List α} :
    search needle text = none ↔ ¬needle <:+: text := by
  induction text with
  | nil =>
    rw [search, List.infix_nil]
    split <;> simp_all
  | cons c cs ih =>
    rw [search, List.infix_cons_iff, not_or]
    split
    · next hpre => simp [hpre]
    · next hpre => simp [hpre, ih]

theorem isInfix_of_search {needle text : List α} {i : ℕ} (h : search needle text = some i) :
    needle <:+: text := by
  by_contra hno
  rw [search_eq_none_iff.mpr hno] at h
  cases h

theorem search_le {needle text : List α} {i : ℕ} (h : search needle text = some i) :
    i ≤ text.length := by
  induction text generalizing i with
  | nil =>
    rw [search] at h
    split at h
    · cases h
      exact Nat.le_refl 0
    · cases h
  | cons c cs ih =>
    rw [search] at h
    split at h
    · cases h
      exact Nat.zero_le _
    · obtain ⟨j, hj, rfl⟩ := Option.map_eq_some_iff.mp h
      exact Nat.succ_le_succ (ih hj)

theorem search_eq_zero_iff {needle text : List α} :
    search needle text = some 0 ↔ needle <+: text := by
  refine ⟨fun h => ?_, search_of_isPrefix⟩
  cases text with
  | nil => exact List.prefix_nil.mpr (List.infix_nil.mp (isInfix_of_search h))
  | cons c cs =>
    rw [search] at h
    split at h
    · next hpre => exact hpre
    · obtain ⟨i, -, hi⟩ := Option.map_eq_some_iff.mp h
      omega

/-- What is found in the first part of a text is what is found in it. -/
theorem search_of_take {needle text : List α} {k i : ℕ}
    (h : search needle (text.take k) = some i) : search needle text = some i := by
  induction text generalizing k i with
  | nil => simpa using h
  | cons c cs ih =>
    cases k with
    | zero =>
      rw [List.take_zero] at h
      obtain rfl := List.infix_nil.mp (isInfix_of_search h)
      rw [search_of_isPrefix List.nil_prefix] at h ⊢
      exact h
    | succ k =>
      rw [List.take_succ_cons] at h
      by_cases hpre : needle <+: c :: cs.take k
      · rw [search_of_isPrefix hpre] at h
        rw [search_of_isPrefix (hpre.trans (List.take_prefix (k + 1) (c :: cs)))]
        exact h
      · rw [search, if_neg hpre] at h
        obtain ⟨j, hj, rfl⟩ := Option.map_eq_some_iff.mp h
        have hlen := (isInfix_of_search hj).length_le
        rw [List.length_take] at hlen
        -- a needle that is found later is short enough to be found here
        have hnot : ¬needle <+: c :: cs := by
          intro hat
          refine hpre ?_
          have htake := List.prefix_take_iff.mpr ⟨hat, show needle.length ≤ k + 1 by omega⟩
          rwa [List.take_succ_cons] at htake
        rw [search, if_neg hnot, ih hj]
        rfl

/-- A search from the place a text is split at. -/
theorem find_split {text before rest : List α} {pos : ℕ} (htext : text = before ++ rest)
    (hpos : pos = before.length) (needle : List α) :
    find text needle pos = (search needle rest).map (pos + ·) := by
  subst htext hpos
  rw [find, if_neg (by simp), List.drop_left]

theorem findFirstOf_split {text before rest chars : List α} {c : α} {pos : ℕ}
    (htext : text = before ++ c :: rest) (hpos : pos = before.length) (hc : c ∈ chars) :
    findFirstOf text chars pos = some pos := by
  subst htext hpos
  rw [findFirstOf, if_neg (by simp), List.drop_left, List.findIdx?_cons]
  simp [hc]

end

/-! ## Needles and separators -/

/-- As far as both go, a needle at the start of `a ++ b` is what `a` is. -/
theorem take_eq_of_isPrefix_append {needle a b : List α} (h : needle <+: a ++ b) :
    needle.take a.length = a.take needle.length := by
  obtain ⟨rest, hrest⟩ := h
  have htake := congrArg (List.take (min needle.length a.length)) hrest
  rw [List.take_append_of_le_length (by omega), List.take_append_of_le_length (by omega)] at htake
  rcases Nat.le_total needle.length a.length with hle | hle
  · rw [Nat.min_eq_left hle, List.take_length] at htake
    exact (List.take_of_length_le hle).trans htake
  · rw [Nat.min_eq_right hle, List.take_length] at htake
    exact htake.trans (List.take_of_length_le hle).symm

/-- A needle without `c` that starts before a `c` ends before it. -/
theorem isPrefix_append_cons_iff {c : α} {needle a b : List α} (h : c ∉ needle) :
    needle <+: a ++ c :: b ↔ needle <+: a := by
  constructor
  · intro hpre
    rcases List.prefix_or_prefix_of_prefix hpre (List.prefix_append a (c :: b)) with hin | ⟨rest, rfl⟩
    · exact hin
    · -- otherwise the needle would reach the separator
      rw [List.prefix_append_right_inj] at hpre
      cases rest with
      | nil => simp
      | cons d rest =>
        obtain ⟨rfl, -⟩ := List.cons_prefix_cons.mp hpre
        exact absurd (by simp) h
  · exact fun hpre => hpre.trans (List.prefix_append a (c :: b))

/-- A needle without `c` is on one side of a `c`. -/
theorem isInfix_append_cons_iff {c : α} {needle a b : List α} (h : c ∉ needle) :
    needle <:+: a ++ c :: b ↔ needle <:+: a ∨ needle <:+: b := by
  induction a with
  | nil =>
    rw [List.nil_append, List.infix_cons_iff]
    constructor
    · rintro (hpre | hin)
      · cases needle with
        | nil => exact Or.inl List.nil_infix
        | cons d needle =>
          obtain ⟨rfl, -⟩ := List.cons_prefix_cons.mp hpre
          exact absurd List.mem_cons_self h
      · exact Or.inr hin
    · rintro (hin | hin)
      · rw [List.infix_nil.mp hin]
        exact Or.inl List.nil_prefix
      · exact Or.inr hin
  | cons d a ih =>
    rw [List.cons_append, List.infix_cons_iff, List.infix_cons_iff, ih, ← List.cons_append,
      isPrefix_append_cons_iff h, or_assoc]

end Muplar
