import Mathlib.Data.List.Nodup
import Mathlib.Data.Nat.Notation
import Mathlib.Tactic.Common
/-!
# Entries under displaced keys

Values are entered into a table one after the other, each under its key
plus a displacement; the last one under a key stays, and a key that has
none reads as zero. Where every key has one entry, the table is right
exactly where the displaced entries are zero and none of them is entered
over another value (`landing_eq_recorded_iff`).
-/

namespace Muplar

namespace Displaced

/-- A value with its key, and how far from it the value is entered. -/
structure Entry (β : Type*) where
  key : ℕ
  shift : ℕ
  value : β

variable {β : Type*} [Zero β] {es : List (Entry β)} {i n : ℕ}

/-- What stays under a key. -/
def landing (es : List (Entry β)) (i : ℕ) : β :=
  ((es.reverse.find? fun e => e.key + e.shift = i).map Entry.value).getD 0

/-- The value of a key. -/
def recorded (es : List (Entry β)) (i : ℕ) : β :=
  ((es.find? fun e => e.key = i).map Entry.value).getD 0

/-- Nothing that is entered there, or the last of it. -/
theorem landing_cases (es : List (Entry β)) (i : ℕ) :
    ((∀ e ∈ es, e.key + e.shift ≠ i) ∧ landing es i = 0) ∨
      ∃ before e after, es = before ++ e :: after ∧ e.key + e.shift = i ∧
        (∀ y ∈ after, y.key + y.shift ≠ i) ∧ landing es i = e.value := by
  cases hfind : es.reverse.find? fun e => decide (e.key + e.shift = i) with
  | none =>
    refine .inl ⟨fun e he heq => ?_, by rw [landing, hfind]; rfl⟩
    have hno := List.find?_eq_none.mp hfind e (List.mem_reverse.mpr he)
    exact hno (decide_eq_true heq)
  | some e =>
    obtain ⟨hkey, after, before, hsplit, hafter⟩ := List.find?_eq_some_iff_append.mp hfind
    refine .inr ⟨before.reverse, e, after.reverse, ?_, of_decide_eq_true hkey, fun y hy heq => ?_,
      by rw [landing, hfind]; rfl⟩
    · rw [← List.reverse_reverse es, hsplit, List.reverse_append, List.reverse_cons,
        List.append_assoc, List.singleton_append]
    · have hno := hafter y (List.mem_reverse.mp hy)
      simp [heq] at hno

theorem recorded_of_mem (hnodup : (es.map Entry.key).Nodup) {e : Entry β} (he : e ∈ es) :
    recorded es e.key = e.value := by
  cases hfind : es.find? fun x => decide (x.key = e.key) with
  | none =>
    have hno := List.find?_eq_none.mp hfind e he
    simp at hno
  | some x =>
    have hkey : x.key = e.key := by simpa using List.find?_some hfind
    have hx : x = e :=
      List.inj_on_of_nodup_map hnodup (List.mem_of_find?_eq_some hfind) he hkey
    rw [recorded, hfind, hx]
    rfl

theorem recorded_of_not_mem (h : ∀ e ∈ es, e.key ≠ i) : recorded es i = 0 := by
  have hfind : es.find? (fun e => decide (e.key = i)) = none :=
    List.find?_eq_none.mpr fun e he heq => h e he (of_decide_eq_true heq)
  rw [recorded, hfind]
  rfl

/-- A value in its own place is spared by a displaced one that comes after
it, if it is zero where that one falls on it. -/
def Spared (x y : Entry β) : Prop :=
  x.shift = 0 → 0 < y.shift → y.key + y.shift = x.key → x.value = 0

section

variable (hnodup : (es.map Entry.key).Nodup)
include hnodup

/-- What is displaced must be zero: nothing but smaller ones that are
displaced can fall on it. -/
theorem value_eq_zero (hlt : ∀ e ∈ es, e.key < n)
    (h : ∀ i < n, landing es i = recorded es i) (k : ℕ) :
    ∀ e ∈ es, e.key = k → 0 < e.shift → e.value = 0 := by
  induction k using Nat.strongRecOn with
  | ind k ih =>
    rintro e he rfl hshift
    have hsame := h e.key (hlt e he)
    rw [recorded_of_mem hnodup he] at hsame
    rw [← hsame]
    rcases landing_cases es e.key with ⟨-, hzero⟩ | ⟨before, z, after, hsplit, hz, -, hvalue⟩
    · exact hzero
    · have hmem : z ∈ es := by simp [hsplit]
      by_cases hown : z.shift = 0
      · have hze : z = e := List.inj_on_of_nodup_map hnodup hmem he (by omega)
        rw [hze] at hown
        omega
      · rw [hvalue]
        exact ih z.key (by omega) z hmem rfl (by omega)

theorem spared_of_landing (h : ∀ e ∈ es, 0 < e.shift → e.value = 0) {x y : Entry β}
    {front back : List (Entry β)} (hes : es = front ++ back) (hx : x ∈ front) (hy : y ∈ back)
    (hsame : landing es x.key = x.value) : Spared x y := by
  intro hshift hyshift hkey
  rcases landing_cases es x.key with ⟨hno, -⟩ | ⟨before, z, after, hsplit, hz, hafter, hvalue⟩
  · exact absurd hkey (hno y (by simp [hes, hy]))
  · have hmem : z ∈ es := by simp [hsplit]
    by_cases hown : z.shift = 0
    · -- the last that falls on it would be itself, but the other one comes after it
      have hzx : z = x :=
        List.inj_on_of_nodup_map hnodup hmem (by simp [hes, hx]) (by omega)
      subst hzx
      have hdisjoint : z ∉ back := by
        have hall := List.Nodup.of_map Entry.key hnodup
        rw [hes] at hall
        exact fun hback => (List.disjoint_of_nodup_append hall) hx hback
      rw [hes] at hsplit
      rcases List.append_eq_append_iff.mp hsplit with ⟨gap, -, rfl⟩ | ⟨gap, -, hback⟩
      · exact absurd (by simp) hdisjoint
      · cases gap with
        | nil => exact absurd (by rw [← List.nil_append back, ← hback]; simp) hdisjoint
        | cons g gap =>
          have hback' : after = gap ++ back := (List.cons.inj hback).2
          exact absurd hkey (hafter y (by simp [hback', hy]))
    · rw [← hsame, hvalue]
      exact h z hmem (by omega)

/-- **The table is right** exactly where the displaced values are zero and
spare what was entered before them. -/
theorem landing_eq_recorded_iff (hlt : ∀ e ∈ es, e.key < n) :
    (∀ i < n, landing es i = recorded es i) ↔
      (∀ e ∈ es, 0 < e.shift → e.value = 0) ∧ es.Pairwise Spared := by
  constructor
  · intro h
    have hzero : ∀ e ∈ es, 0 < e.shift → e.value = 0 := fun e he =>
      value_eq_zero hnodup hlt h e.key e he rfl
    refine ⟨hzero, List.pairwise_iff_forall_sublist.mpr fun hsub => ?_⟩
    obtain ⟨front, back, hes, hx, hy⟩ := List.cons_sublist_iff.mp hsub
    rename_i x y
    have hxes : x ∈ es := by simp [hes, hx]
    have hsame := h x.key (hlt x hxes)
    rw [recorded_of_mem hnodup hxes] at hsame
    exact spared_of_landing hnodup hzero hes hx (List.singleton_sublist.mp hy) hsame
  · rintro ⟨hzero, hspared⟩ i -
    by_cases hex : ∃ x ∈ es, x.key = i
    · obtain ⟨x, hx, rfl⟩ := hex
      rw [recorded_of_mem hnodup hx]
      rcases landing_cases es x.key with ⟨hno, hland⟩ | ⟨before, z, after, rfl, hz, hafter, hland⟩
      · rw [hland, hzero x hx (Nat.pos_of_ne_zero fun hshift => hno x hx (by omega))]
      · rw [hland]
        by_cases hown : z.shift = 0
        · rw [List.inj_on_of_nodup_map hnodup (by simp) hx (by omega : z.key = x.key)]
        · rw [hzero z (by simp) (by omega)]
          by_cases hshift : x.shift = 0
          · have hbefore : x ∈ before := by
              rcases List.mem_append.mp hx with hbefore | hrest
              · exact hbefore
              · rcases List.mem_cons.mp hrest with rfl | hrest
                · exact absurd hshift hown
                · exact absurd (by omega) (hafter x hrest)
            exact ((List.pairwise_append.mp hspared).2.2 x hbefore z List.mem_cons_self hshift
              (by omega) hz).symm
          · exact (hzero x hx (by omega)).symm
    · rw [recorded_of_not_mem fun x hx heq => hex ⟨x, hx, heq⟩]
      rcases landing_cases es i with ⟨-, hland⟩ | ⟨before, z, after, rfl, hz, -, hland⟩
      · exact hland
      · rw [hland]
        refine hzero z (by simp) (Nat.pos_of_ne_zero fun hshift => hex ⟨z, by simp, by omega⟩)

end

end Displaced

end Muplar
