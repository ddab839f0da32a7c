import Mathlib.Data.List.GetD
import Muplar.Common.JavaText
/-!
# Texts in UTF-16 and the places between their characters

A Java string is a text if it is the units of some characters, and a place
in a text lies between two characters if what is in front of it and what
is behind it are texts. A range between two such places can be replaced by
a text, and what was put in ends at one (`boundary_replaceRange`).

One unit in front of such a place is a character exactly where it is no
low surrogate, one behind it exactly where it is no high one; only then is
the next place over between characters too (`boundary_pred_iff`,
`boundary_succ_iff`).
-/

namespace Muplar

namespace CodePoints

variable {s t text insert : JavaString} {i start stop : ℕ}

/-- The units of some characters. -/
def IsUtf16 (s : JavaString) : Prop :=
  ∃ cs, s = utf16 cs

theorem isUtf16_iff : IsUtf16 s ↔ utf16 s.chars = s := by
  constructor
  · rintro ⟨cs, rfl⟩
    rw [chars_utf16]
  · exact fun h => ⟨_, h.symm⟩

instance decidableIsUtf16 (s : JavaString) : Decidable (IsUtf16 s) :=
  decidable_of_iff _ isUtf16_iff.symm

theorem IsUtf16.nil : IsUtf16 [] := ⟨[], rfl⟩

theorem IsUtf16.char (c : Char) : IsUtf16 (utf16Char c) :=
  ⟨[c], (List.append_nil _).symm⟩

theorem IsUtf16.append (hs : IsUtf16 s) (ht : IsUtf16 t) : IsUtf16 (s ++ t) := by
  obtain ⟨cs, rfl⟩ := hs
  obtain ⟨ds, rfl⟩ := ht
  exact ⟨cs ++ ds, (utf16_append cs ds).symm⟩

/-- A place in a text that lies between two characters, or at its ends. -/
structure Boundary (text : JavaString) (i : ℕ) : Prop where
  le : i ≤ text.length
  front : IsUtf16 (text.take i)
  back : IsUtf16 (text.drop i)

instance decidableBoundary (text : JavaString) (i : ℕ) : Decidable (Boundary text i) :=
  decidable_of_iff (i ≤ text.length ∧ IsUtf16 (text.take i) ∧ IsUtf16 (text.drop i))
    ⟨fun h => ⟨h.1, h.2.1, h.2.2⟩, fun h => ⟨h.le, h.front, h.back⟩⟩

theorem boundary_append (hs : IsUtf16 s) (ht : IsUtf16 t) : Boundary (s ++ t) s.length where
  le := by rw [List.length_append]; omega
  front := by rwa [List.take_left]
  back := by rwa [List.drop_left]

theorem boundary_zero (h : IsUtf16 text) : Boundary text 0 :=
  boundary_append .nil h

theorem boundary_length (h : IsUtf16 text) : Boundary text text.length := by
  have hend := boundary_append h .nil
  rwa [List.append_nil] at hend

theorem Boundary.isUtf16 (h : Boundary text i) : IsUtf16 text := by
  have hall := h.front.append h.back
  rwa [List.take_append_drop] at hall

/-! ## Characters beside a place -/

/-- The units of a character: one that is no surrogate, or a pair. -/
theorem utf16Char_cases (c : Char) :
    (c.toNat < 0x10000 ∧ ∃ u, utf16Char c = [u] ∧ isHighSurrogate u = false ∧
        isLowSurrogate u = false) ∨
      ¬c.toNat < 0x10000 ∧ ∃ high low, utf16Char c = [high, low] ∧
        isHighSurrogate high = true ∧ isLowSurrogate low = true ∧
        isLowSurrogate high = false ∧ isHighSurrogate low = false := by
  by_cases hbmp : c.toNat < 0x10000
  · have hcases := charNat_cases c
    obtain ⟨hhigh, hlow⟩ := not_surrogate (n := c.toNat) (by omega)
    exact .inl ⟨hbmp, _, if_pos hbmp, hhigh, hlow⟩
  · obtain ⟨high, low, hunits, hhigh, hlow, hhigh', hlow', -⟩ := exists_pair hbmp
    exact .inr ⟨hbmp, high, low, hunits, hhigh, hlow, hhigh', hlow'⟩

/-- The character in front of a place. -/
theorem Boundary.exists_before (h : Boundary text i) (hpos : 0 < i) : ∃ cs c ds,
    text = utf16 cs ++ (utf16Char c ++ utf16 ds) ∧
      i = (utf16 cs).length + (utf16Char c).length := by
  obtain ⟨front, hfront⟩ := h.front
  obtain ⟨ds, hback⟩ := h.back
  have hlen : i = (utf16 front).length := by
    rw [← hfront, List.length_take, Nat.min_eq_left h.le]
  rcases List.eq_nil_or_concat' front with rfl | ⟨cs, c, rfl⟩
  · rw [utf16_nil, List.length_nil] at hlen
    omega
  · have hsplit : utf16 (cs ++ [c]) = utf16 cs ++ utf16Char c := by
      rw [utf16_append, utf16_cons, utf16_nil, List.append_nil]
    refine ⟨cs, c, ds, ?_, ?_⟩
    · rw [← List.take_append_drop i text, hfront, hback, hsplit, List.append_assoc]
    · rw [hlen, hsplit, List.length_append]

/-- The character behind a place. -/
theorem Boundary.exists_after (h : Boundary text i) (hlt : i < text.length) : ∃ cs c ds,
    text = utf16 cs ++ (utf16Char c ++ utf16 ds) ∧ i = (utf16 cs).length := by
  obtain ⟨cs, hfront⟩ := h.front
  obtain ⟨back, hback⟩ := h.back
  have hlen : i = (utf16 cs).length := by
    rw [← hfront, List.length_take, Nat.min_eq_left h.le]
  cases back with
  | nil =>
    rw [utf16_nil, List.drop_eq_nil_iff] at hback
    omega
  | cons c ds =>
    refine ⟨cs, c, ds, ?_, hlen⟩
    rw [← List.take_append_drop i text, hfront, hback, utf16_cons]

/-- No text ends in the first half of a pair. -/
theorem not_isUtf16_of_high {cs : List Char} {u : UInt16} (h : isHighSurrogate u = true) :
    ¬IsUtf16 (utf16 cs ++ [u]) := by
  rintro ⟨ds, hds⟩
  rcases List.eq_nil_or_concat' ds with rfl | ⟨ds, c, rfl⟩
  · simp at hds
  · have hlast := congrArg List.getLast? hds
    rw [utf16_append, utf16_cons, utf16_nil, List.append_nil, List.getLast?_concat] at hlast
    rcases utf16Char_cases c with ⟨-, v, hunit, hhigh, -⟩ | ⟨-, high, low, hunit, -, -, -, hlow⟩
    · rw [hunit, List.getLast?_concat] at hlast
      rw [Option.some.inj hlast, hhigh] at h
      cases h
    · rw [hunit, show utf16 ds ++ [high, low] = (utf16 ds ++ [high]) ++ [low] by simp,
        List.getLast?_concat] at hlast
      rw [Option.some.inj hlast, hlow] at h
      cases h

/-- No text starts with the second half of a pair. -/
theorem not_isUtf16_of_low {u : UInt16} (h : isLowSurrogate u = true) (rest : JavaString) :
    ¬IsUtf16 (u :: rest) := by
  rintro ⟨ds, hds⟩
  cases ds with
  | nil => cases hds
  | cons c ds =>
    rw [utf16_cons] at hds
    rcases utf16Char_cases c with ⟨-, v, hunit, -, hlow⟩ | ⟨-, high, low, hunit, -, -, hhigh, -⟩
    · rw [hunit] at hds
      rw [(List.cons.inj hds).1, hlow] at h
      cases h
    · rw [hunit] at hds
      rw [(List.cons.inj hds).1, hhigh] at h
      cases h

/-- What the unit in front of a place says about the character there. -/
theorem Boundary.before_cases (h : Boundary text i) (hpos : 0 < i) :
    (isLowSurrogate (text.getD (i - 1) 0) = false ∧ ∃ cs c ds u, utf16Char c = [u] ∧
        text = utf16 cs ++ (utf16Char c ++ utf16 ds) ∧ i = (utf16 cs).length + 1) ∨
      isLowSurrogate (text.getD (i - 1) 0) = true ∧ ∃ cs c ds high low,
        utf16Char c = [high, low] ∧ isLowSurrogate low = true ∧
        text = utf16 cs ++ (utf16Char c ++ utf16 ds) ∧ i = (utf16 cs).length + 2 := by
  obtain ⟨cs, c, ds, rfl, rfl⟩ := h.exists_before hpos
  rcases utf16Char_cases c with ⟨-, u, hunit, -, hlow⟩ | ⟨-, high, low, hunit, -, hlow, -, -⟩
  · refine .inl ⟨?_, cs, c, ds, u, hunit, rfl, by rw [hunit]; rfl⟩
    rw [hunit, List.length_singleton, Nat.add_sub_cancel,
      List.getD_append_right _ _ _ _ le_rfl, Nat.sub_self]
    exact hlow
  · refine .inr ⟨?_, cs, c, ds, high, low, hunit, hlow, rfl, by rw [hunit]; rfl⟩
    have hplace : (utf16 cs).length + [high, low].length - 1 = (utf16 cs).length + 1 := rfl
    rw [hunit, hplace, List.getD_append_right _ _ _ _ (Nat.le_add_right _ 1),
      Nat.add_sub_cancel_left]
    exact hlow

/-- What the unit behind a place says about the character there. -/
theorem Boundary.after_cases (h : Boundary text i) (hlt : i < text.length) :
    (isHighSurrogate (text.getD i 0) = false ∧ ∃ cs c ds u, utf16Char c = [u] ∧
        text = utf16 cs ++ (utf16Char c ++ utf16 ds) ∧ i = (utf16 cs).length) ∨
      isHighSurrogate (text.getD i 0) = true ∧ ∃ cs c ds high low,
        utf16Char c = [high, low] ∧ isHighSurrogate high = true ∧
        text = utf16 cs ++ (utf16Char c ++ utf16 ds) ∧ i = (utf16 cs).length := by
  obtain ⟨cs, c, ds, rfl, rfl⟩ := h.exists_after hlt
  have hunits : ∀ units : JavaString,
      (utf16 cs ++ (units ++ utf16 ds)).getD (utf16 cs).length 0 = (units ++ utf16 ds).getD 0 0 :=
    fun units => by rw [List.getD_append_right _ _ _ _ le_rfl, Nat.sub_self]
  rw [hunits]
  rcases utf16Char_cases c with ⟨-, u, hunit, hhigh, -⟩ | ⟨-, high, low, hunit, hhigh, -, -, -⟩
  · exact .inl ⟨by rw [hunit]; exact hhigh, cs, c, ds, u, hunit, rfl, rfl⟩
  · exact .inr ⟨by rw [hunit]; exact hhigh, cs, c, ds, high, low, hunit, hhigh, rfl, rfl⟩

/-- **One unit back** is a place between characters too, unless that is in
the middle of a pair. -/
theorem boundary_pred_iff (h : Boundary text i) (hpos : 0 < i) :
    Boundary text (i - 1) ↔ isLowSurrogate (text.getD (i - 1) 0) = false := by
  rcases h.before_cases hpos with ⟨hunit, cs, c, ds, u, hc, rfl, rfl⟩ |
    ⟨hunit, cs, c, ds, high, low, hc, hlow, rfl, rfl⟩
  · exact iff_of_true (boundary_append ⟨cs, rfl⟩ ((IsUtf16.char c).append ⟨ds, rfl⟩)) hunit
  · rw [hunit]
    refine iff_of_false (fun hplace => ?_) (by decide)
    have hback := hplace.back
    have hsplit : utf16 cs ++ (utf16Char c ++ utf16 ds) =
        (utf16 cs ++ [high]) ++ low :: utf16 ds := by simp [hc]
    rw [hsplit, show (utf16 cs).length + 2 - 1 = (utf16 cs ++ [high]).length by simp,
      List.drop_left] at hback
    exact not_isUtf16_of_low hlow _ hback

/-- **One unit on** is a place between characters too, unless that is in the
middle of a pair. -/
theorem boundary_succ_iff (h : Boundary text i) (hlt : i < text.length) :
    Boundary text (i + 1) ↔ isHighSurrogate (text.getD i 0) = false := by
  rcases h.after_cases hlt with ⟨hunit, cs, c, ds, u, hc, rfl, rfl⟩ |
    ⟨hunit, cs, c, ds, high, low, hc, hhigh, rfl, rfl⟩
  · have hplace := boundary_append (t := utf16 ds)
      (IsUtf16.append ⟨cs, rfl⟩ (.char c)) ⟨ds, rfl⟩
    rw [List.append_assoc, List.length_append, hc, List.length_singleton, ← hc] at hplace
    exact iff_of_true hplace hunit
  · rw [hunit]
    refine iff_of_false (fun hplace => ?_) (by decide)
    have hfront := hplace.front
    have hsplit : utf16 cs ++ (utf16Char c ++ utf16 ds) =
        (utf16 cs ++ [high]) ++ low :: utf16 ds := by simp [hc]
    rw [hsplit, show (utf16 cs).length + 1 = (utf16 cs ++ [high]).length by simp,
      List.take_left] at hfront
    exact not_isUtf16_of_high hhigh hfront

/-! ## Replacing a range -/

/-- The text with another in the place of a range. -/
def replaceRange (text : JavaString) (start stop : ℕ) (insert : JavaString) : JavaString :=
  text.take start ++ (insert ++ text.drop stop)

theorem length_replaceRange (insert : JavaString) (hstart : start ≤ stop)
    (hstop : stop ≤ text.length) :
    (replaceRange text start stop insert).length =
      text.length - (stop - start) + insert.length := by
  rw [replaceRange, List.length_append, List.length_append, List.length_take, List.length_drop]
  omega

theorem boundary_replaceRange_start (hstart : Boundary text start) (hstop : Boundary text stop)
    (hinsert : IsUtf16 insert) : Boundary (replaceRange text start stop insert) start := by
  have hplace := boundary_append hstart.front (hinsert.append hstop.back)
  rwa [List.length_take, Nat.min_eq_left hstart.le] at hplace

/-- The place behind what was put in. -/
theorem boundary_replaceRange (hstart : Boundary text start) (hstop : Boundary text stop)
    (hinsert : IsUtf16 insert) :
    Boundary (replaceRange text start stop insert) (start + insert.length) := by
  have hplace := boundary_append (hstart.front.append hinsert) hstop.back
  rwa [List.append_assoc, List.length_append, List.length_take, Nat.min_eq_left hstart.le]
    at hplace

/-- The character in front of a place is removed, and nothing else. -/
def RemovesBefore (text : JavaString) (i : ℕ) (result : JavaString) : Prop :=
  ∃ cs c ds, text = utf16 cs ++ (utf16Char c ++ utf16 ds) ∧
    i = (utf16 cs).length + (utf16Char c).length ∧ result = utf16 cs ++ utf16 ds

/-- The character behind a place is removed, and nothing else. -/
def RemovesAfter (text : JavaString) (i : ℕ) (result : JavaString) : Prop :=
  ∃ cs c ds, text = utf16 cs ++ (utf16Char c ++ utf16 ds) ∧
    i = (utf16 cs).length ∧ result = utf16 cs ++ utf16 ds

/-- **To remove one unit back is to remove a character** exactly where that
unit is not half of a pair. -/
theorem removesBefore_iff (h : Boundary text i) (hpos : 0 < i) :
    RemovesBefore text i (replaceRange text (i - 1) i []) ↔
      isLowSurrogate (text.getD (i - 1) 0) = false := by
  have hlength := length_replaceRange [] (Nat.sub_le i 1) h.le
  rcases h.before_cases hpos with ⟨hunit, cs, c, ds, u, hc, rfl, rfl⟩ | ⟨hunit, -⟩
  · refine iff_of_true ⟨cs, c, ds, rfl, by rw [hc]; rfl, ?_⟩ hunit
    rw [replaceRange, hc, Nat.add_sub_cancel, List.take_left, List.nil_append, ← List.append_assoc,
      show (utf16 cs).length + 1 = (utf16 cs ++ [u]).length by simp, List.drop_left]
  · rw [hunit]
    refine iff_of_false ?_ (by decide)
    rintro ⟨cs, c, ds, rfl, rfl, hresult⟩
    rcases utf16Char_cases c with ⟨-, u, hc, -, hlow⟩ | ⟨-, high, low, hc, -, -, -, -⟩
    · rw [hc, List.length_singleton, Nat.add_sub_cancel, List.getD_append_right _ _ _ _ le_rfl,
        Nat.sub_self] at hunit
      exact absurd (hunit.symm.trans hlow) (by decide)
    · rw [hresult, hc] at hlength
      simp only [List.length_append, List.length_cons, List.length_nil] at hlength
      omega

/-- **To remove one unit on is to remove a character** exactly where that
unit is not half of a pair. -/
theorem removesAfter_iff (h : Boundary text i) (hlt : i < text.length) :
    RemovesAfter text i (replaceRange text i (i + 1) []) ↔
      isHighSurrogate (text.getD i 0) = false := by
  have hlength := length_replaceRange [] (Nat.le_succ i) hlt
  rcases h.after_cases hlt with ⟨hunit, cs, c, ds, u, hc, rfl, rfl⟩ | ⟨hunit, -⟩
  · refine iff_of_true ⟨cs, c, ds, rfl, rfl, ?_⟩ hunit
    rw [replaceRange, hc, List.take_left, List.nil_append, ← List.append_assoc,
      show (utf16 cs).length + 1 = (utf16 cs ++ [u]).length by simp, List.drop_left]
  · rw [hunit]
    refine iff_of_false ?_ (by decide)
    rintro ⟨cs, c, ds, rfl, rfl, hresult⟩
    rw [List.getD_append_right _ _ _ _ le_rfl, Nat.sub_self] at hunit
    rcases utf16Char_cases c with ⟨-, u, hc, hhigh, -⟩ | ⟨-, high, low, hc, -, -, -, -⟩
    · rw [hc] at hunit
      exact absurd (hunit.symm.trans hhigh) (by decide)
    · rw [hresult, hc] at hlength
      simp only [List.length_append, List.length_cons, List.length_nil] at hlength
      omega

end CodePoints

end Muplar
