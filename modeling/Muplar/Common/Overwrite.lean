import Muplar.Common.Bytes
/-!
# Writing over bytes

A field is laid over the bytes that are there. What is read back where it
lies is the field, and everything else is as it was. Two byte strings
that agree on a range have the same fields in it, which is how a field is
carried past whatever is written elsewhere.
-/

namespace Muplar

/-- `bs` over what is there from `off` on. -/
def overwrite (data : Bytes) (off : ℕ) (bs : Bytes) : Bytes :=
  data.take off ++ (bs ++ data.drop (off + bs.length))

/-- The same bytes from `lo` to `hi`. -/
def AgreeOn (lo hi : ℕ) (a b : Bytes) : Prop :=
  ∀ i, lo ≤ i → i < hi → a[i]? = b[i]?

variable {data bs a b c : Bytes} {off len lo hi i : ℕ}

theorem slice_add (data : Bytes) (off m n : ℕ) :
    slice data off (m + n) = slice data off m ++ slice data (off + m) n := by
  rw [slice, slice, slice, List.take_add, List.drop_drop]

/-- Two fields in a row, told apart by the length of the first. -/
theorem slice_eq_append_iff :
    slice data off (a ++ b).length = a ++ b ↔
      slice data off a.length = a ∧ slice data (off + a.length) b.length = b := by
  rw [List.length_append, slice_add]
  constructor
  · intro h
    have hlen := congrArg List.length h
    rw [List.length_append, List.length_append] at hlen
    simp only [slice, List.length_take, List.length_drop] at hlen
    refine List.append_inj h ?_
    rw [slice, List.length_take, List.length_drop]
    omega
  · rintro ⟨ha, hb⟩
    rw [ha, hb]

theorem length_overwrite (h : off + bs.length ≤ data.length) :
    (overwrite data off bs).length = data.length := by
  rw [overwrite, List.length_append, List.length_append, List.length_take, List.length_drop]
  omega

/-- What was laid is read back. -/
theorem slice_overwrite (h : off ≤ data.length) :
    slice (overwrite data off bs) off bs.length = bs :=
  slice_append (by rw [List.length_take, Nat.min_eq_left h]) rfl

/-- What lies elsewhere is as it was. -/
theorem getElem?_overwrite (h : off + bs.length ≤ data.length)
    (hi : i < off ∨ off + bs.length ≤ i) : (overwrite data off bs)[i]? = data[i]? := by
  have hoff : (data.take off).length = off := by
    rw [List.length_take]
    omega
  rw [overwrite]
  rcases hi with hi | hi
  · rw [List.getElem?_append_left (by omega), List.getElem?_take_of_lt hi]
  · rw [List.getElem?_append_right (by omega), hoff, List.getElem?_append_right (by omega),
      List.getElem?_drop]
    congr 1
    omega

namespace AgreeOn

theorem trans (h : AgreeOn lo hi a b) (h' : AgreeOn lo hi b c) : AgreeOn lo hi a c :=
  fun i hlo hhi => (h i hlo hhi).trans (h' i hlo hhi)

theorem mono {lo' hi' : ℕ} (h : AgreeOn lo hi a b) (hlo : lo ≤ lo') (hhi : hi' ≤ hi) :
    AgreeOn lo' hi' a b :=
  fun i hi hi' => h i (Nat.le_trans hlo hi) (Nat.lt_of_lt_of_le hi' hhi)

/-- The fields in the range are the same. -/
theorem slice_eq (h : AgreeOn lo hi a b) (hlo : lo ≤ off) (hhi : off + len ≤ hi) :
    slice a off len = slice b off len := by
  refine List.ext_getElem? fun i => ?_
  rw [slice, slice, List.getElem?_take, List.getElem?_take]
  split
  · rw [List.getElem?_drop, List.getElem?_drop]
    exact h (off + i) (by omega) (by omega)
  · rfl

end AgreeOn

end Muplar
