import Mathlib.Data.List.TakeWhile
import Muplar.Common.Bytes
import Muplar.Common.Search
/-!
# Names compared through a buffer

A string of a file is compared with a name by copying as much of it as
the comparison needs to a buffer of fixed size, of which the last byte
stays NUL. What the comparison sees is the string up to the size of the
buffer: a shorter string is compared as a whole, of a longer one only the
beginning.
-/

namespace Muplar

/-- `strncmp(a, b, n) == 0`, where both end in a NUL. -/
def strncmpEq : (n : ℕ) → Bytes → Bytes → Bool
  | 0, _, _ => true
  | n + 1, a, b =>
    a.headD 0 = b.headD 0 && (a.headD 0 = 0 || strncmpEq n a.tail b.tail)

/-- A buffer of zeros that bytes are read to. -/
def buffer (size : ℕ) (bytes : Bytes) : Bytes :=
  bytes ++ List.replicate (size - bytes.length) 0

/-- `strncmp(buf, name, size of name) == 0`, and the NUL behind it. -/
def sameName (size : ℕ) (bytes name : Bytes) : Bool :=
  strncmpEq name.length (buffer size bytes) name &&
    (buffer size bytes)[name.length]?.getD 0 = 0

section

variable {file text name a bytes : Bytes} {off size k : ℕ}

theorem strncmpEq_iff (hname : 0 ∉ name) :
    strncmpEq name.length a name = true ↔ name <+: a := by
  induction name generalizing a with
  | nil => simp [strncmpEq]
  | cons c name ih =>
    obtain ⟨hc, hrest⟩ := not_or.mp (List.mem_cons.not.mp hname)
    cases a with
    | nil => simp [strncmpEq, hc]
    | cons d a =>
      change (decide (d = c) && (decide (d = 0) || strncmpEq name.length a name)) = true ↔ _
      rw [Bool.and_eq_true, Bool.or_eq_true, decide_eq_true_eq, decide_eq_true_eq, ih hrest,
        List.cons_prefix_cons, eq_comm]
      constructor
      · rintro ⟨rfl, h⟩
        exact ⟨rfl, h.resolve_left (Ne.symm hc)⟩
      · rintro ⟨rfl, h⟩
        exact ⟨rfl, .inr h⟩

/-- A string of a file, and what stands behind it. -/
theorem drop_eq_of_slice (htext : slice file off (text.length + 1) = text ++ [0]) :
    ∃ rest, file.drop off = text ++ 0 :: rest := by
  refine ⟨(file.drop off).drop (text.length + 1), ?_⟩
  conv_lhs => rw [← List.take_append_drop (text.length + 1) (file.drop off)]
  rw [show (file.drop off).take (text.length + 1) = text ++ [0] from htext, List.append_assoc,
    List.singleton_append]

/-- What of a string is in the buffer. -/
theorem takeWhile_slice (htext : slice file off (text.length + 1) = text ++ [0]) (hnul : 0 ∉ text) :
    (slice file off k).takeWhile (· ≠ 0) = text.take k := by
  obtain ⟨rest, hrest⟩ := drop_eq_of_slice htext
  have hall : ∀ c ∈ text, decide (c ≠ 0) = true := fun c hc =>
    decide_eq_true fun h => hnul (h ▸ hc)
  rw [slice, hrest]
  rcases Nat.lt_or_ge text.length k with hlt | hle
  · obtain ⟨j, rfl⟩ : ∃ j, k = text.length + (j + 1) := ⟨k - text.length - 1, by omega⟩
    rw [List.take_length_add_append, List.take_succ_cons, List.takeWhile_append_of_pos hall,
      List.takeWhile_cons_of_neg (by simp), List.append_nil, List.take_of_length_le (by omega)]
  · rw [List.take_append_of_le_length hle]
    exact List.takeWhile_eq_self_iff.mpr fun c hc => hall c (List.mem_of_mem_take hc)

theorem sameName_iff_isPrefix (hsize : bytes.length < size) (hname : 0 ∉ name) :
    sameName size bytes name = true ↔
      name <+: bytes ∧ (buffer size bytes)[name.length]?.getD 0 = 0 := by
  obtain ⟨n, hn⟩ : ∃ n, size - bytes.length = n + 1 := ⟨size - bytes.length - 1, by omega⟩
  have hbuffer : name <+: buffer size bytes ↔ name <+: bytes := by
    rw [buffer, hn, List.replicate_succ]
    exact isPrefix_append_cons_iff hname
  rw [sameName, Bool.and_eq_true, strncmpEq_iff hname, hbuffer, decide_eq_true_eq]

/-- **What the comparison says**: the string, as much as there is room for,
is the name. -/
theorem sameName_iff (hsize : 0 < size) (htext : slice file off (text.length + 1) = text ++ [0])
    (hnul : 0 ∉ text) (hname : 0 ∉ name) {bytes : Bytes}
    (hbytes : bytes = slice file off (min (name.length + 1) (size - 1))) :
    bytes.length = min (name.length + 1) (size - 1) ∧ sameName size bytes name = true ↔
      text.take (size - 1) = name := by
  obtain ⟨rest, hrest⟩ := drop_eq_of_slice htext
  rw [slice, hrest] at hbytes
  have hlen : bytes.length ≤ min (name.length + 1) (size - 1) := by
    rw [hbytes]
    exact List.length_take_le _ _
  rw [sameName_iff_isPrefix (by omega) hname]
  constructor
  · rintro ⟨hfull, hfront, hend⟩
    have hle := hfront.length_le
    have htaken : name <+: text := by
      rw [hbytes] at hfront
      exact (isPrefix_append_cons_iff hname).mp (hfront.trans (List.take_prefix _ _))
    have hshort := htaken.length_le
    have heq : name = text.take name.length := List.prefix_iff_eq_take.mp htaken
    rcases Nat.lt_or_ge name.length (size - 1) with hlt | hge
    · -- the NUL that was read is the one behind the string
      have hnot : ¬name.length < text.length := fun hinside => by
        rw [buffer, List.getElem?_append_left (by omega), hbytes,
          List.getElem?_take_of_lt (by omega), List.getElem?_append_left hinside,
          List.getElem?_eq_getElem hinside, Option.getD_some] at hend
        exact hnul (hend ▸ List.getElem_mem hinside)
      rw [List.take_of_length_le (by omega), heq, List.take_of_length_le (by omega)]
    · rw [show size - 1 = name.length by omega]
      exact heq.symm
  · rintro rfl
    rcases Nat.lt_or_ge text.length (size - 1) with hlt | hge
    · rw [List.take_of_length_le hlt.le] at hbytes ⊢
      have hbytes : bytes = text ++ [0] := by
        rw [hbytes, Nat.min_eq_left (by omega), List.take_length_add_append]
        rfl
      rw [hbytes, List.length_append, List.length_singleton]
      refine ⟨by omega, List.prefix_append text [0], ?_⟩
      rw [buffer, List.getElem?_append_left (by simp), List.getElem?_concat_length,
        Option.getD_some]
    · have hshort : (text.take (size - 1)).length = size - 1 := List.length_take_of_le hge
      have hbytes : bytes = text.take (size - 1) := by
        rw [hbytes, hshort, Nat.min_eq_right (by omega), List.take_append_of_le_length hge]
      rw [hbytes, hshort]
      refine ⟨by omega, List.prefix_refl _, ?_⟩
      -- the last byte of the buffer is not read to
      rw [buffer, List.getElem?_append_right hshort.le, hshort, Nat.sub_self,
        show size - (size - 1) = 1 by omega]
      rfl

end

end Muplar
