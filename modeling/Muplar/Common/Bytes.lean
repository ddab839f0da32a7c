import Mathlib.Algebra.Group.Int.Defs
import Mathlib.Algebra.Group.Nat.Defs
import Mathlib.Algebra.GroupWithZero.Nat
import Mathlib.Data.List.Basic
import Mathlib.Data.List.Infix
import Mathlib.Data.Nat.Notation
/-!
# Byte strings

A `std::string` and a `std::vector<uint8_t>` are both finite sequences of
bytes, and are the same type here. Literals of the source are written as
ordinary strings and read through `ascii`.

The formats this project reads are little-endian. `le` is the number a
field of bytes stands for, `encodeLe` the field a number is written as,
and a `slice` is the field at an offset.
-/

namespace Muplar

/-- A finite sequence of bytes: a `std::string` or a byte vector. -/
abbrev Bytes := List UInt8

instance : LawfulBEq Bytes := inferInstance

/-- The bytes of a literal: its UTF-8 encoding, so one byte a character
for the ASCII literals of the source. -/
def ascii (s : String) : Bytes :=
  s.toByteArray.data.toList

/-- The newline that separates the fields of a payload. -/
def newline : UInt8 := 10

/-! ## Little-endian numbers -/

/-- The number a little-endian field stands for. -/
def le : Bytes → ℕ
  | [] => 0
  | b :: bs => b.toNat + 256 * le bs

/-- The `width` low bytes of `value`, the lowest first. -/
def encodeLe : (width value : ℕ) → Bytes
  | 0, _ => []
  | width + 1, value => UInt8.ofNat value :: encodeLe width (value / 256)

@[simp] theorem length_encodeLe (width value : ℕ) : (encodeLe width value).length = width := by
  induction width generalizing value with
  | zero => rfl
  | succ width ih => rw [encodeLe, List.length_cons, ih]

theorem le_lt (bs : Bytes) : le bs < 256 ^ bs.length := by
  induction bs with
  | nil => simp [le]
  | cons b bs ih =>
    have hb := b.toNat_lt
    rw [le, List.length_cons, Nat.pow_succ]
    omega

/-- A number that fits its field is read back. -/
theorem le_encodeLe {width value : ℕ} (h : value < 256 ^ width) :
    le (encodeLe width value) = value := by
  induction width generalizing value with
  | zero =>
    rw [Nat.pow_zero] at h
    rw [encodeLe, le]
    omega
  | succ width ih =>
    have hdiv : value / 256 < 256 ^ width := by
      rw [Nat.pow_succ] at h
      omega
    rw [encodeLe, le, ih hdiv, UInt8.toNat_ofNat']
    omega

/-- A field is what its number is written as. -/
theorem encodeLe_le (bs : Bytes) : encodeLe bs.length (le bs) = bs := by
  induction bs with
  | nil => rfl
  | cons b bs ih =>
    have hb := b.toNat_lt
    have hlow : UInt8.ofNat (b.toNat + 256 * le bs) = b := by
      apply UInt8.toNat_inj.mp
      rw [UInt8.toNat_ofNat']
      omega
    have hhigh : (b.toNat + 256 * le bs) / 256 = le bs := by omega
    rw [List.length_cons, encodeLe, le, hlow, hhigh, ih]

/-! ## Fields -/

/-- The `len` bytes from `off` on, or as many as there are. -/
def slice (data : Bytes) (off len : ℕ) : Bytes :=
  (data.drop off).take len

theorem length_slice {data : Bytes} {off len : ℕ} (h : off + len ≤ data.length) :
    (slice data off len).length = len := by
  rw [slice, List.length_take, List.length_drop]
  omega

/-- A field is where the layout puts it. -/
theorem slice_append {before field after : Bytes} {off len : ℕ} (hoff : off = before.length)
    (hlen : len = field.length) : slice (before ++ (field ++ after)) off len = field := by
  subst hoff hlen
  rw [slice, List.drop_left, List.take_left]

/-- A record is its fields one after the other: field `i` is where the
ones before it end. -/
theorem slice_record {before after : Bytes} {fields : List Bytes} {i off k len : ℕ} {field : Bytes}
    (hfield : fields[i]? = some field) (hoff : off = before.length + k)
    (hk : k = (fields.take i).flatten.length) (hlen : len = field.length) :
    slice (before ++ (fields.flatten ++ after)) off len = field := by
  obtain ⟨hi, rfl⟩ := List.getElem?_eq_some_iff.mp hfield
  have hsplit : fields.flatten =
      (fields.take i).flatten ++ (fields[i] ++ (fields.drop (i + 1)).flatten) := by
    rw [← List.flatten_cons, ← List.drop_eq_getElem_cons hi, ← List.flatten_append,
      List.take_append_drop]
  rw [hsplit, List.append_assoc, List.append_assoc, ← List.append_assoc before]
  exact slice_append (by rw [List.length_append, hoff, hk]) hlen

end Muplar
