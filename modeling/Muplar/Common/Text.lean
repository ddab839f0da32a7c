import Muplar.Common.Bytes
/-!
# Numbers and fields in a text

How the C++ library writes numbers and reads them back, in base ten, how
a text is cut at a separator and how two texts are compared. A reader of numbers skips blanks, takes
a sign and the digits, and reports how many bytes it used; what exceeds
the result type is an exception, as is a text without a digit.
-/

namespace Muplar

/-! ## Writing -/

/-- `std::to_string` of an unsigned number. -/
def decimal (n : ℕ) : Bytes :=
  (Nat.toDigits 10 n).map fun c => UInt8.ofNat c.toNat

/-- `std::to_string` of a signed number. -/
def decimalInt : ℤ → Bytes
  | .ofNat n => decimal n
  | .negSucc n => 45 :: decimal (n + 1)

theorem length_decimal_le {n k : ℕ} (hk : 0 < k) (h : n < 10 ^ k) : (decimal n).length ≤ k := by
  rw [decimal, List.length_map]
  exact (Nat.length_toDigits_le_iff (by decide) hk).mpr h

/-- A 64-bit number takes twenty digits at most. -/
theorem length_decimal_word (x : UInt64) : (decimal x.toNat).length ≤ 20 := by
  have hx := x.toNat_lt
  exact length_decimal_le (by decide) (by omega)

/-! ## Reading -/

/-- `std::isspace`. -/
def isSpace (b : UInt8) : Bool :=
  b = 32 || 9 ≤ b && b ≤ 13

/-- `std::isdigit`. -/
def isDigit (b : UInt8) : Bool :=
  48 ≤ b && b ≤ 57

/-- The number a run of digits stands for. -/
def digitsValue (digits : Bytes) : ℕ :=
  digits.foldl (fun n b => 10 * n + (b.toNat - 48)) 0

/-- What the readers have in common: the sign, the value of the digits and
the bytes used, where there is a digit. -/
def readDigits (text : Bytes) : Option (Bool × ℕ × ℕ) :=
  let blanks := text.takeWhile isSpace
  let rest := text.dropWhile isSpace
  let sign := rest.take 1 = [43] ∨ rest.take 1 = [45]
  let digits := (if sign then rest.tail else rest).takeWhile isDigit
  if digits.isEmpty then none
  else some (rest.take 1 = [45], digitsValue digits,
    blanks.length + (if sign then 1 else 0) + digits.length)

/-- A signed reader with results between `low` and `high`. -/
def readSigned (low high : ℤ) (text : Bytes) : Option (ℤ × ℕ) :=
  match readDigits text with
  | none => none
  | some (negative, value, used) =>
    let number : ℤ := if negative then -value else value
    if low ≤ number ∧ number ≤ high then some (number, used) else none

/-- `std::stol`. -/
def stol : Bytes → Option (ℤ × ℕ) :=
  readSigned (-(2 ^ 63)) (2 ^ 63 - 1)

/-- `std::stoi`. -/
def stoi (text : Bytes) : Option ℤ :=
  (readSigned (-(2 ^ 31)) (2 ^ 31 - 1) text).map Prod.fst

/-- `std::stoull`: a minus sign negates the result in its type. -/
def stoull (text : Bytes) : Option UInt64 :=
  match readDigits text with
  | none => none
  | some (negative, value, _) =>
    if value < 2 ^ 64 then
      some (if negative then -(UInt64.ofNat value) else UInt64.ofNat value)
    else none

/-! ## What was written -/

theorem isDigit_of_mem_decimal {n : ℕ} {b : UInt8} (h : b ∈ decimal n) : isDigit b = true := by
  obtain ⟨c, hc, rfl⟩ := List.mem_map.mp h
  have hdigit := Nat.isDigit_of_mem_toDigits (by decide) (by decide) hc
  obtain ⟨hlow, hhigh⟩ := Char.isDigit_iff_toNat.mp hdigit
  have hlow' : 48 ≤ c.toNat := hlow
  have hhigh' : c.toNat ≤ 57 := hhigh
  simp only [isDigit, Bool.and_eq_true, decide_eq_true_eq, UInt8.le_iff_toNat_le,
    UInt8.toNat_ofNat']
  constructor
  · change 48 ≤ _
    omega
  · change _ ≤ 57
    omega

/-- The digits of a number stand for it. -/
theorem digitsValue_decimal (n : ℕ) : digitsValue (decimal n) = n := by
  have hchars : ∀ (cs : List Char), (∀ c ∈ cs, c.isDigit = true) → ∀ k : ℕ,
      (cs.map fun c => UInt8.ofNat c.toNat).foldl (fun n b => 10 * n + (b.toNat - 48)) k =
        Nat.ofDigitChars 10 cs k := by
    intro cs hcs
    induction cs with
    | nil => exact fun _ => rfl
    | cons c cs ih =>
      intro k
      obtain ⟨hlow, hhigh⟩ := Char.isDigit_iff_toNat.mp (hcs c List.mem_cons_self)
      have hhigh' : c.toNat ≤ 57 := hhigh
      have hbyte : (UInt8.ofNat c.toNat).toNat = c.toNat := by
        rw [UInt8.toNat_ofNat']
        omega
      rw [List.map_cons, List.foldl_cons, hbyte, ih fun c hc => hcs c (List.mem_cons_of_mem _ hc)]
      rfl
  have hdigits : ∀ c ∈ Nat.toDigits 10 n, c.isDigit = true := fun c hc =>
    Nat.isDigit_of_mem_toDigits (by decide) (by decide) hc
  exact (hchars _ hdigits 0).trans Nat.ofDigitChars_ten_toDigits

theorem decimal_injective : Function.Injective decimal := by
  intro n m h
  rw [← digitsValue_decimal n, ← digitsValue_decimal m, h]

/-- A number is written without blanks. -/
theorem not_mem_decimal {n : ℕ} {b : UInt8} (h : isDigit b = false) : b ∉ decimal n := by
  intro hmem
  rw [isDigit_of_mem_decimal hmem] at h
  cases h

theorem not_mem_decimalInt {z : ℤ} {b : UInt8} (h : isDigit b = false) (hsign : b ≠ 45) :
    b ∉ decimalInt z := by
  cases z with
  | ofNat n => exact not_mem_decimal h
  | negSucc n => exact List.not_mem_cons_of_ne_of_not_mem hsign (not_mem_decimal h)

/-! ## Cutting -/

/-- The part before the first `sep`, and the part after it where there is
one: `substr(0, pos)` and `substr(pos + 1)` at `pos = find(sep)`. -/
def cut (sep : UInt8) (text : Bytes) : Bytes × Option Bytes :=
  (text.takeWhile (· ≠ sep),
    if sep ∈ text then some (text.dropWhile (· ≠ sep)).tail else none)

theorem cut_append {sep : UInt8} {before after : Bytes} (h : sep ∉ before) :
    cut sep (before ++ sep :: after) = (before, some after) := by
  have hall : ∀ b ∈ before, decide (b ≠ sep) = true := by
    intro b hb
    rw [decide_eq_true_eq]
    rintro rfl
    exact h hb
  rw [cut, if_pos (by simp), List.takeWhile_append_of_pos hall, List.dropWhile_append_of_pos hall,
    List.takeWhile_cons_of_neg (by simp), List.dropWhile_cons_of_neg (by simp), List.append_nil,
    List.tail_cons]

/-! ## Comparing -/

/-- The order of two texts by their first bytes that differ, taken as
numbers; a text comes before what it is a part of. -/
def compareBytes : Bytes → Bytes → Ordering
  | [], [] => .eq
  | [], _ :: _ => .lt
  | _ :: _, [] => .gt
  | a :: s, b :: t => if a < b then .lt else if b < a then .gt else compareBytes s t

theorem compareBytes_eq_iff {s t : Bytes} : compareBytes s t = .eq ↔ s = t := by
  fun_induction compareBytes s t with
  | case1 => simp
  | case2 => simp
  | case3 => simp
  | case4 a s b t hlt =>
    have hne : a ≠ b := UInt8.ne_of_lt hlt
    simp [hne]
  | case5 a s b t _ hlt =>
    have hne : a ≠ b := (UInt8.ne_of_lt hlt).symm
    simp [hne]
  | case6 a s b t hab hba ih =>
    have heq : a = b := UInt8.le_antisymm (UInt8.not_lt.mp hba) (UInt8.not_lt.mp hab)
    simp [heq, ih]

/-- Texts that differ in their first parts are ordered as these are. -/
theorem compareBytes_take {k : ℕ} {s t : Bytes} (h : s.take k ≠ t.take k) :
    compareBytes (s.take k) (t.take k) = compareBytes s t := by
  induction k generalizing s t with
  | zero => exact absurd rfl h
  | succ k ih =>
    cases s with
    | nil => cases t <;> simp [compareBytes]
    | cons a s =>
      cases t with
      | nil => simp [compareBytes]
      | cons b t =>
        simp only [List.take_succ_cons, compareBytes]
        by_cases hlt : a < b
        · rw [if_pos hlt, if_pos hlt]
        · by_cases hgt : b < a
          · rw [if_neg hlt, if_neg hlt, if_pos hgt, if_pos hgt]
          · have heq : a = b := UInt8.le_antisymm (UInt8.not_lt.mp hgt) (UInt8.not_lt.mp hlt)
            rw [if_neg hlt, if_neg hlt, if_neg hgt, if_neg hgt]
            refine ih fun htake => h ?_
            rw [List.take_succ_cons, List.take_succ_cons, heq, htake]

end Muplar
