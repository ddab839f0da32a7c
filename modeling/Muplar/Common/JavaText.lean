import Mathlib.Data.Int.Notation
import Muplar.Common.Text
/-!
# Java strings

A Java `String` is a sequence of UTF-16 units and need not be text: a
surrogate may stand alone. On its way to a file or a socket it becomes
UTF-8, where a lone surrogate turns into a question mark; bytes that are
read back become units again, where bytes that are no character turn into
the replacement character. Only for text is either way the inverse of the
other (`chars_utf16`, `decodeUtf8_utf8`).
-/

namespace Muplar

/-- A `String`: its units. -/
abbrev JavaString := List UInt16

/-- What the Java library leaves open, or takes from Unicode's tables: how
many bytes, after the first, one replacement character stands for, and
`Character.digit` in base ten beyond ASCII. -/
structure JavaLibrary where
  malformed : Bytes → ℕ
  digit : UInt16 → Option ℕ
  digit_ascii : ∀ u : UInt16, u < 128 →
    digit u = if 48 ≤ u ∧ u ≤ 57 then some (u.toNat - 48) else none

/-! ## Characters and units -/

/-- The units of a character. -/
def utf16Char (c : Char) : JavaString :=
  if c.toNat < 0x10000 then [UInt16.ofNat c.toNat]
  else
    [UInt16.ofNat (0xD800 + (c.toNat - 0x10000) / 0x400),
      UInt16.ofNat (0xDC00 + (c.toNat - 0x10000) % 0x400)]

/-- The units of a text. -/
def utf16 (text : List Char) : JavaString :=
  text.flatMap utf16Char

/-- The bytes of a text. -/
def utf8 (text : List Char) : Bytes :=
  text.flatMap String.utf8EncodeChar

/-- A literal of the source. -/
def java (s : String) : JavaString :=
  utf16 s.toList

/-- `Character.isHighSurrogate`. -/
def isHighSurrogate (u : UInt16) : Bool :=
  0xD800 ≤ u && u < 0xDC00

/-- `Character.isLowSurrogate`. -/
def isLowSurrogate (u : UInt16) : Bool :=
  0xDC00 ≤ u && u < 0xE000

/-- A unit on its own: a surrogate has no character and is replaced. -/
def loneUnit (u : UInt16) : Char :=
  if isHighSurrogate u || isLowSurrogate u then '?' else Char.ofNat u.toNat

/-- `Character.toCodePoint`. -/
def surrogatePair (high low : UInt16) : Char :=
  Char.ofNat (0x10000 + (high.toNat - 0xD800) * 0x400 + (low.toNat - 0xDC00))

/-- The text `getBytes` writes. -/
def JavaString.chars : JavaString → List Char
  | [] => []
  | [u] => [loneUnit u]
  | u :: v :: rest =>
    if isHighSurrogate u && isLowSurrogate v then surrogatePair u v :: chars rest
    else loneUnit u :: chars (v :: rest)

/-- `getBytes(StandardCharsets.UTF_8)`. -/
def JavaString.getBytes (s : JavaString) : Bytes :=
  utf8 s.chars

@[simp] theorem utf16_nil : utf16 [] = [] := rfl

@[simp] theorem utf16_cons (c : Char) (text : List Char) :
    utf16 (c :: text) = utf16Char c ++ utf16 text := rfl

@[simp] theorem utf16_append (text more : List Char) :
    utf16 (text ++ more) = utf16 text ++ utf16 more :=
  List.flatMap_append

@[simp] theorem utf8_append (text more : List Char) :
    utf8 (text ++ more) = utf8 text ++ utf8 more :=
  List.flatMap_append

theorem decimal_eq_utf8 (n : ℕ) : decimal n = utf8 (Nat.toDigits 10 n) := by
  have hdigits : ∀ c ∈ Nat.toDigits 10 n, c.isDigit = true := fun c hc =>
    Nat.isDigit_of_mem_toDigits (by decide) (by decide) hc
  rw [decimal, utf8]
  generalize Nat.toDigits 10 n = cs at hdigits
  induction cs with
  | nil => rfl
  | cons c cs ih =>
    obtain ⟨-, hhigh⟩ := Char.isDigit_iff_toNat.mp (hdigits c List.mem_cons_self)
    have hle : c.val ≤ 127 := UInt32.le_iff_toNat_le.mpr (Nat.le_trans hhigh (by decide))
    have hbyte : String.utf8EncodeChar c = [UInt8.ofNat c.toNat] :=
      String.utf8EncodeChar_eq_singleton (Char.utf8Size_eq_one_iff.mpr hle)
    rw [List.map_cons, List.flatMap_cons, hbyte, List.singleton_append,
      ih fun c hc => hdigits c (List.mem_cons_of_mem _ hc)]

theorem ascii_eq_utf8 (s : String) : ascii s = utf8 s.toList := by
  rw [ascii, utf8, ← String.utf8Encode_toList, List.utf8Encode]
  simp

theorem not_lt_of_or {x mark : UInt8} (h : mark.toBitVec.getLsbD 7 = true) :
    ¬(x ||| mark) < 128 := by
  have hbit : (x ||| mark).toNat.testBit 7 = true := by
    rw [UInt8.toNat_or, Nat.testBit_or, show mark.toNat.testBit 7 = true from h, Bool.or_true]
  have hle : 128 ≤ (x ||| mark).toNat := Nat.ge_two_pow_of_testBit hbit
  rw [UInt8.lt_iff_toNat_lt]
  exact Nat.not_lt.mpr hle

/-- A byte below 128 is a character of its own. -/
theorem utf8EncodeChar_of_ascii {c : Char} (h : ∀ b ∈ String.utf8EncodeChar c, b < 128) :
    c.toNat < 128 ∧ String.utf8EncodeChar c = [UInt8.ofNat c.toNat] := by
  have hone : c.utf8Size = 1 := by
    rcases c.utf8Size_eq with hsize | hsize | hsize | hsize
    · exact hsize
    · rw [String.utf8EncodeChar_eq_cons_cons hsize] at h
      exact absurd (h _ List.mem_cons_self) (not_lt_of_or rfl)
    · rw [String.utf8EncodeChar_eq_cons_cons_cons hsize] at h
      exact absurd (h _ List.mem_cons_self) (not_lt_of_or rfl)
    · rw [String.utf8EncodeChar_eq_cons_cons_cons_cons hsize] at h
      exact absurd (h _ List.mem_cons_self) (not_lt_of_or rfl)
  have hle : c.toNat ≤ 127 := UInt32.le_iff_toNat_le.mp (Char.utf8Size_eq_one_iff.mp hone)
  exact ⟨by omega, String.utf8EncodeChar_eq_singleton hone⟩

/-- A literal in ASCII. -/
def IsAscii (s : String) : Prop :=
  (ascii s).all (· < 128) = true

instance decidableIsAscii (s : String) : Decidable (IsAscii s) :=
  inferInstanceAs (Decidable (_ = true))

/-- It has the same units as bytes, which are quicker to evaluate. -/
theorem java_of_ascii {s : String} (h : IsAscii s) : java s = (ascii s).map UInt8.toUInt16 := by
  rw [IsAscii, List.all_eq_true] at h
  simp only [decide_eq_true_eq] at h
  rw [ascii_eq_utf8] at h ⊢
  rw [java]
  generalize s.toList = cs at h
  induction cs with
  | nil => rfl
  | cons c cs ih =>
    rw [utf8, List.flatMap_cons, List.forall_mem_append] at h
    obtain ⟨hlt, hbyte⟩ := utf8EncodeChar_of_ascii h.1
    have hunit : UInt16.ofNat c.toNat = (UInt8.ofNat c.toNat).toUInt16 := by
      rw [← UInt16.toNat_inj, UInt8.toNat_toUInt16, UInt16.toNat_ofNat', UInt8.toNat_ofNat']
      omega
    have hbmp : utf16Char c = [UInt16.ofNat c.toNat] := if_pos (by omega)
    rw [utf16, utf8, List.flatMap_cons, List.flatMap_cons, hbyte, hbmp, hunit, List.map_append,
      ← utf16, ← utf8, ih h.2]
    rfl

/-! ## From units to characters -/

theorem charNat_cases (c : Char) : c.toNat < 0xD800 ∨ (0xDFFF < c.toNat ∧ c.toNat < 0x110000) :=
  c.valid

theorem not_surrogate {n : ℕ} (h : n < 0xD800 ∨ (0xDFFF < n ∧ n < 0x10000)) :
    isHighSurrogate (UInt16.ofNat n) = false ∧ isLowSurrogate (UInt16.ofNat n) = false := by
  have hn : (UInt16.ofNat n).toNat = n := by
    rw [UInt16.toNat_ofNat']
    omega
  simp only [isHighSurrogate, isLowSurrogate, Bool.and_eq_false_iff, decide_eq_false_iff_not,
    UInt16.le_iff_toNat_le, UInt16.lt_iff_toNat_lt, hn]
  simp only [UInt16.reduceToNat]
  omega

theorem loneUnit_ofNat {c : Char} (h : c.toNat < 0x10000) :
    loneUnit (UInt16.ofNat c.toNat) = c := by
  have hcases := charNat_cases c
  obtain ⟨hhigh, hlow⟩ := not_surrogate (n := c.toNat) (by omega)
  have hn : (UInt16.ofNat c.toNat).toNat = c.toNat := by
    rw [UInt16.toNat_ofNat']
    omega
  rw [loneUnit, hhigh, hlow, hn, Char.ofNat_toNat]
  rfl

/-- The two units of a character that does not fit into one. -/
theorem exists_pair {c : Char} (h : ¬c.toNat < 0x10000) : ∃ high low, utf16Char c = [high, low] ∧
    isHighSurrogate high = true ∧ isLowSurrogate low = true ∧ isLowSurrogate high = false ∧
      isHighSurrogate low = false ∧ surrogatePair high low = c := by
  have hcases := charNat_cases c
  have hhigh : (UInt16.ofNat (0xD800 + (c.toNat - 0x10000) / 0x400)).toNat =
      0xD800 + (c.toNat - 0x10000) / 0x400 := by
    rw [UInt16.toNat_ofNat']
    omega
  have hlow : (UInt16.ofNat (0xDC00 + (c.toNat - 0x10000) % 0x400)).toNat =
      0xDC00 + (c.toNat - 0x10000) % 0x400 := by
    rw [UInt16.toNat_ofNat']
    omega
  have hcode : 0x10000 + (0xD800 + (c.toNat - 0x10000) / 0x400 - 0xD800) * 0x400 +
      (0xDC00 + (c.toNat - 0x10000) % 0x400 - 0xDC00) = c.toNat := by omega
  refine ⟨_, _, if_neg h, ?_, ?_, ?_, ?_, by rw [surrogatePair, hhigh, hlow, hcode,
    Char.ofNat_toNat]⟩ <;>
    simp only [isHighSurrogate, isLowSurrogate, Bool.and_eq_true, Bool.and_eq_false_iff,
      decide_eq_true_eq, decide_eq_false_iff_not, UInt16.le_iff_toNat_le, UInt16.lt_iff_toNat_lt,
      hhigh, hlow, UInt16.reduceToNat] <;>
    omega

/-- The units of a character are read as that character. -/
theorem chars_utf16Char_append (c : Char) (rest : JavaString) :
    JavaString.chars (utf16Char c ++ rest) = c :: JavaString.chars rest := by
  by_cases hbmp : c.toNat < 0x10000
  · have hcases := charNat_cases c
    obtain ⟨hhigh, -⟩ := not_surrogate (n := c.toNat) (by omega)
    rw [utf16Char, if_pos hbmp, List.singleton_append]
    cases rest with
    | nil =>
      change [loneUnit (UInt16.ofNat c.toNat)] = [c]
      rw [loneUnit_ofNat hbmp]
    | cons v rest =>
      rw [JavaString.chars, hhigh, Bool.false_and, if_neg Bool.false_ne_true, loneUnit_ofNat hbmp]
  · obtain ⟨high, low, hunits, hhigh, hlow, -, -, hpair⟩ := exists_pair hbmp
    rw [hunits, List.cons_append, List.singleton_append, JavaString.chars, hhigh, hlow,
      Bool.and_self, if_pos rfl, hpair]

/-- **Text is read back from its units.** -/
theorem chars_utf16 (text : List Char) : (utf16 text : JavaString).chars = text := by
  induction text with
  | nil => rfl
  | cons c text ih => rw [utf16_cons, chars_utf16Char_append, ih]

/-! ## From bytes to units -/

/-- The text `new String(bytes, UTF_8)` holds; `fuel` is the number of bytes left. -/
def JavaLibrary.decodeFrom (J : JavaLibrary) : (fuel : ℕ) → Bytes → List Char
  | 0, _ => []
  | _, [] => []
  | fuel + 1, b :: rest =>
    match (b :: rest).toByteArray.utf8DecodeChar? 0 with
    | some c => c :: J.decodeFrom fuel ((b :: rest).drop c.utf8Size)
    | none => '\uFFFD' :: J.decodeFrom fuel (rest.drop (J.malformed (b :: rest)))

/-- `new String(bytes, UTF_8)`. -/
def JavaLibrary.decodeUtf8 (J : JavaLibrary) (bytes : Bytes) : JavaString :=
  utf16 (J.decodeFrom bytes.length bytes)

variable (J : JavaLibrary)

theorem decodeFrom_utf8 (text : List Char) {fuel : ℕ} (h : (utf8 text).length ≤ fuel) :
    J.decodeFrom fuel (utf8 text) = text := by
  induction text generalizing fuel with
  | nil => cases fuel <;> rfl
  | cons c text ih =>
    have hsize := c.utf8Size_pos
    have hlen : (String.utf8EncodeChar c).length = c.utf8Size := String.length_utf8EncodeChar c
    have htext : utf8 (c :: text) = String.utf8EncodeChar c ++ utf8 text := rfl
    have hchar : (utf8 (c :: text)).toByteArray.utf8DecodeChar? 0 = some c := by
      rw [htext, List.toByteArray_append, ByteArray.utf8DecodeChar?_utf8EncodeChar_append]
    have hdrop : (utf8 (c :: text)).drop c.utf8Size = utf8 text := by
      rw [htext, ← hlen, List.drop_left]
    have hall : (utf8 (c :: text)).length = c.utf8Size + (utf8 text).length := by
      rw [htext, List.length_append, hlen]
    cases fuel with
    | zero => omega
    | succ fuel =>
      cases hbytes : utf8 (c :: text) with
      | nil =>
        rw [hbytes, List.length_nil] at hall
        omega
      | cons b rest =>
        rw [hbytes] at hchar hdrop
        rw [JavaLibrary.decodeFrom, hchar]
        dsimp only
        rw [hdrop, ih (by omega)]

/-- **Text is read back from its bytes.** -/
theorem decodeUtf8_utf8 (text : List Char) : J.decodeUtf8 (utf8 text) = utf16 text := by
  rw [JavaLibrary.decodeUtf8, decodeFrom_utf8 J text (Nat.le_refl _)]

/-! ## Newlines -/

theorem flatMap_intercalate {α β : Type*} (g : α → List β) (sep : α) (parts : List (List α)) :
    ([sep].intercalate parts).flatMap g = (g sep).intercalate (parts.map (·.flatMap g)) := by
  induction parts with
  | nil => rfl
  | cons part parts ih =>
    cases parts with
    | nil => simp
    | cons part' parts =>
      rw [List.intercalate_cons_of_ne_nil (List.cons_ne_nil _ _), List.flatMap_append,
        List.flatMap_append, ih, List.map_cons (l := part' :: parts),
        List.intercalate_cons_of_ne_nil (by simp), List.flatMap_singleton]

/-- A newline is the unit of no other character. -/
theorem newline_mem_utf16 {text : List Char} : (10 : UInt16) ∈ utf16 text ↔ '\n' ∈ text := by
  have hchar : ∀ c : Char, (10 : UInt16) ∈ utf16Char c ↔ '\n' = c := by
    intro c
    have hcases := charNat_cases c
    rw [utf16Char]
    split
    · next hbmp =>
      rw [List.mem_singleton, ← UInt16.toNat_inj, UInt16.toNat_ofNat', Nat.mod_eq_of_lt hbmp]
      constructor
      · intro h
        exact Char.toNat_inj.mp h
      · rintro rfl
        rfl
    · next hbmp =>
      simp only [List.mem_cons, List.not_mem_nil, or_false, ← UInt16.toNat_inj,
        UInt16.toNat_ofNat', UInt16.reduceToNat]
      refine ⟨by omega, ?_⟩
      rintro rfl
      exact absurd (by decide) hbmp
  simp only [utf16, List.mem_flatMap, hchar]
  constructor
  · rintro ⟨c, hc, rfl⟩
    exact hc
  · exact fun h => ⟨_, h, rfl⟩

theorem newline_ne_of_or {x mark : UInt8} (h : mark.toBitVec.getLsbD 7 = true) :
    newline ≠ x ||| mark :=
  fun heq => not_lt_of_or h (heq ▸ show newline < 128 by decide)

/-- And its byte is a part of no other: only they have a byte below 128. -/
theorem newline_mem_utf8 {text : List Char} : newline ∈ utf8 text ↔ '\n' ∈ text := by
  have hchar : ∀ c : Char, newline ∈ String.utf8EncodeChar c ↔ '\n' = c := by
    intro c
    by_cases hone : c.utf8Size = 1
    · rw [String.utf8EncodeChar_eq_singleton hone, List.mem_singleton]
      have hle : c.toNat ≤ 127 := UInt32.le_iff_toNat_le.mp (Char.utf8Size_eq_one_iff.mp hone)
      constructor
      · intro h
        have hval := congrArg UInt8.toNat h
        rw [UInt32.toNat_toUInt8] at hval
        have hnat : c.toNat = 10 := by
          change 10 = c.toNat % 256 at hval
          omega
        exact Char.toNat_inj.mp hnat.symm
      · rintro rfl
        rfl
    · refine iff_of_false ?_ ?_
      · rcases c.utf8Size_eq with h | h | h | h
        · exact absurd h hone
        · simp [String.utf8EncodeChar_eq_cons_cons h, newline_ne_of_or]
        · simp [String.utf8EncodeChar_eq_cons_cons_cons h, newline_ne_of_or]
        · simp [String.utf8EncodeChar_eq_cons_cons_cons_cons h, newline_ne_of_or]
      · rintro rfl
        exact hone (by decide)
  simp only [utf8, List.mem_flatMap, hchar]
  exact ⟨fun ⟨c, hc, heq⟩ => heq ▸ hc, fun h => ⟨_, h, rfl⟩⟩

/-- A literal has no newline if its bytes have none. -/
theorem newline_not_mem_literal {s : String} (h : newline ∉ ascii s) : '\n' ∉ s.toList := by
  rwa [ascii_eq_utf8, newline_mem_utf8] at h

theorem utf8_lines (lines : List (List Char)) :
    utf8 (['\n'].intercalate lines) = [newline].intercalate (lines.map utf8) :=
  flatMap_intercalate _ _ _

theorem utf16_lines (lines : List (List Char)) :
    utf16 (['\n'].intercalate lines) = [10].intercalate (lines.map utf16) :=
  flatMap_intercalate _ _ _

/-- **Lines of text are read back as lines.** -/
theorem splitOn_decodeUtf8 {lines : List (List Char)} (hne : lines ≠ [])
    (h : ∀ line ∈ lines, '\n' ∉ line) :
    (J.decodeUtf8 ([newline].intercalate (lines.map utf8))).splitOn 10 = lines.map utf16 := by
  rw [← utf8_lines, decodeUtf8_utf8, utf16_lines, List.splitOn_intercalate]
  · simp only [List.forall_mem_map, newline_mem_utf16]
    exact h
  · exact fun hmap => hne (List.map_eq_nil_iff.mp hmap)

/-! ## Numbers -/

/-- `Long.parseLong`: a sign, digits, and no more than fits. -/
def JavaLibrary.parseLong (J : JavaLibrary) (s : JavaString) : Option Int64 :=
  let digits := if s.take 1 = [43] ∨ s.take 1 = [45] then s.tail else s
  match digits.mapM J.digit with
  | none | some [] => none
  | some (d :: ds) =>
    let value : ℕ := (d :: ds).foldl (fun n d => 10 * n + d) 0
    let number : ℤ := if s.take 1 = [45] then -value else value
    if -(2 ^ 63) ≤ number ∧ number < 2 ^ 63 then some (Int64.ofInt number) else none

theorem digit_ofNat {n : ℕ} (hlow : 48 ≤ n) (hhigh : n ≤ 57) :
    J.digit (UInt16.ofNat n) = some (n - 48) := by
  have hn : (UInt16.ofNat n).toNat = n := by
    rw [UInt16.toNat_ofNat']
    omega
  have hascii : UInt16.ofNat n < 128 := by
    rw [UInt16.lt_iff_toNat_lt, hn]
    exact Nat.lt_of_le_of_lt hhigh (by decide)
  have hdigit : 48 ≤ UInt16.ofNat n ∧ UInt16.ofNat n ≤ 57 := by
    rw [UInt16.le_iff_toNat_le, UInt16.le_iff_toNat_le, hn]
    exact ⟨hlow, hhigh⟩
  rw [J.digit_ascii _ hascii, if_pos hdigit, hn]

theorem mapM_digit {cs : List Char} (h : ∀ c ∈ cs, c.isDigit = true) :
    (utf16 cs).mapM J.digit = some (cs.map fun c => c.toNat - 48) := by
  induction cs with
  | nil => rfl
  | cons c cs ih =>
    obtain ⟨hlow, hhigh⟩ := Char.isDigit_iff_toNat.mp (h c List.mem_cons_self)
    have hlow' : 48 ≤ c.toNat := hlow
    have hhigh' : c.toNat ≤ 57 := hhigh
    have hunit : utf16Char c = [UInt16.ofNat c.toNat] := if_pos (by omega)
    rw [utf16_cons, hunit, List.singleton_append, List.mapM_cons, digit_ofNat J hlow' hhigh',
      ih fun c hc => h c (List.mem_cons_of_mem _ hc)]
    rfl

/-- **A number is read back**, where it is a `long`. -/
theorem parseLong_decimal (n : ℕ) :
    J.parseLong (utf16 (Nat.toDigits 10 n)) =
      if n < 2 ^ 63 then some (Int64.ofInt n) else none := by
  have hdigits : ∀ c ∈ Nat.toDigits 10 n, c.isDigit = true := fun c hc =>
    Nat.isDigit_of_mem_toDigits (by decide) (by decide) hc
  have hvalue : ((Nat.toDigits 10 n).map fun c => c.toNat - 48).foldl
      (fun n d => 10 * n + d) 0 = n := by
    rw [List.foldl_map]
    exact Nat.ofDigitChars_ten_toDigits
  have hmap := mapM_digit J hdigits
  cases hcs : Nat.toDigits 10 n with
  | nil => exact absurd hcs Nat.toDigits_ne_nil
  | cons c cs =>
    rw [hcs] at hdigits hvalue hmap
    obtain ⟨hlow, hhigh⟩ := Char.isDigit_iff_toNat.mp (hdigits c List.mem_cons_self)
    have hlow' : 48 ≤ c.toNat := hlow
    have hhigh' : c.toNat ≤ 57 := hhigh
    have hunit : utf16Char c = [UInt16.ofNat c.toNat] := if_pos (by omega)
    have hne : ∀ u : UInt16, u.toNat < 48 → (utf16 (c :: cs)).take 1 ≠ [u] := by
      intro u hu heq
      rw [utf16_cons, hunit, List.singleton_append, List.take_succ_cons, List.take_zero] at heq
      have hnat := congrArg UInt16.toNat (List.singleton_inj.mp heq)
      rw [UInt16.toNat_ofNat'] at hnat
      omega
    have hplus := hne 43 (by decide)
    have hminus := hne 45 (by decide)
    rw [List.map_cons] at hmap hvalue
    simp only [JavaLibrary.parseLong, if_neg (not_or.mpr ⟨hplus, hminus⟩), hmap, hvalue,
      if_neg hminus]
    by_cases hn : n < 2 ^ 63
    · rw [if_pos hn, if_pos (by omega)]
    · rw [if_neg hn, if_neg (by omega)]

end Muplar
