import Muplar.Common.JavaText
/-!
# Modified UTF-8

Java and Dalvik write a string unit by unit, each as UTF-8 would write the
character of its number, and zero in two bytes, so that a zero byte ends
the string. A decoder of UTF-8 reads such a string as it was meant up to
the first unit that is zero or a surrogate: these are no UTF-8, and a
decoder that does not stop puts U+FFFD in their place.
-/

namespace Muplar

namespace ModifiedUtf8

/-! ## Writing -/

/-- The bytes of a unit. -/
def encodeUnit (u : UInt16) : Bytes :=
  let n := u.toNat
  if 0 < n ∧ n < 0x80 then [UInt8.ofNat n]
  else if n < 0x800 then [UInt8.ofNat (0xC0 + n / 64), UInt8.ofNat (0x80 + n % 64)]
  else
    [UInt8.ofNat (0xE0 + n / 4096), UInt8.ofNat (0x80 + n / 64 % 64), UInt8.ofNat (0x80 + n % 64)]

/-- The bytes of a string. -/
def encode (s : JavaString) : Bytes :=
  s.flatMap encodeUnit

theorem zero_notMem_encodeUnit (u : UInt16) : (0 : UInt8) ∉ encodeUnit u := by
  have hlt := u.toNat_lt
  have hne : ∀ n, 0 < n → n < 256 → (0 : UInt8) ≠ UInt8.ofNat n := fun n hpos hn heq => by
    have := congrArg UInt8.toNat heq
    rw [UInt8.toNat_ofNat', Nat.mod_eq_of_lt hn] at this
    exact absurd this hpos.ne
  rw [encodeUnit]
  split_ifs with hone htwo <;> simp only [List.mem_cons, List.not_mem_nil, or_false, not_or]
  · exact hne _ hone.1 (by omega)
  · exact ⟨hne _ (by omega) (by omega), hne _ (by omega) (by omega)⟩
  · exact ⟨hne _ (by omega) (by omega), hne _ (by omega) (by omega), hne _ (by omega) (by omega)⟩

theorem zero_notMem_encode (s : JavaString) : (0 : UInt8) ∉ encode s := by
  rw [encode, List.mem_flatMap]
  exact fun ⟨u, _, hu⟩ => zero_notMem_encodeUnit u hu

/-- The code points of a string: a pair of surrogates is one, and a
surrogate on its own is one too. -/
def codePoints : JavaString → List ℕ
  | [] => []
  | [u] => [u.toNat]
  | high :: low :: rest =>
    if isHighSurrogate high && isLowSurrogate low then
      (0x10000 + (high.toNat - 0xD800) * 0x400 + (low.toNat - 0xDC00)) :: codePoints rest
    else high.toNat :: codePoints (low :: rest)

/-! ## Reading -/

/-- A continuation byte. -/
def isContinuation (b : UInt8) : Bool :=
  0x80 ≤ b && b < 0xC0

/-- A second byte that can follow a first one. -/
def isSecond (first second : UInt8) : Bool :=
  isContinuation second && !(first = 0xE0 && second < 0xA0) && !(first = 0xED && 0xA0 ≤ second) &&
    !(first = 0xF0 && second < 0x90) && !(first = 0xF4 && 0x90 ≤ second)

/-- U+FFFD. -/
def replacement : ℕ := 0xFFFD

/-- The low bits of a continuation byte. -/
def low6 (b : UInt8) : ℕ :=
  b.toNat % 64

/-- `bytes.decode("utf-8", "replace")`: the longest start of a sequence that
does not become a character is replaced as one. -/
def decode : Bytes → List ℕ
  | [] => []
  | a :: rest =>
    if a < 0x80 then a.toNat :: decode rest
    else if a < 0xC2 then replacement :: decode rest
    else if a < 0xE0 then
      match rest with
      | [] => [replacement]
      | b :: rest' =>
        if isContinuation b then (a.toNat % 32 * 64 + low6 b) :: decode rest'
        else replacement :: decode (b :: rest')
    else if a < 0xF0 then
      match rest with
      | [] => [replacement]
      | b :: rest' =>
        if isSecond a b then
          match rest' with
          | [] => [replacement]
          | c :: rest'' =>
            if isContinuation c then
              (a.toNat % 16 * 4096 + low6 b * 64 + low6 c) :: decode rest''
            else replacement :: decode (c :: rest'')
        else replacement :: decode (b :: rest')
    else if a < 0xF5 then
      match rest with
      | [] => [replacement]
      | b :: rest' =>
        if isSecond a b then
          match rest' with
          | [] => [replacement]
          | c :: rest'' =>
            if isContinuation c then
              match rest'' with
              | [] => [replacement]
              | d :: rest''' =>
                if isContinuation d then
                  (a.toNat % 8 * 262144 + low6 b * 4096 + low6 c * 64 + low6 d) ::
                    decode rest'''
                else replacement :: decode (d :: rest''')
            else replacement :: decode (c :: rest'')
        else replacement :: decode (b :: rest')
    else replacement :: decode rest
termination_by bytes => bytes.length

/-! ## What is read as it was meant -/

/-- A unit that is a character other than zero. -/
structure Ordinary (u : UInt16) : Prop where
  pos : 0 < u.toNat
  plain : u.toNat < 0xD800 ∨ 0xDFFF < u.toNat

instance decidableOrdinary (u : UInt16) : Decidable (Ordinary u) :=
  decidable_of_iff (0 < u.toNat ∧ (u.toNat < 0xD800 ∨ 0xDFFF < u.toNat))
    ⟨fun h => ⟨h.1, h.2⟩, fun h => ⟨h.pos, h.plain⟩⟩

section

variable {u : UInt16} {s : JavaString} {rest : Bytes}

theorem isHighSurrogate_iff : isHighSurrogate u = true ↔ 0xD800 ≤ u.toNat ∧ u.toNat < 0xDC00 := by
  rw [isHighSurrogate, Bool.and_eq_true, decide_eq_true_eq, decide_eq_true_eq,
    UInt16.le_iff_toNat_le, UInt16.lt_iff_toNat_lt]
  rfl

theorem toNat_byte {n : ℕ} (h : n < 256) : (UInt8.ofNat n).toNat = n := by
  rw [UInt8.toNat_ofNat', Nat.mod_eq_of_lt h]

theorem byte_lt {n : ℕ} (h : n < 256) (m : UInt8) : UInt8.ofNat n < m ↔ n < m.toNat := by
  rw [UInt8.lt_iff_toNat_lt, toNat_byte h]

theorem byte_le {n : ℕ} (h : n < 256) (m : UInt8) : m ≤ UInt8.ofNat n ↔ m.toNat ≤ n := by
  rw [UInt8.le_iff_toNat_le, toNat_byte h]

theorem byte_eq {n : ℕ} (h : n < 256) (m : UInt8) : UInt8.ofNat n = m ↔ n = m.toNat := by
  rw [← UInt8.toNat_inj, toNat_byte h]

theorem isContinuation_byte {n : ℕ} (h : n < 64) :
    isContinuation (UInt8.ofNat (0x80 + n)) = true := by
  rw [isContinuation, Bool.and_eq_true, decide_eq_true_eq, decide_eq_true_eq,
    byte_le (by omega), byte_lt (by omega)]
  exact ⟨Nat.le_add_right _ _, by change _ < 192; omega⟩

theorem low6_byte {n : ℕ} (h : n < 64) : low6 (UInt8.ofNat (0x80 + n)) = n := by
  rw [low6, toNat_byte (by omega)]
  omega

/-- A first byte of three. -/
theorem first_of_three {a : ℕ} (ha : a < 16) :
    ¬UInt8.ofNat (0xE0 + a) < 0xE0 ∧ UInt8.ofNat (0xE0 + a) < 0xF0 := by
  rw [byte_lt (by omega), byte_lt (by omega)]
  change ¬0xE0 + a < 224 ∧ 0xE0 + a < 240
  omega

/-- A second byte behind a first byte of three. -/
theorem isSecond_byte {a n : ℕ} (ha : a < 16) (hn : n < 64) :
    isSecond (UInt8.ofNat (0xE0 + a)) (UInt8.ofNat (0x80 + n)) = true ↔
      (a = 0 → 32 ≤ n) ∧ (a = 13 → n < 32) := by
  have hfirst : ∀ m : UInt8, UInt8.ofNat (0xE0 + a) = m ↔ 0xE0 + a = m.toNat := fun m =>
    byte_eq (by omega) m
  rw [isSecond, isContinuation_byte hn]
  simp only [Bool.true_and, Bool.and_eq_true, Bool.not_eq_true', Bool.and_eq_false_iff,
    decide_eq_false_iff_not, hfirst, byte_lt (n := 0x80 + n) (by omega),
    byte_le (n := 0x80 + n) (by omega), UInt8.reduceToNat]
  omega

theorem decode_one {a : UInt8} (ha : a < 0x80) : decode (a :: rest) = a.toNat :: decode rest := by
  rw [decode.eq_def]
  exact if_pos ha

theorem decode_stray {a : UInt8} (ha : ¬a < 0x80) (ha' : a < 0xC2) :
    decode (a :: rest) = replacement :: decode rest := by
  rw [decode.eq_def]
  dsimp only
  rw [if_neg ha, if_pos ha']

theorem decode_two {a b : UInt8} (ha : ¬a < 0xC2) (ha' : a < 0xE0) (hb : isContinuation b = true) :
    decode (a :: b :: rest) = (a.toNat % 32 * 64 + low6 b) :: decode rest := by
  have h80 : ¬a < 0x80 := fun h => ha (UInt8.lt_trans h (by decide))
  rw [decode.eq_def]
  dsimp only
  rw [if_neg h80, if_neg ha, if_pos ha', if_pos hb]

theorem decode_three {a b c : UInt8} (ha : ¬a < 0xE0) (ha' : a < 0xF0)
    (hc : isContinuation c = true) : decode (a :: b :: c :: rest) =
      if isSecond a b then (a.toNat % 16 * 4096 + low6 b * 64 + low6 c) :: decode rest
      else replacement :: decode (b :: c :: rest) := by
  have h80 : ¬a < 0x80 := fun h => ha (UInt8.lt_trans h (by decide))
  have hC2 : ¬a < 0xC2 := fun h => ha (UInt8.lt_trans h (by decide))
  conv_lhs => rw [decode.eq_def]
  dsimp only
  rw [if_neg h80, if_neg hC2, if_neg ha, if_pos ha', if_pos hc]

/-- **An ordinary unit is read back.** -/
theorem decode_ordinary (h : Ordinary u) :
    decode (encodeUnit u ++ rest) = u.toNat :: decode rest := by
  have hlt := u.toNat_lt
  obtain ⟨hpos, hplain⟩ := h
  rw [encodeUnit]
  split_ifs with hone htwo
  · have hbyte : UInt8.ofNat u.toNat < 0x80 := (byte_lt (by omega) _).mpr hone.2
    rw [List.singleton_append, decode_one hbyte, toNat_byte (by omega)]
  · have hfirst : ¬UInt8.ofNat (0xC0 + u.toNat / 64) < 0xC2 := fun h => by
      have h194 : 0xC0 + u.toNat / 64 < 194 := (byte_lt (by omega) _).mp h
      omega
    have hfirst' : UInt8.ofNat (0xC0 + u.toNat / 64) < 0xE0 :=
      (byte_lt (by omega) _).mpr (show _ < 224 by omega)
    rw [List.cons_append, List.singleton_append,
      decode_two hfirst hfirst' (isContinuation_byte (by omega)), low6_byte (by omega),
      toNat_byte (by omega)]
    congr 1
    omega
  · obtain ⟨hfirst, hfirst'⟩ := first_of_three (a := u.toNat / 4096) (by omega)
    have hsecond : isSecond (UInt8.ofNat (0xE0 + u.toNat / 4096))
        (UInt8.ofNat (0x80 + u.toNat / 64 % 64)) = true :=
      (isSecond_byte (by omega) (by omega)).mpr (by omega)
    rw [List.cons_append, List.cons_append, List.singleton_append,
      decode_three hfirst hfirst' (isContinuation_byte (by omega)), if_pos hsecond,
      low6_byte (by omega), low6_byte (by omega), toNat_byte (by omega)]
    congr 1
    omega

/-- Any other unit is not. -/
theorem decode_other (rest : Bytes) (h : ¬Ordinary u) :
    ∃ more, decode (encodeUnit u ++ rest) = replacement :: more := by
  have hlt := u.toNat_lt
  have hother : u.toNat = 0 ∨ 0xD800 ≤ u.toNat ∧ u.toNat ≤ 0xDFFF := by
    by_contra hno
    exact h ⟨by omega, by omega⟩
  rw [encodeUnit]
  rcases hother with hzero | ⟨hlow, hhigh⟩
  · rw [hzero, if_neg (by omega), if_pos (by omega), List.cons_append,
      decode_stray (by decide) (by decide)]
    exact ⟨_, rfl⟩
  · obtain ⟨hfirst, hfirst'⟩ := first_of_three (a := u.toNat / 4096) (by omega)
    have hsecond : ¬isSecond (UInt8.ofNat (0xE0 + u.toNat / 4096))
        (UInt8.ofNat (0x80 + u.toNat / 64 % 64)) = true := fun h => by
      have := (isSecond_byte (by omega) (by omega)).mp h
      omega
    rw [if_neg (by omega), if_neg (by omega), List.cons_append, List.cons_append,
      List.singleton_append, decode_three hfirst hfirst' (isContinuation_byte (by omega)),
      if_neg hsecond]
    exact ⟨_, rfl⟩

theorem codePoints_ordinary (h : Ordinary u) : codePoints (u :: s) = u.toNat :: codePoints s := by
  have hhigh : isHighSurrogate u = false := by
    rw [Bool.eq_false_iff, ne_eq, isHighSurrogate_iff]
    have := h.plain
    omega
  cases s with
  | nil => rfl
  | cons v s => rw [codePoints, hhigh, Bool.false_and, if_neg Bool.false_ne_true]

theorem codePoints_other (h : ¬Ordinary u) :
    ∃ x more, codePoints (u :: s) = x :: more ∧ x ≠ replacement := by
  have hother : u.toNat ≠ replacement := by
    rintro heq
    exact h ⟨by rw [heq]; decide, by rw [heq]; decide⟩
  cases s with
  | nil => exact ⟨_, _, rfl, hother⟩
  | cons v s =>
    rw [codePoints]
    split_ifs
    · exact ⟨_, _, rfl, by rw [replacement]; omega⟩
    · exact ⟨_, _, rfl, hother⟩

end

/-- Two lists come apart at a place. -/
def Diverge {α : Type*} (l l' : List α) : Prop :=
  ∃ before a a' after after', l = before ++ a :: after ∧ l' = before ++ a' :: after' ∧ a ≠ a'

section

variable {α : Type*} {l l' m m' : List α}

theorem Diverge.ne (h : Diverge l l') : l ≠ l' := by
  obtain ⟨before, a, a', after, after', rfl, rfl, hne⟩ := h
  intro heq
  exact hne (List.cons.inj (List.append_cancel_left heq)).1

theorem Diverge.append_left (before : List α) (h : Diverge l l') :
    Diverge (before ++ l) (before ++ l') := by
  obtain ⟨more, a, a', after, after', rfl, rfl, hne⟩ := h
  exact ⟨before ++ more, a, a', after, after', (List.append_assoc _ _ _).symm,
    (List.append_assoc _ _ _).symm, hne⟩

theorem Diverge.append_right (m m' : List α) (h : Diverge l l') : Diverge (l ++ m) (l' ++ m') := by
  obtain ⟨before, a, a', after, after', rfl, rfl, hne⟩ := h
  exact ⟨before, a, a', after ++ m, after' ++ m', List.append_assoc _ _ _,
    List.append_assoc _ _ _, hne⟩

end

/-- What a decoder of UTF-8 reads of a string. -/
def asUtf8 (s : JavaString) : List ℕ :=
  decode (encode s)

/-- **A string is read as it was meant**, or it comes apart from what was
meant at its first unit that is not ordinary. -/
theorem asUtf8_cases (s : JavaString) :
    ((∀ u ∈ s, Ordinary u) ∧ asUtf8 s = codePoints s) ∨
      ((∃ u ∈ s, ¬Ordinary u) ∧ Diverge (asUtf8 s) (codePoints s)) := by
  induction s with
  | nil => exact .inl ⟨nofun, by rw [asUtf8, encode, List.flatMap_nil, decode, codePoints]⟩
  | cons u s ih =>
    rw [asUtf8, show encode (u :: s) = encodeUnit u ++ encode s from rfl]
    by_cases hu : Ordinary u
    · rw [decode_ordinary hu, codePoints_ordinary hu]
      rcases ih with ⟨hall, heq⟩ | ⟨⟨v, hv, hno⟩, hdiverge⟩
      · exact .inl ⟨List.forall_mem_cons.mpr ⟨hu, hall⟩, congrArg (u.toNat :: ·) heq⟩
      · exact .inr ⟨⟨v, List.mem_cons_of_mem u hv, hno⟩, hdiverge.append_left [u.toNat]⟩
    · obtain ⟨more, hmore⟩ := decode_other (encode s) hu
      obtain ⟨x, more', hcode, hne⟩ := codePoints_other (s := s) hu
      rw [hmore, hcode]
      exact .inr ⟨⟨u, List.mem_cons_self, hu⟩, [], replacement, x, more, more', rfl, rfl, hne.symm⟩

/-- The same for strings that are read one by one and put together. -/
theorem flatMap_asUtf8_cases (ss : List JavaString) :
    ((∀ s ∈ ss, ∀ u ∈ s, Ordinary u) ∧
        ss.flatMap asUtf8 = ss.flatMap codePoints) ∨
      ((∃ s ∈ ss, ∃ u ∈ s, ¬Ordinary u) ∧
        Diverge (ss.flatMap asUtf8) (ss.flatMap codePoints)) := by
  induction ss with
  | nil => exact .inl ⟨nofun, rfl⟩
  | cons s ss ih =>
    rw [List.flatMap_cons, List.flatMap_cons]
    rcases asUtf8_cases s with ⟨hs, heq⟩ | ⟨hs, hdiverge⟩
    · rw [heq]
      rcases ih with ⟨hall, heqs⟩ | ⟨⟨t, ht, hno⟩, hdiverge⟩
      · exact .inl ⟨List.forall_mem_cons.mpr ⟨hs, hall⟩, by rw [heqs]⟩
      · exact .inr ⟨⟨t, List.mem_cons_of_mem s ht, hno⟩, hdiverge.append_left _⟩
    · exact .inr ⟨⟨s, List.mem_cons_self, hs⟩, hdiverge.append_right _ _⟩

end ModifiedUtf8

end Muplar
