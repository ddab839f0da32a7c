import Mathlib.Data.List.DropRight
import Muplar.Common.JavaText
import Muplar.Common.Lines
/-!
# Lines of bytes, read by Java

A file of lines need not be text. What a replacement character stands for
ends before the next newline at the latest, whatever the library does
otherwise (`StopsAtNewline`), so the lines Java reads are the lines that
were written, each decoded on its own (`splitOn_decode`).

Two more things a reader does with a line are here: `trim`, and
`Integer.parseInt`.
-/

namespace Muplar

/-- A run of malformed bytes ends before a newline: a newline is a
character wherever it stands. -/
structure JavaLibrary.StopsAtNewline (J : JavaLibrary) : Prop where
  malformed_append : ∀ a b : Bytes, a ≠ [] → newline ∉ a →
    J.malformed (a ++ newline :: b) = J.malformed a
  malformed_lt : ∀ a : Bytes, a ≠ [] → newline ∉ a → J.malformed a < a.length

variable {J : JavaLibrary}

/-! ## Decoding, a character at a time -/

/-- What the first character of the bytes is, and the bytes behind it. -/
theorem decode_some {bs : Bytes} {c : Char} (h : bs.toByteArray.utf8DecodeChar? 0 = some c) :
    bs = String.utf8EncodeChar c ++ bs.drop c.utf8Size := by
  have heq := congrArg (fun b : ByteArray => b.data.toList)
    (ByteArray.eq_of_utf8DecodeChar?_eq_some h)
  have hprefix : String.utf8EncodeChar c <+: bs :=
    ⟨_, by simpa [ByteArray.data_append] using heq.symm⟩
  obtain ⟨rest, rfl⟩ := hprefix
  rw [← String.length_utf8EncodeChar c, List.drop_left]

theorem decodeFrom_of_some {bs : Bytes} {c : Char} {fuel : ℕ}
    (h : bs.toByteArray.utf8DecodeChar? 0 = some c) :
    J.decodeFrom (fuel + 1) bs = c :: J.decodeFrom fuel (bs.drop c.utf8Size) := by
  cases bs with
  | nil =>
    have hnone : ([] : Bytes).toByteArray.utf8DecodeChar? 0 = none := by decide
    rw [hnone] at h
    cases h
  | cons b rest => rw [JavaLibrary.decodeFrom, h]

theorem decodeFrom_of_none {b : UInt8} {rest : Bytes} {fuel : ℕ}
    (h : (b :: rest).toByteArray.utf8DecodeChar? 0 = none) :
    J.decodeFrom (fuel + 1) (b :: rest) =
      '\uFFFD' :: J.decodeFrom fuel (rest.drop (J.malformed (b :: rest))) := by
  rw [JavaLibrary.decodeFrom, h]

theorem decodeFrom_nil (fuel : ℕ) : J.decodeFrom fuel [] = [] := by
  cases fuel <;> rfl

/-- Fuel that is left over changes nothing. -/
theorem decodeFrom_eq {fuel : ℕ} {bs : Bytes} (h : bs.length ≤ fuel) :
    J.decodeFrom fuel bs = J.decodeFrom bs.length bs := by
  induction fuel using Nat.strong_induction_on generalizing bs with
  | _ fuel ih =>
    cases bs with
    | nil => rw [decodeFrom_nil, decodeFrom_nil]
    | cons b rest =>
      obtain ⟨fuel, rfl⟩ := Nat.exists_eq_add_of_lt (Nat.lt_of_lt_of_le Nat.zero_lt_one
        (Nat.le_trans (Nat.le_add_left 1 rest.length) h))
      rw [Nat.zero_add] at ih h ⊢
      rw [List.length_cons] at h ⊢
      -- both sides take the same first step, and what is left is shorter
      have hstep : ∀ bs : Bytes, bs.length ≤ rest.length →
          J.decodeFrom fuel bs = J.decodeFrom rest.length bs := by
        intro bs hle
        rw [ih fuel (by omega) (by omega)]
        rcases Nat.lt_or_ge rest.length (fuel + 1) with hlt | hge
        · rw [← ih rest.length hlt hle]
        · omega
      cases hchar : (b :: rest).toByteArray.utf8DecodeChar? 0 with
      | some c =>
        have hsize := c.utf8Size_pos
        rw [decodeFrom_of_some hchar, decodeFrom_of_some hchar, hstep]
        rw [List.length_drop, List.length_cons]
        omega
      | none =>
        rw [decodeFrom_of_none hchar, decodeFrom_of_none hchar, hstep]
        rw [List.length_drop]
        omega

/-- Something is read as something. -/
theorem decodeUtf8_ne_nil {bs : Bytes} (h : bs ≠ []) : J.decodeUtf8 bs ≠ [] := by
  cases bs with
  | nil => exact absurd rfl h
  | cons b rest =>
    have hchar : ∀ c : Char, ∀ text, utf16 (c :: text) ≠ [] := by
      intro c text
      rw [utf16_cons, utf16Char]
      split <;> exact List.cons_ne_nil _ _
    rw [JavaLibrary.decodeUtf8, List.length_cons]
    cases hc : (b :: rest).toByteArray.utf8DecodeChar? 0 with
    | some c =>
      rw [decodeFrom_of_some hc]
      exact hchar c _
    | none =>
      rw [decodeFrom_of_none hc]
      exact hchar _ _

/-- Bytes that begin with text: the text, and then what the rest is read
as. -/
theorem decodeUtf8_utf8_append (text : List Char) (bs : Bytes) :
    J.decodeUtf8 (utf8 text ++ bs) = utf16 text ++ J.decodeUtf8 bs := by
  induction text with
  | nil => rfl
  | cons c text ih =>
    have hsize := c.utf8Size_pos
    have hlen : (String.utf8EncodeChar c).length = c.utf8Size := String.length_utf8EncodeChar c
    have hbytes : utf8 (c :: text) ++ bs = String.utf8EncodeChar c ++ (utf8 text ++ bs) := by
      rw [← List.append_assoc]
      rfl
    have hchar : (utf8 (c :: text) ++ bs).toByteArray.utf8DecodeChar? 0 = some c := by
      rw [hbytes, List.toByteArray_append, ByteArray.utf8DecodeChar?_utf8EncodeChar_append]
    have hdrop : (utf8 (c :: text) ++ bs).drop c.utf8Size = utf8 text ++ bs := by
      rw [hbytes, ← hlen, List.drop_left]
    have hall : (utf8 (c :: text) ++ bs).length =
        c.utf8Size - 1 + (utf8 text ++ bs).length + 1 := by
      rw [hbytes, List.length_append, hlen]
      omega
    rw [JavaLibrary.decodeUtf8, hall, decodeFrom_of_some hchar, hdrop,
      decodeFrom_eq (Nat.le_add_left _ _), utf16_cons, utf16_cons, List.append_assoc, ← ih,
      JavaLibrary.decodeUtf8]

theorem decodeUtf8_ascii_append (s : String) (bs : Bytes) :
    J.decodeUtf8 (ascii s ++ bs) = java s ++ J.decodeUtf8 bs := by
  rw [ascii_eq_utf8, decodeUtf8_utf8_append, java]

theorem decodeUtf8_ascii (s : String) : J.decodeUtf8 (ascii s) = java s := by
  rw [ascii_eq_utf8, decodeUtf8_utf8, java]

theorem decodeUtf8_decimal (n : ℕ) : J.decodeUtf8 (decimal n) = utf16 (Nat.toDigits 10 n) := by
  rw [decimal_eq_utf8, decodeUtf8_utf8]

/-! ## Decoding lines -/

/-- Before a newline, bytes that are no character are none with the
newline behind them either. -/
theorem decode_append_none {a b : Bytes} (hne : a ≠ []) (hline : newline ∉ a)
    (h : a.toByteArray.utf8DecodeChar? 0 = none) :
    (a ++ newline :: b).toByteArray.utf8DecodeChar? 0 = none := by
  cases hc : (a ++ newline :: b).toByteArray.utf8DecodeChar? 0 with
  | none => rfl
  | some c =>
    exfalso
    have hbytes := decode_some hc
    have hlen : (String.utf8EncodeChar c).length = c.utf8Size := String.length_utf8EncodeChar c
    have hpos : 0 < a.length := List.length_pos_iff.mpr hne
    rcases Nat.lt_or_ge a.length c.utf8Size with hlt | hge
    · -- the character would have the newline among its bytes, so be the newline
      have hmem : newline ∈ String.utf8EncodeChar c := by
        have hprefix : a ++ [newline] <+: String.utf8EncodeChar c := by
          have hleft : a ++ [newline] <+: a ++ newline :: b := ⟨b, by simp⟩
          refine List.prefix_of_prefix_length_le hleft ⟨_, hbytes.symm⟩ ?_
          rw [List.length_append, List.length_singleton, hlen]
          omega
        exact hprefix.subset (List.mem_append_right _ List.mem_cons_self)
      have hchar : '\n' = c := by
        have htext : newline ∈ utf8 [c] := by simpa [utf8] using hmem
        exact List.mem_singleton.mp (newline_mem_utf8.mp htext)
      rw [← hchar] at hlt
      have hone : ('\n' : Char).utf8Size = 1 := by decide
      omega
    · have hprefix : String.utf8EncodeChar c <+: a := by
        have hleft : String.utf8EncodeChar c <+: a ++ newline :: b := ⟨_, hbytes.symm⟩
        refine List.prefix_of_prefix_length_le hleft (List.prefix_append _ _) ?_
        rw [hlen]
        exact hge
      obtain ⟨rest, rfl⟩ := hprefix
      rw [List.toByteArray_append, ByteArray.utf8DecodeChar?_utf8EncodeChar_append] at h
      cases h

/-- **A newline ends what is read before it.** -/
theorem decodeUtf8_append_newline (hJ : J.StopsAtNewline) {a : Bytes} (hline : newline ∉ a)
    (b : Bytes) :
    J.decodeUtf8 (a ++ newline :: b) = J.decodeUtf8 a ++ 10 :: J.decodeUtf8 b := by
  induction hn : a.length using Nat.strong_induction_on generalizing a with
  | _ n ih =>
    subst hn
    cases a with
    | nil =>
      have hone := decodeUtf8_utf8_append (J := J) ['\n'] b
      exact hone
    | cons x a =>
      have hall : (x :: a ++ newline :: b).length = (a ++ newline :: b).length + 1 := rfl
      -- what is left of the line after its first character
      have hrest : ∀ k, k ≤ a.length → J.decodeFrom (a ++ newline :: b).length
            (a.drop k ++ newline :: b) =
          J.decodeFrom (a.drop k ++ newline :: b).length (a.drop k ++ newline :: b) := by
        intro k hk
        refine decodeFrom_eq ?_
        rw [List.length_append, List.length_append, List.length_drop]
        omega
      have hdrop : ∀ k, k ≤ a.length → utf16 (J.decodeFrom (a.drop k ++ newline :: b).length
            (a.drop k ++ newline :: b)) =
          utf16 (J.decodeFrom a.length (a.drop k)) ++ 10 :: J.decodeUtf8 b := by
        intro k hk
        have hlt : (a.drop k).length < (x :: a).length := by
          rw [List.length_drop, List.length_cons]
          omega
        have hdec := ih _ hlt (fun hmem => hline (List.mem_cons_of_mem x
          (List.mem_of_mem_drop hmem))) rfl
        rw [JavaLibrary.decodeUtf8] at hdec
        have hfuel : (a.drop k).length ≤ a.length := by
          rw [List.length_drop]
          omega
        rw [hdec, JavaLibrary.decodeUtf8, decodeFrom_eq (J := J) hfuel]
      cases hchar : (x :: a).toByteArray.utf8DecodeChar? 0 with
      | some c =>
        have hsize := c.utf8Size_pos
        have hle : c.utf8Size ≤ a.length + 1 := by
          have hlen := congrArg List.length (decode_some hchar)
          rw [List.length_append, String.length_utf8EncodeChar, List.length_cons] at hlen
          omega
        have happend : (x :: a ++ newline :: b).toByteArray.utf8DecodeChar? 0 = some c := by
          rw [List.toByteArray_append]
          exact ByteArray.utf8DecodeChar?_append_eq_some hchar _
        obtain ⟨k, hk⟩ : ∃ k, c.utf8Size = k + 1 := ⟨c.utf8Size - 1, by omega⟩
        have hka : k ≤ a.length := by omega
        rw [JavaLibrary.decodeUtf8, JavaLibrary.decodeUtf8, hall, decodeFrom_of_some happend,
          List.length_cons, decodeFrom_of_some hchar, hk, List.cons_append, List.drop_succ_cons,
          List.drop_succ_cons, List.drop_append_of_le_length hka, hrest k hka, utf16_cons,
          utf16_cons, hdrop k hka, List.append_assoc]
      | none =>
        have happend := decode_append_none (b := b) (List.cons_ne_nil x a) hline hchar
        have hmal := hJ.malformed_append (x :: a) b (List.cons_ne_nil x a) hline
        have hka := Nat.le_of_lt_succ (hJ.malformed_lt (x :: a) (List.cons_ne_nil x a) hline)
        rw [List.cons_append] at happend hmal
        rw [JavaLibrary.decodeUtf8, JavaLibrary.decodeUtf8, hall, List.cons_append,
          decodeFrom_of_none happend, List.length_cons, decodeFrom_of_none hchar, hmal,
          List.drop_append_of_le_length hka, hrest _ hka, utf16_cons, utf16_cons, hdrop _ hka,
          List.append_assoc]

/-- A character that is read was written. -/
theorem newline_not_mem_decodeUtf8 {bs : Bytes} (h : newline ∉ bs) :
    (10 : UInt16) ∉ J.decodeUtf8 bs := by
  rw [JavaLibrary.decodeUtf8, newline_mem_utf16]
  generalize bs.length = fuel
  induction fuel generalizing bs with
  | zero => exact List.not_mem_nil
  | succ fuel ih =>
    cases bs with
    | nil => exact List.not_mem_nil
    | cons b rest =>
      cases hchar : (b :: rest).toByteArray.utf8DecodeChar? 0 with
      | some c =>
        rw [decodeFrom_of_some hchar]
        refine List.not_mem_cons_of_ne_of_not_mem ?_ (ih fun hmem => h (List.mem_of_mem_drop hmem))
        rintro rfl
        refine h ?_
        rw [decode_some hchar]
        exact List.mem_append_left _ (by decide)
      | none =>
        rw [decodeFrom_of_none hchar]
        exact List.not_mem_cons_of_ne_of_not_mem (by decide)
          (ih fun hmem => h (List.mem_cons_of_mem b (List.mem_of_mem_drop hmem)))

theorem newline_mem_decodeUtf8 (hJ : J.StopsAtNewline) {bs : Bytes} :
    (10 : UInt16) ∈ J.decodeUtf8 bs ↔ newline ∈ bs := by
  refine ⟨fun h => by_contra fun hno => newline_not_mem_decodeUtf8 hno h, fun h => ?_⟩
  obtain ⟨a, b, rfl, hline⟩ := List.eq_append_cons_of_mem h
  rw [decodeUtf8_append_newline hJ hline]
  exact List.mem_append_right _ List.mem_cons_self

/-- **Lines of bytes are read as lines.** -/
theorem splitOn_decodeUtf8_bytes (hJ : J.StopsAtNewline) (bs : Bytes) :
    (J.decodeUtf8 bs).splitOn 10 = (bs.splitOn newline).map J.decodeUtf8 := by
  obtain ⟨init, last, hparts, hbytes⟩ := exists_unlines newline bs
  have hlines : ∀ line ∈ init ++ [last], newline ∉ line := by
    intro line hmem
    rw [← hparts] at hmem
    exact not_mem_of_splitOn hmem
  rw [hparts, hbytes]
  clear hparts hbytes
  induction init with
  | nil =>
    have hlast := hlines last (List.mem_append_right _ List.mem_cons_self)
    exact List.splitOn_eq_singleton (newline_not_mem_decodeUtf8 hlast)
  | cons line init ih =>
    have hline := hlines line List.mem_cons_self
    have htext : unlines newline (line :: init) ++ last =
        line ++ newline :: (unlines newline init ++ last) := by simp [unlines]
    rw [htext, decodeUtf8_append_newline hJ hline,
      List.splitOn_append_cons_self_of_not_mem (newline_not_mem_decodeUtf8 hline),
      ih fun l hmem => hlines l (List.mem_cons_of_mem _ hmem)]
    rfl

/-! ## Trimming -/

/-- `String.trim`: what `trim` takes for a blank. -/
def isBlank (u : UInt16) : Bool :=
  u ≤ 32

/-- `String.trim`. -/
def JavaString.trim (s : JavaString) : JavaString :=
  (s.dropWhile isBlank).rdropWhile isBlank

theorem trim_subset (s : JavaString) : s.trim ⊆ s := fun _ h =>
  (List.dropWhile_sublist _).subset ((List.rdropWhile_prefix _ _).subset h)

/-- What is not blank is not trimmed. -/
theorem mem_trim {s : JavaString} {u : UInt16} (hmem : u ∈ s) (hu : isBlank u = false) :
    u ∈ s.trim := by
  have hleft : u ∈ s.dropWhile isBlank := by
    rw [← List.takeWhile_append_dropWhile (p := isBlank) (l := s)] at hmem
    rcases List.mem_append.mp hmem with htake | hdrop
    · exact absurd (List.mem_takeWhile_imp htake) (by rw [hu]; exact Bool.false_ne_true)
    · exact hdrop
  rw [← List.rdropWhile_append_rtakeWhile (p := isBlank) (l := s.dropWhile isBlank)] at hleft
  rcases List.mem_append.mp hleft with hdrop | htake
  · exact hdrop
  · exact absurd (List.mem_rtakeWhile_imp htake) (by rw [hu]; exact Bool.false_ne_true)

theorem trim_of_forall {s : JavaString} (h : ∀ u ∈ s, isBlank u = false) : s.trim = s := by
  have hleft : s.dropWhile isBlank = s := by
    refine List.dropWhile_eq_self_iff.mpr fun hl hblank => ?_
    rw [h _ (List.getElem_mem hl)] at hblank
    cases hblank
  rw [JavaString.trim, hleft, List.rdropWhile_eq_self_iff]
  intro hne hblank
  rw [h _ (List.getLast_mem hne)] at hblank
  cases hblank

/-- **What was trimmed stays as it is.** -/
theorem trim_trim (s : JavaString) : s.trim.trim = s.trim := by
  have hright : s.trim.rdropWhile isBlank = s.trim := List.rdropWhile_idempotent _ _
  have hleft : s.trim.dropWhile isBlank = s.trim := by
    have hprefix : s.trim <+: s.dropWhile isBlank := List.rdropWhile_prefix _ _
    cases htrim : s.trim with
    | nil => rfl
    | cons u rest =>
      obtain ⟨more, hmore⟩ := hprefix
      rw [htrim, List.cons_append] at hmore
      -- the first unit is the one the left end stops at
      have hfirst := List.head?_dropWhile_not isBlank s
      rw [← hmore, List.head?_cons] at hfirst
      exact List.dropWhile_cons_of_neg (by rw [hfirst]; exact Bool.false_ne_true)
  rw [JavaString.trim, hleft, hright]

/-! ## Integers -/

/-- `Integer.parseInt`: a `long` that is an `int`. -/
def JavaLibrary.parseInt (J : JavaLibrary) (s : JavaString) : Option ℤ :=
  (J.parseLong s).bind fun n =>
    if -(2 ^ 31) ≤ n.toInt ∧ n.toInt < 2 ^ 31 then some n.toInt else none

theorem parseInt_lt {s : JavaString} {n : ℤ} (h : J.parseInt s = some n) : n < 2 ^ 31 := by
  obtain ⟨m, -, hm⟩ := Option.bind_eq_some_iff.mp h
  split at hm
  · next hrange =>
    cases hm
    exact hrange.2
  · cases hm

/-- **A number is read back**, where it is an `int`. -/
theorem parseInt_decimal (n : ℕ) :
    J.parseInt (utf16 (Nat.toDigits 10 n)) = if n < 2 ^ 31 then some (n : ℤ) else none := by
  rw [JavaLibrary.parseInt, parseLong_decimal]
  by_cases hlong : n < 2 ^ 63
  · have hn : (Int64.ofInt n).toInt = n := Int64.toInt_ofInt_of_le (by omega) (by omega)
    rw [if_pos hlong, Option.bind_some, hn]
    by_cases hint : n < 2 ^ 31
    · rw [if_pos (by omega), if_pos hint]
    · rw [if_neg (by omega), if_neg hint]
  · rw [if_neg hlong, if_neg (by omega), Option.bind_none]

end Muplar
