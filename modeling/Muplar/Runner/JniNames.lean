import Muplar.Common.JavaText
import Muplar.Common.PathText
/-!
# The guest runner — names of native methods

A native method is looked up under a name made of its class and its own
name. Letters and digits stand for themselves, the separator of a class
name becomes an underscore, and everything else an escape: an underscore
and a digit from 0 to 3. What tells an escape from a separator is that no
part of a name begins with such a digit, which holds of identifiers of the
language and is not asked of class files (`jniExportBase_inj`).
-/

namespace Muplar

namespace Runner

/-! ## Mangling -/

/-- `std::isalnum`, in the C locale. -/
def isAlnum (c : UInt8) : Bool :=
  48 ≤ c && c ≤ 57 || 65 ≤ c && c ≤ 90 || 97 ≤ c && c ≤ 122

/-- A digit of `%x`. -/
def hexDigit (n : ℕ) : UInt8 :=
  if n < 10 then UInt8.ofNat (48 + n) else UInt8.ofNat (87 + n)

/-- `%04x`. -/
def hex4 (n : ℕ) : Bytes :=
  [hexDigit (n / 4096 % 16), hexDigit (n / 256 % 16), hexDigit (n / 16 % 16), hexDigit (n % 16)]

/-- One turn of the loop of `jni_mangle`. -/
def mangled (c : UInt8) : Bytes :=
  if isAlnum c then [c]
  else if c = 47 ∨ c = 46 then [95]
  else if c = 95 then ascii "_1"
  else if c = 59 then ascii "_2"
  else if c = 91 then ascii "_3"
  else ascii "_0" ++ hex4 c.toNat

/-- `jni_mangle`. -/
def jniMangle (value : Bytes) : Bytes :=
  value.flatMap mangled

/-- `jni_export_base`. -/
def jniExportBase (className methodName : Bytes) : Bytes :=
  ascii "Java_" ++ jniMangle className ++ ascii "_" ++ jniMangle methodName

/-! ## Names -/

/-- A name without separators. -/
structure IsPart (part : Bytes) : Prop where
  ne_nil : part ≠ []
  no_slash : 47 ∉ part
  no_dot : 46 ∉ part

/-- A binary class name: its parts, with slashes or with dots between
them. -/
structure ClassName where
  parts : List Bytes
  sep : UInt8
  sep_eq : sep = 47 ∨ sep = 46
  ne_nil : parts ≠ []
  isPart : ∀ part ∈ parts, IsPart part

/-- The name as it is written. -/
def ClassName.text (c : ClassName) : Bytes :=
  [c.sep].intercalate c.parts

/-- The digits an escape begins with. -/
def isMark (b : UInt8) : Bool :=
  48 ≤ b && b ≤ 51

/-- The part does not begin like an escape. -/
def Unmarked (part : Bytes) : Prop :=
  ∀ b ∈ part.head?, isMark b = false

instance : (part : Bytes) → Decidable (Unmarked part)
  | [] => .isTrue nofun
  | b :: _ => decidable_of_iff (isMark b = false) (by simp [Unmarked])

/-! ## What the characters become -/

/-- What stands behind the underscore of an escape. -/
def escape (c : UInt8) : Bytes :=
  if c = 95 then [49] else if c = 59 then [50] else if c = 91 then [51] else 48 :: hex4 c.toNat

theorem mangled_alnum {c : UInt8} (h : isAlnum c = true) : mangled c = [c] := if_pos h

theorem mangled_sep {c : UInt8} (h : c = 47 ∨ c = 46) : mangled c = [95] := by
  rcases h with rfl | rfl <;> rfl

theorem mangled_other {c : UInt8} (h : isAlnum c = false) (hslash : c ≠ 47) (hdot : c ≠ 46) :
    mangled c = 95 :: escape c := by
  have hsep : ¬(c = 47 ∨ c = 46) := by
    rintro (h | h)
    · exact hslash h
    · exact hdot h
  rw [mangled, h, if_neg Bool.false_ne_true, if_neg hsep, escape]
  split_ifs <;> rfl

theorem alnum_ne_underscore {c : UInt8} (h : isAlnum c = true) : c ≠ 95 := by
  rintro rfl
  exact absurd h (by decide)

theorem hexDigit_inj {m n : ℕ} (hm : m < 16) (hn : n < 16) (h : hexDigit m = hexDigit n) : m = n := by
  have hnat := congrArg UInt8.toNat h
  unfold hexDigit at hnat
  split_ifs at hnat <;> simp only [UInt8.toNat_ofNat'] at hnat <;> omega

/-- An escape begins with a digit. -/
theorem escape_cons (c : UInt8) : ∃ b rest, escape c = b :: rest ∧ isMark b = true := by
  unfold escape
  split_ifs
  · exact ⟨49, [], rfl, rfl⟩
  · exact ⟨50, [], rfl, rfl⟩
  · exact ⟨51, [], rfl, rfl⟩
  · exact ⟨48, _, rfl, rfl⟩

theorem hex4_append_inj {m n : ℕ} {x y : Bytes} (hm : m < 2 ^ 16) (hn : n < 2 ^ 16)
    (h : hex4 m ++ x = hex4 n ++ y) : m = n ∧ x = y := by
  simp only [hex4, List.cons_append, List.nil_append, List.cons.injEq] at h
  obtain ⟨h0, h1, h2, h3, hrest⟩ := h
  have h0 := hexDigit_inj (Nat.mod_lt _ (by omega)) (Nat.mod_lt _ (by omega)) h0
  have h1 := hexDigit_inj (Nat.mod_lt _ (by omega)) (Nat.mod_lt _ (by omega)) h1
  have h2 := hexDigit_inj (Nat.mod_lt _ (by omega)) (Nat.mod_lt _ (by omega)) h2
  have h3 := hexDigit_inj (Nat.mod_lt _ (by omega)) (Nat.mod_lt _ (by omega)) h3
  exact ⟨by omega, hrest⟩

/-- No escape is the beginning of another. -/
theorem escape_append_inj {c d : UInt8} {x y : Bytes} (h : escape c ++ x = escape d ++ y) :
    c = d ∧ x = y := by
  have hc := c.toNat_lt
  have hd := d.toNat_lt
  unfold escape at h
  -- the digit behind the underscore says which of the four it is
  split_ifs at h with c1 d1 d2 d3 c2 d1 d2 d3 c3 d1 d2 d3 d1 d2 d3 <;>
    rw [List.cons_append, List.cons_append, List.cons.injEq] at h <;>
    first
    | exact absurd h.1 (by decide)
    | exact ⟨by simp only [*], h.2⟩
    | skip
  obtain ⟨hnat, hrest⟩ := hex4_append_inj (by omega) (by omega) h.2
  exact ⟨UInt8.toNat_inj.mp hnat, hrest⟩

/-! ## Names that are told apart -/

/-- What may stand behind a part: nothing, or a separator and what is no
escape. -/
def Delimited (x : Bytes) : Prop :=
  x = [] ∨ ∃ rest, x = 95 :: rest ∧ Unmarked rest

theorem not_delimited_mangled {d : UInt8} (hslash : d ≠ 47) (hdot : d ≠ 46) (rest : Bytes) :
    ¬Delimited (mangled d ++ rest) := by
  cases hd : isAlnum d with
  | true =>
    rw [mangled_alnum hd]
    rintro (h | ⟨after, h, -⟩)
    · cases h
    · exact alnum_ne_underscore hd (List.cons.inj h).1
  | false =>
    obtain ⟨b, more, hescape, hmark⟩ := escape_cons d
    rw [mangled_other hd hslash hdot, hescape]
    rintro (h | ⟨after, h, hafter⟩)
    · cases h
    · obtain ⟨-, rfl⟩ := List.cons.inj h
      rw [hafter b rfl] at hmark
      cases hmark

theorem mangled_append_inj {c d : UInt8} {x y : Bytes} (hc : c ≠ 47 ∧ c ≠ 46)
    (hd : d ≠ 47 ∧ d ≠ 46) (h : mangled c ++ x = mangled d ++ y) : c = d ∧ x = y := by
  cases hcx : isAlnum c with
  | true =>
    rw [mangled_alnum hcx] at h
    cases hdx : isAlnum d with
    | true =>
      rw [mangled_alnum hdx] at h
      exact List.cons.inj h
    | false =>
      rw [mangled_other hdx hd.1 hd.2] at h
      exact absurd (List.cons.inj h).1 (alnum_ne_underscore hcx)
  | false =>
    rw [mangled_other hcx hc.1 hc.2] at h
    cases hdx : isAlnum d with
    | true =>
      rw [mangled_alnum hdx] at h
      exact absurd (List.cons.inj h).1.symm (alnum_ne_underscore hdx)
    | false =>
      rw [mangled_other hdx hd.1 hd.2] at h
      exact escape_append_inj (List.cons.inj h).2

/-- A part ends where it ended when it was written. -/
theorem jniMangle_append_inj {a b x y : Bytes} (ha : 47 ∉ a ∧ 46 ∉ a) (hb : 47 ∉ b ∧ 46 ∉ b)
    (hx : Delimited x) (hy : Delimited y) (h : jniMangle a ++ x = jniMangle b ++ y) :
    a = b ∧ x = y := by
  have hhead : ∀ {c : UInt8} {a : Bytes}, 47 ∉ c :: a ∧ 46 ∉ c :: a → c ≠ 47 ∧ c ≠ 46 :=
    fun h => ⟨fun hc => h.1 (hc ▸ List.mem_cons_self), fun hc => h.2 (hc ▸ List.mem_cons_self)⟩
  have htail : ∀ {c : UInt8} {a : Bytes}, 47 ∉ c :: a ∧ 46 ∉ c :: a → 47 ∉ a ∧ 46 ∉ a :=
    fun h => ⟨fun hc => h.1 (List.mem_cons_of_mem _ hc), fun hc => h.2 (List.mem_cons_of_mem _ hc)⟩
  have hcons : ∀ (c : UInt8) (a : Bytes), jniMangle (c :: a) = mangled c ++ jniMangle a :=
    fun c a => List.flatMap_cons
  induction a generalizing b with
  | nil =>
    cases b with
    | nil => exact ⟨rfl, h⟩
    | cons d b =>
      rw [hcons, List.append_assoc] at h
      change x = _ at h
      rw [h] at hx
      exact absurd hx (not_delimited_mangled (hhead hb).1 (hhead hb).2 _)
  | cons c a ih =>
    rw [hcons, List.append_assoc] at h
    cases b with
    | nil =>
      change _ = y at h
      rw [← h] at hy
      exact absurd hy (not_delimited_mangled (hhead ha).1 (hhead ha).2 _)
    | cons d b =>
      rw [hcons, List.append_assoc] at h
      obtain ⟨rfl, hrest⟩ := mangled_append_inj (hhead ha) (hhead hb) h
      obtain ⟨rfl, hxy⟩ := ih (htail ha) (htail hb) hrest
      exact ⟨rfl, hxy⟩

/-- The first character of what a part becomes. -/
theorem unmarked_jniMangle {part : Bytes} (hpart : IsPart part) (h : Unmarked part) (rest : Bytes) :
    Unmarked (jniMangle part ++ rest) := by
  obtain ⟨c, part, rfl⟩ := List.exists_cons_of_ne_nil hpart.ne_nil
  have hslash : c ≠ 47 := fun hc => hpart.no_slash (hc ▸ List.mem_cons_self)
  have hdot : c ≠ 46 := fun hc => hpart.no_dot (hc ▸ List.mem_cons_self)
  rw [jniMangle, List.flatMap_cons]
  intro b hb
  cases hc : isAlnum c with
  | true =>
    rw [mangled_alnum hc] at hb
    exact h b hb
  | false =>
    rw [mangled_other hc hslash hdot] at hb
    rw [← Option.some.inj hb]
    rfl

theorem delimited_joined {parts : List Bytes} (hparts : ∀ part ∈ parts, IsPart part ∧ Unmarked part) :
    Delimited (parts.flatMap fun part => 95 :: jniMangle part) := by
  cases parts with
  | nil => exact Or.inl rfl
  | cons part parts =>
    obtain ⟨hpart, hunmarked⟩ := hparts part List.mem_cons_self
    exact Or.inr ⟨_, rfl, unmarked_jniMangle hpart hunmarked _⟩

/-- Parts are read back from what they are joined to. -/
theorem joined_inj {ps qs : List Bytes} (hps : ∀ p ∈ ps, IsPart p ∧ Unmarked p)
    (hqs : ∀ q ∈ qs, IsPart q ∧ Unmarked q)
    (h : ps.flatMap (fun p => 95 :: jniMangle p) = qs.flatMap fun q => 95 :: jniMangle q) :
    ps = qs := by
  induction ps generalizing qs with
  | nil =>
    cases qs with
    | nil => rfl
    | cons q qs => cases h
  | cons p ps ih =>
    cases qs with
    | nil => cases h
    | cons q qs =>
      rw [List.forall_mem_cons] at hps hqs
      rw [List.flatMap_cons, List.flatMap_cons] at h
      obtain ⟨rfl, hrest⟩ := jniMangle_append_inj ⟨hps.1.1.no_slash, hps.1.1.no_dot⟩
        ⟨hqs.1.1.no_slash, hqs.1.1.no_dot⟩ (delimited_joined hps.2) (delimited_joined hqs.2)
        (List.cons.inj h).2
      rw [ih hps.2 hqs.2 hrest]

theorem jniMangle_text (c : ClassName) {first : Bytes} {parts : List Bytes}
    (hparts : c.parts = first :: parts) :
    jniMangle c.text = jniMangle first ++ parts.flatMap fun part => 95 :: jniMangle part := by
  rw [ClassName.text, hparts, jniMangle, flatMap_intercalate, mangled_sep c.sep_eq, List.map_cons,
    intercalate_cons_eq, List.flatMap_map]
  rfl

/-- **A name identifies its method**, if no part of the class name behind a
separator begins with a digit from 0 to 3, and the method's name does not
either. -/
theorem jniExportBase_inj {c c' : ClassName} {m m' : Bytes} (hm : IsPart m) (hm' : IsPart m')
    (hc : ∀ part ∈ c.parts.tail, Unmarked part) (hc' : ∀ part ∈ c'.parts.tail, Unmarked part)
    (hum : Unmarked m) (hum' : Unmarked m')
    (h : jniExportBase c.text m = jniExportBase c'.text m') : c.parts = c'.parts ∧ m = m' := by
  obtain ⟨first, parts, hparts⟩ := List.exists_cons_of_ne_nil c.ne_nil
  obtain ⟨first', parts', hparts'⟩ := List.exists_cons_of_ne_nil c'.ne_nil
  have hall := c.isPart
  have hall' := c'.isPart
  rw [hparts] at hc hall
  rw [hparts'] at hc' hall'
  rw [List.forall_mem_cons] at hall hall'
  have hjoined : ∀ (first : Bytes) (parts : List Bytes) (m : Bytes),
      ascii "Java_" ++ (jniMangle first ++ parts.flatMap fun part => 95 :: jniMangle part) ++
        ascii "_" ++ jniMangle m =
      ascii "Java_" ++ (jniMangle first ++
        (parts ++ [m]).flatMap fun part => 95 :: jniMangle part) := fun first parts m => by
    have hunderscore : ascii "_" = [95] := by decide
    simp [hunderscore, List.append_assoc]
  have hlast : ∀ {parts : List Bytes} {m : Bytes}, (∀ part ∈ parts, IsPart part) →
      (∀ part ∈ parts, Unmarked part) → IsPart m → Unmarked m →
      ∀ part ∈ parts ++ [m], IsPart part ∧ Unmarked part := fun hp hu hm hum part hmem => by
    rcases List.mem_append.mp hmem with hmem | hmem
    · exact ⟨hp part hmem, hu part hmem⟩
    · rw [List.mem_singleton.mp hmem]
      exact ⟨hm, hum⟩
  have htail := hlast hall.2 hc hm hum
  have htail' := hlast hall'.2 hc' hm' hum'
  rw [jniExportBase, jniExportBase, jniMangle_text c hparts, jniMangle_text c' hparts', hjoined,
    hjoined] at h
  obtain ⟨rfl, hrest⟩ := jniMangle_append_inj ⟨hall.1.no_slash, hall.1.no_dot⟩
    ⟨hall'.1.no_slash, hall'.1.no_dot⟩ (delimited_joined htail) (delimited_joined htail')
    (List.append_cancel_left h)
  obtain ⟨hps, hms⟩ := List.append_inj' (joined_inj htail htail' hrest) rfl
  rw [hparts, hparts', hps]
  exact ⟨rfl, (List.cons.inj hms).1⟩

instance (part : Bytes) : Decidable (IsPart part) :=
  decidable_of_iff (part ≠ [] ∧ 47 ∉ part ∧ 46 ∉ part)
    ⟨fun h => ⟨h.1, h.2.1, h.2.2⟩, fun h => ⟨h.ne_nil, h.no_slash, h.no_dot⟩⟩

/-- The class `p.Q`, with the separator. -/
def classPQ (sep : UInt8) (h : sep = 47 ∨ sep = 46) : ClassName where
  parts := [ascii "p", ascii "Q"]
  sep := sep
  sep_eq := h
  ne_nil := by decide
  isPart := by decide

theorem jniExportBase_inj_classPQ :
    (classPQ 47 (Or.inl rfl)).parts = (classPQ 46 (Or.inr rfl)).parts ∧
      ascii "m_0" = ascii "m_0" :=
  @jniExportBase_inj (classPQ 47 (Or.inl rfl)) (classPQ 46 (Or.inr rfl)) _ _ (by decide)
    (by decide) (by decide) (by decide) (by decide) (by decide) (by decide)

/-- The class `1` of the package `a`. -/
def classA1 : ClassName where
  parts := [ascii "a", ascii "1"]
  sep := 47
  sep_eq := Or.inl rfl
  ne_nil := by decide
  isPart := by decide

/-- The class `a_`. -/
def classAUnderscore : ClassName where
  parts := [ascii "a_"]
  sep := 47
  sep_eq := Or.inl rfl
  ne_nil := by decide
  isPart := by decide

/-- **Two methods with one name.** A separator and the digit behind it are
taken for an escape. -/
theorem digit_taken_for_escape : classA1.parts ≠ classAUnderscore.parts ∧
    jniExportBase classA1.text (ascii "m") = jniExportBase classAUnderscore.text (ascii "m") := by
  decide

end Runner

end Muplar
