import Mathlib.Data.List.Forall2
import Mathlib.Data.List.TakeWhile
import Muplar.Common.JsonText
import Muplar.Prefix.RegistryFile
/-!
# Prefixes — which registries can be read

The reader of `instances.json` is not a JSON reader in full: what it skips
it skips by a grammar of its own. Here it meets the grammar of JSON. For
every document there is a value that the reader comes to, or it throws
(`outcome_parseRegistry`); which of the two is read off the syntax tree by
`readRegistry`.

The one thing in a document that the reader does not know is the exponent
of a number. It stops before the `e`, and no loop goes on from there; that
is why an outcome that is not a value is a throw, or a stop before an
exponent.
-/

namespace Muplar

namespace Prefix

namespace Json

open JsonText

variable {α β : Type}

/-! ## Outcomes -/

def Throws (x : Json α) (text : Bytes) : Prop :=
  ∃ message, (x text).run = some (.error message)

/-- The mark of an exponent. -/
def IsMark (b : UInt8) : Prop :=
  b = 101 ∨ b = 69

instance : DecidablePred IsMark :=
  fun b => inferInstanceAs (Decidable (b = 101 ∨ b = 69))

/-- The reader throws, or stops before an exponent. -/
def Stuck (x : Json α) (text : Bytes) : Prop :=
  Throws x text ∨ ∃ a b rest, Gives x text a (b :: rest) ∧ IsMark b

/-- The reader comes to the value and to the text behind, or it is
stuck. -/
def Outcome (x : Json α) (text rest : Bytes) : Option α → Prop
  | some a => Gives x text a rest
  | none => Stuck x text

theorem run_bind (x : Json α) (f : α → Json β) (text : Bytes) :
    ((x >>= f) text).run = match (x text).run with
      | none => none
      | some (.error message) => some (.error message)
      | some (.ok (a, text)) => (f a text).run := by
  show ((x text >>= fun p => f p.1 p.2) : ExceptT Bytes Option (β × Bytes)).run = _
  rw [ExceptT.run_bind]
  rcases (x text).run with _ | (_ | ⟨a, text⟩) <;> rfl

variable {x : Json α} {f : α → Json β} {text mid rest : Bytes} {a : α}

theorem Throws.bind (h : Throws x text) : Throws (x >>= f) text := by
  obtain ⟨message, h⟩ := h
  exact ⟨message, by rw [run_bind, h]⟩

theorem Gives.bind_throws (h : Gives x text a mid) (hf : Throws (f a) mid) :
    Throws (x >>= f) text := by
  obtain ⟨message, hf⟩ := hf
  unfold Gives at h
  exact ⟨message, by rw [run_bind, h]; exact hf⟩

/-- After a value that is certain, the outcome is the one of what follows. -/
theorem Gives.outcome (h : Gives x text a mid) {o : Option β} (hf : Outcome (f a) mid rest o) :
    Outcome (x >>= f) text rest o := by
  cases o with
  | some b => exact h.bind hf
  | none =>
    rcases hf with hthrows | ⟨b, mark, rest, hgives, hmark⟩
    · exact Or.inl (h.bind_throws hthrows)
    · exact Or.inr ⟨b, mark, rest, h.bind hgives, hmark⟩

/-- What follows a reader that may be stuck must not go on from an
exponent. -/
theorem Outcome.bind {o : Option α} (h : Outcome x text mid o) {g : α → Option β}
    (hf : ∀ a, Outcome (f a) mid rest (g a))
    (hstuck : ∀ a b rest, IsMark b → Stuck (f a) (b :: rest)) :
    Outcome (x >>= f) text rest (o.bind g) := by
  cases o with
  | some a => exact Gives.outcome h (hf a)
  | none =>
    rcases h with hthrows | ⟨a, mark, rest', hgives, hmark⟩
    · exact Or.inl hthrows.bind
    · have hfollows : Outcome (f a) (mark :: rest') rest none := hstuck a mark rest' hmark
      exact hgives.outcome hfollows

theorem Outcome.map {o : Option α} (h : Outcome x text rest o) (g : α → β) :
    Outcome (x >>= fun a => pure (g a)) text rest (o.map g) := by
  rw [Option.map_eq_bind]
  refine h.bind (fun a => gives_pure (g a) rest) fun a b rest hmark => ?_
  exact Or.inr ⟨g a, b, rest, gives_pure _ _, hmark⟩

/-! ## Tokens -/

theorem blank_blanks (ws : Blanks) : Blank ws.bytes := by
  intro b hb
  rcases ws.blank b hb with rfl | rfl | rfl | rfl <;> decide

theorem not_space_of_mark {b : UInt8} (h : IsMark b) : isSpace b = false := by
  rcases h with rfl | rfl <;> decide

theorem throws_expect {ws : Bytes} {b c : UInt8} (hws : Blank ws) (hb : isSpace b = false)
    (hne : b ≠ c) : Throws (expect c) (ws ++ b :: rest) :=
  (gives_consume_other hws hb hne).bind_throws ⟨_, rfl⟩

theorem hexValue_byte (h : HexDigit) : hexValue h.byte = some h.digit := by
  obtain ⟨digit, capital⟩ := h
  revert digit capital
  decide

theorem unicodeEscape_digits (h₁ h₂ h₃ h₄ : HexDigit) (hascii : hexNumber h₁ h₂ h₃ h₄ < 128) :
    unicodeEscape [h₁.byte, h₂.byte, h₃.byte, h₄.byte] =
      .ok (UInt8.ofNat (hexNumber h₁ h₂ h₃ h₄)) := by
  have hvalues : [h₁.byte, h₂.byte, h₃.byte, h₄.byte].mapM hexValue =
      some [h₁.digit.val, h₂.digit.val, h₃.digit.val, h₄.digit.val] := by
    simp only [List.mapM_cons, List.mapM_nil, hexValue_byte]
    rfl
  have hnumber : [h₁.digit.val, h₂.digit.val, h₃.digit.val, h₄.digit.val].foldl
      (fun value h => value * 16 + h) 0 = hexNumber h₁ h₂ h₃ h₄ := by
    simp only [List.foldl_cons, List.foldl_nil, hexNumber, Nat.zero_mul, Nat.zero_add]
  rw [unicodeEscape, hvalues]
  simp only [hnumber]
  rw [if_neg (by omega)]

/-- **One character is read**, however it is spelled. -/
theorem stringBody_character (c : Character) (text : Bytes) :
    stringBody (c.text ++ text) = push c.value (stringBody text) := by
  cases c with
  | plain b graphic free =>
    have hquote : b ≠ quote := free.1
    have hback : b ≠ backslash := free.2
    show stringBody (b :: text) = _
    rw [stringBody.eq_def]
    simp only
    rw [if_neg hquote, if_pos hback]
    rfl
  | short s => cases s <;> rfl
  | unicode h₁ h₂ h₃ h₄ isAscii =>
    have hletter : letterEscape 117 = none := by decide
    show stringBody (backslash :: 117 :: h₁.byte :: h₂.byte :: h₃.byte :: h₄.byte :: text) = _
    rw [stringBody.eq_def]
    dsimp only
    rw [if_neg (by decide), if_neg (by decide), hletter]
    dsimp only
    rw [if_neg (by decide), unicodeEscape_digits h₁ h₂ h₃ h₄ isAscii]
    rfl

theorem stringBody_chars (s : Chars) (rest : Bytes) :
    stringBody (s.flatMap Character.text ++ quote :: rest) = .ok (s.value, rest) := by
  induction s with
  | nil =>
    show stringBody (quote :: rest) = _
    rw [stringBody.eq_def]
    simp only [if_true]
    rfl
  | cons c s ih =>
    rw [List.flatMap_cons, List.append_assoc, stringBody_character, ih]
    rfl

theorem gives_chars {ws : Bytes} (hws : Blank ws) (s : Chars) (rest : Bytes) :
    Gives parseString (ws ++ (s.text ++ rest)) s.value rest := by
  have htext : s.text ++ rest = quote :: (s.flatMap Character.text ++ quote :: rest) := by
    rw [Chars.text, List.cons_append, List.append_assoc]
    rfl
  rw [htext]
  refine (gives_skipWs hws (by decide)).bind ((gives_expect blank_nil (by decide)).bind ?_)
  exact congrArg some (stringBody_chars s rest)

/-! ## Numbers -/

/-- The text goes on with what is not part of a number. -/
def Ends (text : Bytes) : Prop :=
  ∃ b rest, text = b :: rest ∧ isDigit b = false ∧ b ≠ 46

theorem ends_of_blanks (ws : Blanks) {b : UInt8} (hb : isDigit b = false) (hpoint : b ≠ 46)
    (rest : Bytes) : Ends (ws.bytes ++ b :: rest) := by
  cases hbytes : ws.bytes with
  | nil => exact ⟨b, rest, rfl, hb, hpoint⟩
  | cons c bytes =>
    have hc := ws.blank c (by rw [hbytes]; exact List.mem_cons_self)
    refine ⟨c, _, rfl, ?_⟩
    rcases hc with rfl | rfl | rfl | rfl <;> decide

theorem dropWhile_digits (d : Digits) (h : ∀ b ∈ text.head?, isDigit b = false) :
    (d.bytes ++ text).dropWhile isDigit = text := by
  rw [List.dropWhile_append_of_pos d.digits]
  cases text with
  | nil => rfl
  | cons b text =>
    exact List.dropWhile_cons_of_neg (by rw [h b rfl]; exact Bool.false_ne_true)

theorem head_exponentText (n : Number) (hrest : Ends rest) :
    ∃ b tail, n.exponentText ++ rest = b :: tail ∧ isDigit b = false ∧ b ≠ 46 := by
  rw [Number.exponentText]
  cases n.exponent with
  | none => exact hrest
  | some e =>
    refine ⟨e.mark, _, rfl, ?_⟩
    rw [Exponent.mark]
    split <;> decide

/-- The first byte of a number. -/
def firstOfNumber (n : Number) : UInt8 :=
  if n.minus then 45 else n.whole.bytes.headD 48

theorem firstOfNumber_spec (n : Number) :
    ∃ tail, n.text = firstOfNumber n :: tail ∧
      (firstOfNumber n = 45 ∨ isDigit (firstOfNumber n) = true) := by
  rw [Number.text, firstOfNumber]
  cases n.minus with
  | true => exact ⟨_, rfl, Or.inl rfl⟩
  | false =>
    cases hbytes : n.whole.bytes with
    | nil => exact absurd hbytes n.whole.nonempty
    | cons b bytes =>
      exact ⟨_, rfl, Or.inr (n.whole.digits b (by rw [hbytes]; exact List.mem_cons_self))⟩

theorem number_byte {b : UInt8} (h : b = 45 ∨ isDigit b = true) :
    isSpace b = false ∧ b ≠ quote ∧ b ≠ 123 ∧ b ≠ 91 ∧ b ≠ 116 ∧ b ≠ 102 ∧ b ≠ 110 ∧ b ≠ 93 ∧
      b ≠ 125 ∧ b ≠ 44 := by
  rcases h with rfl | h
  · decide
  · rw [isDigit, Bool.and_eq_true, decide_eq_true_eq, decide_eq_true_eq] at h
    have hlow : 48 ≤ b.toNat := UInt8.le_iff_toNat_le.mp h.1
    have hhigh : b.toNat ≤ 57 := UInt8.le_iff_toNat_le.mp h.2
    have hne : ∀ c : UInt8, (c.toNat < 48 ∨ 57 < c.toNat) → b ≠ c := by
      rintro c hc rfl
      omega
    refine ⟨?_, hne _ (by decide), hne _ (by decide), hne _ (by decide), hne _ (by decide),
      hne _ (by decide), hne _ (by decide), hne _ (by decide), hne _ (by decide),
      hne _ (by decide)⟩
    rw [isSpace, decide_eq_false (hne 32 (by decide)), Bool.false_or, Bool.and_eq_false_iff]
    refine Or.inr (decide_eq_false fun hle => ?_)
    have := UInt8.le_iff_toNat_le.mp hle
    simp only [UInt8.reduceToNat] at this
    omega

/-- The sign. -/
theorem number_after_sign (n : Number) (rest : Bytes) :
    (if (n.text ++ rest).head? = some 45 then (n.text ++ rest).tail else n.text ++ rest) =
      n.whole.bytes ++ (n.fractionText ++ (n.exponentText ++ rest)) := by
  rw [Number.text]
  cases n.minus with
  | true => simp
  | false =>
    cases hbytes : n.whole.bytes with
    | nil => exact absurd hbytes n.whole.nonempty
    | cons c bytes =>
      have hc := n.whole.digits c (by rw [hbytes]; exact List.mem_cons_self)
      have hminus : c ≠ 45 := by
        rintro rfl
        cases hc
      simp [hminus]

/-- The digits before the point. -/
theorem number_after_whole (n : Number) (hrest : Ends rest) :
    (n.whole.bytes ++ (n.fractionText ++ (n.exponentText ++ rest))).dropWhile isDigit =
      n.fractionText ++ (n.exponentText ++ rest) := by
  obtain ⟨b, tail, hend, hb, -⟩ := head_exponentText n hrest
  refine dropWhile_digits n.whole.toDigits fun c hc => ?_
  rw [hend, Number.fractionText] at hc
  cases hfraction : n.fraction with
  | none =>
    rw [hfraction] at hc
    cases hc
    exact hb
  | some d =>
    rw [hfraction] at hc
    cases hc
    rfl

/-- The point and the digits behind it. -/
theorem number_after_fraction (n : Number) (hrest : Ends rest) :
    (if (n.fractionText ++ (n.exponentText ++ rest)).head? = some 46 then
      (n.fractionText ++ (n.exponentText ++ rest)).tail.dropWhile isDigit
      else n.fractionText ++ (n.exponentText ++ rest)) = n.exponentText ++ rest := by
  obtain ⟨b, tail, hend, hb, hpoint⟩ := head_exponentText n hrest
  rw [hend, Number.fractionText]
  cases n.fraction with
  | none => exact if_neg fun h => hpoint (Option.some.inj h)
  | some d =>
    refine (if_pos rfl).trans (dropWhile_digits d fun c hc => ?_)
    cases hc
    exact hb

/-- **A number is skipped up to its exponent.** -/
theorem gives_skipNumber (n : Number) (hrest : Ends rest) :
    Gives skipNumber (n.text ++ rest) () (n.exponentText ++ rest) := by
  obtain ⟨tail, htext, hfirst⟩ := firstOfNumber_spec n
  have hskip : Gives skipWs (n.text ++ rest) () (n.text ++ rest) := by
    rw [htext]
    exact gives_skipWs blank_nil (number_byte hfirst).1
  refine hskip.bind ?_
  show some (Except.ok ((), _)) = some (Except.ok ((), _))
  beta_reduce
  rw [number_after_sign, number_after_whole n hrest, number_after_fraction n hrest]

/-! ## Loops -/

/-- A byte that closes a list. -/
structure Closes (close : UInt8) : Prop where
  solid : isSpace close = false
  noDigit : isDigit close = false
  noPoint : close ≠ 46
  noComma : close ≠ 44
  noMark : ¬IsMark close

theorem closes_array : Closes 93 := by
  constructor <;> decide

theorem closes_object : Closes 125 := by
  constructor <;> decide

section Items

variable {item : α → Json α} {close b : UInt8} {fuel : ℕ} {before after : Blanks}

/-- An item that the reader is stuck at ends the loop. -/
theorem throws_items (hclose : Closes close) (hb : isSpace b = false) (hne : b ≠ close)
    (hitem : Stuck (item a) (b :: text)) :
    Throws (items close item (fuel + 1) a) (before.bytes ++ b :: text) := by
  refine (gives_skipWs (blank_blanks before) hb).bind_throws ?_
  refine (gives_consume_other blank_nil hb hne).bind_throws ?_
  rcases hitem with hthrows | ⟨a', mark, rest, hgives, hmark⟩
  · exact hthrows.bind
  · have hspace := not_space_of_mark hmark
    have hcomma : mark ≠ 44 := by
      rintro rfl
      rcases hmark with h | h <;> cases h
    have hother : mark ≠ close := by
      rintro rfl
      exact hclose.noMark hmark
    refine hgives.bind_throws ((gives_skipWs blank_nil hspace).bind_throws ?_)
    refine (gives_consume_other blank_nil hspace hcomma).bind_throws ?_
    exact (throws_expect blank_nil hspace hother).bind

/-- An item with others behind it. -/
theorem outcome_items_more {a' : α} {o : Option α} (hb : isSpace b = false) (hne : b ≠ close)
    (hitem : Gives (item a) (b :: text) a' (after.bytes ++ 44 :: mid))
    (hrest : Outcome (items close item fuel a') mid rest o) :
    Outcome (items close item (fuel + 1) a) (before.bytes ++ b :: text) rest o := by
  refine (gives_skipWs (blank_blanks before) hb).outcome ?_
  refine (gives_consume_other blank_nil hb hne).outcome (hitem.outcome ?_)
  refine (gives_skipWs (blank_blanks after) (by decide)).outcome ?_
  exact (gives_consume blank_nil (by decide)).outcome hrest

/-- **A loop over items.** If every item has the outcome that `step` says,
the loop has the outcome of the steps one after the other. -/
theorem outcome_items {σ : Type} {f : σ → Bytes} {step : α → σ → Option α}
    (hclose : Closes close) {slots : List (Slot σ)} (hslots : slots ≠ [])
    (hfuel : slots.length ≤ fuel)
    (hhead : ∀ s ∈ slots, ∃ b text, f s.item = b :: text ∧ isSpace b = false ∧ b ≠ close)
    (hitem : ∀ a, ∀ s ∈ slots, ∀ rest, Ends rest →
      Outcome (item a) (f s.item ++ rest) rest (step a s.item)) (a : α) (rest : Bytes) :
    Outcome (items close item fuel a) (joined f slots ++ close :: rest) rest
      ((slots.map Slot.item).foldlM step a) := by
  induction slots generalizing a fuel with
  | nil => exact absurd rfl hslots
  | cons s slots ih =>
    obtain ⟨fuel, rfl⟩ : ∃ n, fuel = n + 1 := ⟨fuel - 1, by rw [List.length_cons] at hfuel; omega⟩
    obtain ⟨b, text, hbody, hb, hne⟩ := hhead s List.mem_cons_self
    rw [List.map_cons, List.foldlM_cons]
    cases slots with
    | nil =>
      have hfirst := hitem a s List.mem_cons_self _
        (ends_of_blanks s.after hclose.noDigit hclose.noPoint rest)
      rw [hbody, List.cons_append] at hfirst
      rw [joined, hbody]
      simp only [List.append_assoc, List.cons_append]
      cases hstep : step a s.item with
      | none =>
        rw [hstep] at hfirst
        exact Or.inl (throws_items hclose hb hne hfirst)
      | some a' =>
        rw [hstep] at hfirst
        exact gives_items_last (blank_blanks s.before) hb hne hfirst (blank_blanks s.after)
          hclose.solid hclose.noComma
    | cons s' slots =>
      have hfirst := hitem a s List.mem_cons_self _
        (ends_of_blanks s.after (b := 44) (by decide) (by decide)
          (joined f (s' :: slots) ++ close :: rest))
      rw [hbody, List.cons_append] at hfirst
      rw [joined, hbody]
      simp only [List.append_assoc, List.cons_append]
      cases hstep : step a s.item with
      | none =>
        rw [hstep] at hfirst
        exact Or.inl (throws_items hclose hb hne hfirst)
      | some a' =>
        rw [hstep] at hfirst
        refine outcome_items_more hb hne hfirst (ih (List.cons_ne_nil _ _) ?_ ?_ ?_ a')
        · rw [List.length_cons] at hfuel
          omega
        · exact fun t ht => hhead t (List.mem_cons_of_mem _ ht)
        · exact fun a t ht => hitem a t (List.mem_cons_of_mem _ ht)

end Items

/-! ## Values -/

/-- The first byte of a value. -/
def first : Tree .value → UInt8
  | .literal .null => 110
  | .literal .true => 116
  | .literal .false => 102
  | .number n => firstOfNumber n
  | .string _ => 34
  | .emptyArray _ | .array _ => 91
  | .emptyObject _ | .object _ => 123

theorem text_eq_first (v : Tree .value) : ∃ tail, v.text = first v :: tail := by
  match v with
  | .literal .null | .literal .true | .literal .false => exact ⟨_, rfl⟩
  | .number n =>
    obtain ⟨tail, htext, -⟩ := firstOfNumber_spec n
    exact ⟨tail, htext⟩
  | .string s => exact ⟨_, rfl⟩
  | .emptyArray ws | .array es => exact ⟨_, rfl⟩
  | .emptyObject ws | .object ms => exact ⟨_, rfl⟩

/-- A value does not start with a blank, a comma or a closing bracket. -/
theorem first_spec (v : Tree .value) :
    isSpace (first v) = false ∧ first v ≠ 93 ∧ first v ≠ 125 ∧ first v ≠ 44 := by
  match v with
  | .literal .null | .literal .true | .literal .false => decide
  | .number n =>
    obtain ⟨-, -, hfirst⟩ := firstOfNumber_spec n
    obtain ⟨hspace, -, -, -, -, -, -, harray, hobject, hcomma⟩ := number_byte hfirst
    exact ⟨hspace, harray, hobject, hcomma⟩
  | .string s => rw [first]; decide
  | .emptyArray ws | .array es => rw [first]; decide
  | .emptyObject ws | .object ms => rw [first]; decide

/-- A list of items is at least as long as there are items, and as each of
them is. -/
theorem length_joined {σ : Type} {f : σ → Bytes} {slots : List (Slot σ)}
    (h : ∀ s ∈ slots, f s.item ≠ []) : slots.length ≤ (joined f slots).length ∧
      ∀ s ∈ slots, (f s.item).length ≤ (joined f slots).length := by
  induction slots with
  | nil => exact ⟨Nat.le_refl _, fun s hs => absurd hs List.not_mem_nil⟩
  | cons s slots ih =>
    have hpos := List.length_pos_of_ne_nil (h s List.mem_cons_self)
    by_cases hslots : slots = []
    · subst hslots
      simp only [joined, List.length_append, List.length_cons, List.length_nil, List.mem_singleton,
        forall_eq]
      omega
    · obtain ⟨hlength, hitem⟩ := ih fun t ht => h t (List.mem_cons_of_mem _ ht)
      rw [joined_cons _ _ hslots]
      simp only [List.length_append, List.length_cons]
      refine ⟨by omega, fun t ht => ?_⟩
      rcases List.mem_cons.mp ht with rfl | ht
      · omega
      · have := hitem t ht
        omega

theorem text_ne_nil (v : Tree .value) : v.text ≠ [] := by
  obtain ⟨tail, htext⟩ := text_eq_first v
  rw [htext]
  exact List.cons_ne_nil _ _

theorem memberText_ne_nil (m : Member) : m.text ≠ [] := List.cons_ne_nil _ _

theorem length_value_le (m : Member) : m.value.text.length + 3 ≤ m.text.length := by
  simp only [Member.text, memberText, Chars.text, List.length_append, List.length_cons]
  omega

/-- **A string, or no string.** -/
theorem outcome_parseString {ws : Bytes} (hws : Blank ws) (v : Tree .value) (rest : Bytes) :
    Outcome parseString (ws ++ (v.text ++ rest)) rest v.string? := by
  have hother : first v ≠ quote → Stuck parseString (ws ++ (v.text ++ rest)) := by
    intro hne
    obtain ⟨tail, htext⟩ := text_eq_first v
    have hspace := (first_spec v).1
    rw [htext]
    refine Or.inl ((gives_skipWs hws hspace).bind_throws ?_)
    exact (throws_expect blank_nil hspace hne).bind
  match v with
  | .literal .null | .literal .true | .literal .false => exact hother (by rw [first]; decide)
  | .number n =>
    obtain ⟨-, -, hfirst⟩ := firstOfNumber_spec n
    exact hother (number_byte hfirst).2.1
  | .string s => exact gives_chars hws s rest
  | .emptyArray ws | .array es => exact hother (by rw [first]; decide)
  | .emptyObject ws | .object ms => exact hother (by rw [first]; decide)

/-- Items are not read of a value that begins with another byte. -/
theorem stuck_of_first {item : α → Json α} {opening close : UInt8} {fuel : ℕ} {a : α} {ws : Bytes}
    (hws : Blank ws) {v : Tree .value} (hne : first v ≠ opening) (rest : Bytes) :
    Stuck (do
      expect opening
      items close item fuel a) (ws ++ (v.text ++ rest)) := by
  obtain ⟨tail, htext⟩ := text_eq_first v
  rw [htext]
  exact Or.inl (throws_expect hws (first_spec v).1 hne).bind

/-- **The elements of an array**, or no array. -/
theorem outcome_elements {item : α → Json α} {step : α → Tree .value → Option α} {fuel : ℕ}
    {ws : Bytes} (hws : Blank ws) (v : Tree .value) (hfuel : v.text.length ≤ fuel)
    (hitem : ∀ es, v = .array es → ∀ s ∈ es.elementSlots, s.item.text.length + 2 ≤ v.text.length →
      ∀ a rest, Ends rest → Outcome (item a) (s.item.text ++ rest) rest (step a s.item))
    (a : α) (rest : Bytes) :
    Outcome (do
      expect 91
      items 93 item fuel a) (ws ++ (v.text ++ rest)) rest (v.elements?.bind (·.foldlM step a)) := by
  match v with
  | .literal .null | .literal .true | .literal .false =>
    exact stuck_of_first hws (by rw [first]; decide) rest
  | .number n =>
    obtain ⟨-, -, hfirst⟩ := firstOfNumber_spec n
    exact stuck_of_first (v := .number n) hws (number_byte hfirst).2.2.2.1 rest
  | .string s => exact stuck_of_first hws (by rw [first]; decide) rest
  | .emptyObject ws | .object ms => exact stuck_of_first hws (by rw [first]; decide) rest
  | .emptyArray blanks =>
    obtain ⟨fuel, rfl⟩ : ∃ n, fuel = n + 1 :=
      ⟨fuel - 1, by rw [Tree.text, List.length_cons] at hfuel; omega⟩
    rw [Tree.text, List.cons_append, List.append_assoc]
    refine (gives_expect hws (by decide)).outcome ?_
    exact gives_items_close (blank_blanks blanks) (by decide)
  | .array es =>
    have hne : ∀ s ∈ es.elementSlots, s.item.text ≠ [] := fun s _ => text_ne_nil s.item
    have hlength := length_joined hne
    have htext : (Tree.array es).text = 91 :: (joined Tree.text es.elementSlots ++ [93]) := by
      rw [Tree.text, text_elements]
    rw [htext] at hitem hfuel ⊢
    rw [List.length_cons, List.length_append, List.length_singleton] at hitem hfuel
    rw [List.cons_append, List.append_assoc]
    refine (gives_expect hws (by decide)).outcome ?_
    refine outcome_items closes_array (elementSlots_ne_nil es) (by omega) ?_ ?_ a rest
    · intro s _
      obtain ⟨tail, htext⟩ := text_eq_first s.item
      exact ⟨_, tail, htext, (first_spec s.item).1, (first_spec s.item).2.1⟩
    · intro a s hs rest hends
      have := hlength.2 s hs
      exact hitem es rfl s hs (by omega) a rest hends

/-- **The members of an object**, or no object. -/
theorem outcome_members {item : α → Json α} {step : α → Bytes × Tree .value → Option α} {fuel : ℕ}
    {ws : Bytes} (hws : Blank ws) (v : Tree .value) (hfuel : v.text.length ≤ fuel)
    (hitem : ∀ ms, v = .object ms → ∀ s ∈ ms.memberSlots,
      s.item.value.text.length + 2 ≤ v.text.length → ∀ a rest, Ends rest →
        Outcome (item a) (s.item.text ++ rest) rest (step a (s.item.key.value, s.item.value)))
    (a : α) (rest : Bytes) :
    Outcome (do
      expect 123
      items 125 item fuel a) (ws ++ (v.text ++ rest)) rest (v.fields?.bind (·.foldlM step a)) := by
  match v with
  | .literal .null | .literal .true | .literal .false =>
    exact stuck_of_first hws (by rw [first]; decide) rest
  | .number n =>
    obtain ⟨-, -, hfirst⟩ := firstOfNumber_spec n
    exact stuck_of_first (v := .number n) hws (number_byte hfirst).2.2.1 rest
  | .string s => exact stuck_of_first hws (by rw [first]; decide) rest
  | .emptyArray ws | .array es => exact stuck_of_first hws (by rw [first]; decide) rest
  | .emptyObject blanks =>
    obtain ⟨fuel, rfl⟩ : ∃ n, fuel = n + 1 :=
      ⟨fuel - 1, by rw [Tree.text, List.length_cons] at hfuel; omega⟩
    rw [Tree.text, List.cons_append, List.append_assoc]
    refine (gives_expect hws (by decide)).outcome ?_
    exact gives_items_close (blank_blanks blanks) (by decide)
  | .object ms =>
    have hne : ∀ s ∈ ms.memberSlots, s.item.text ≠ [] := fun s _ => memberText_ne_nil s.item
    have hlength := length_joined hne
    have htext : (Tree.object ms).text = 123 :: (joined Member.text ms.memberSlots ++ [125]) := by
      rw [Tree.text, text_members]
    have hfold : (Tree.object ms).fields?.bind (·.foldlM step a) =
        (ms.memberSlots.map Slot.item).foldlM
          (fun a (m : Member) => step a (m.key.value, m.value)) a := by
      rw [Tree.fields?, Option.bind_some, List.foldlM_map, List.foldlM_map]
    rw [hfold]
    rw [htext] at hitem hfuel ⊢
    rw [List.length_cons, List.length_append, List.length_singleton] at hitem hfuel
    rw [List.cons_append, List.append_assoc]
    refine (gives_expect hws (by decide)).outcome ?_
    refine outcome_items closes_object (memberSlots_ne_nil ms) (by omega) ?_ ?_ a rest
    · intro s _
      exact ⟨34, _, rfl, by decide, by decide⟩
    · intro a s hs rest hends
      have := hlength.2 s hs
      have := length_value_le s.item
      exact hitem ms rfl s hs (by omega) a rest hends

/-- A key, the colon behind it, and what stands after it. -/
theorem outcome_member {f : Bytes → Json β} {m : Member} {o : Option β}
    (h : Outcome (f m.key.value) (m.afterColon.bytes ++ (m.value.text ++ rest)) rest o) :
    Outcome (do
      let key ← parseString
      skipWs
      expect 58
      f key) (m.text ++ rest) rest o := by
  have htext : m.text ++ rest = m.key.text ++ (m.beforeColon.bytes ++
      58 :: (m.afterColon.bytes ++ (m.value.text ++ rest))) := by
    simp only [Member.text, memberText, List.append_assoc, List.cons_append]
  rw [htext]
  refine (gives_chars blank_nil m.key _).outcome ?_
  refine (gives_skipWs (blank_blanks m.beforeColon) (by decide)).outcome ?_
  exact (gives_expect blank_nil (by decide)).outcome h

/-! ## What is skipped -/

/-- A value is skipped exactly without exponents. -/
def skips (v : Tree .value) : Option Unit :=
  if v.exponentFree then some () else none

theorem foldlM_skips {σ : Type} (value : σ → Tree .value) (items : List σ) :
    items.foldlM (fun _ s => skips (value s)) () =
      if ∀ s ∈ items, (value s).exponentFree = true then some () else none := by
  induction items with
  | nil => rfl
  | cons s items ih =>
    rw [List.foldlM_cons, skips]
    split
    · next hfree =>
      refine ih.trans (if_congr ?_ rfl rfl)
      rw [List.forall_mem_cons, and_iff_right hfree]
    · next hfree =>
      rw [if_neg fun h => hfree (h s List.mem_cons_self)]
      rfl

theorem skips_array (es : Tree .elements) :
    skips (.array es) = (Tree.array es).elements?.bind (·.foldlM (fun _ v => skips v) ()) := by
  rw [Tree.elements?, Option.bind_some, List.foldlM_map, skips, Tree.exponentFree]
  refine Eq.trans ?_ (foldlM_skips (fun s : Slot (Tree .value) => s.item) es.elementSlots).symm
  exact if_congr (exponentFree_elements es) rfl rfl

theorem skips_object (ms : Tree .members) :
    skips (.object ms) = (Tree.object ms).fields?.bind (·.foldlM (fun _ m => skips m.2) ()) := by
  rw [Tree.fields?, Option.bind_some, List.foldlM_map, skips, Tree.exponentFree]
  refine Eq.trans ?_ (foldlM_skips (fun s : Slot Member => s.item.value) ms.memberSlots).symm
  exact if_congr (exponentFree_members ms) rfl rfl

/-- A number is skipped whole, or its exponent is left. -/
theorem outcome_skipNumber (n : Number) (hrest : Ends rest) :
    Outcome skipNumber (n.text ++ rest) rest (skips (.number n)) := by
  have hgives := gives_skipNumber n hrest
  rw [Number.exponentText] at hgives
  rw [skips, Tree.exponentFree]
  cases hexponent : n.exponent with
  | none =>
    rw [hexponent] at hgives
    exact hgives
  | some e =>
    rw [hexponent] at hgives
    refine Or.inr ⟨_, _, _, hgives, ?_⟩
    rw [Exponent.mark, IsMark]
    split
    · exact Or.inr rfl
    · exact Or.inl rfl

/-- **What it does not know it skips**, up to an exponent. The fuel is the
length of the text. -/
theorem outcome_skipValue (v : Tree .value) : ∀ {fuel : ℕ} {ws rest : Bytes},
    v.text.length < fuel → Blank ws → Ends rest →
      Outcome (skipValue fuel) (ws ++ (v.text ++ rest)) rest (skips v) := by
  induction v using Tree.value_induction with
  | literal l =>
    rintro (_ | fuel) ws rest hfuel hws -
    · exact absurd hfuel (Nat.not_lt_zero _)
    · cases l <;> exact (gives_skipWs hws (by decide)).bind rfl
  | number n =>
    rintro (_ | fuel) ws rest hfuel hws hrest
    · exact absurd hfuel (Nat.not_lt_zero _)
    · obtain ⟨tail, htext, hfirst⟩ := firstOfNumber_spec n
      obtain ⟨hspace, hquote, hobject, harray, ht, hf, hn, -⟩ := number_byte hfirst
      have hnumber := outcome_skipNumber n hrest
      rw [Tree.text]
      rw [htext, List.cons_append] at hnumber ⊢
      refine (gives_skipWs hws hspace).outcome ?_
      show Outcome (if firstOfNumber n = quote then _ else _ : Json Unit) _ _ _
      rw [if_neg hquote, if_neg hobject, if_neg harray, if_neg ht, if_neg hf, if_neg hn,
        if_pos hfirst]
      exact hnumber
  | string s =>
    rintro (_ | fuel) ws rest hfuel hws -
    · exact absurd hfuel (Nat.not_lt_zero _)
    · refine (gives_skipWs hws (by decide)).bind ?_
      show Gives (parseString >>= fun _ => pure ()) ([] ++ (s.text ++ rest)) () rest
      exact (gives_chars blank_nil s rest).bind (gives_pure () rest)
  | emptyArray blanks =>
    rintro (_ | fuel) ws rest hfuel hws -
    · exact absurd hfuel (Nat.not_lt_zero _)
    · refine (gives_skipWs hws (by decide)).outcome ?_
      exact @outcome_elements _ _ (fun _ v => skips v) _ _ blank_nil (.emptyArray blanks)
        (Nat.le_of_lt_succ hfuel) (fun es h => by cases h) () rest
  | array es ih =>
    rintro (_ | fuel) ws rest hfuel hws -
    · exact absurd hfuel (Nat.not_lt_zero _)
    · refine (gives_skipWs hws (by decide)).outcome ?_
      rw [skips_array]
      refine outcome_elements blank_nil (.array es) (Nat.le_of_lt_succ hfuel) ?_ () rest
      intro es' h s hs hlength _ rest hends
      cases h
      exact ih s hs (by omega) blank_nil hends
  | emptyObject blanks =>
    rintro (_ | fuel) ws rest hfuel hws -
    · exact absurd hfuel (Nat.not_lt_zero _)
    · refine (gives_skipWs hws (by decide)).outcome ?_
      exact @outcome_members _ _ (fun _ m => skips m.2) _ _ blank_nil (.emptyObject blanks)
        (Nat.le_of_lt_succ hfuel) (fun ms h => by cases h) () rest
  | object ms ih =>
    rintro (_ | fuel) ws rest hfuel hws -
    · exact absurd hfuel (Nat.not_lt_zero _)
    · refine (gives_skipWs hws (by decide)).outcome ?_
      rw [skips_object]
      refine outcome_members blank_nil (.object ms) (Nat.le_of_lt_succ hfuel) ?_ () rest
      intro ms' h s hs hlength _ rest hends
      cases h
      exact outcome_member (ih s hs (by omega) (blank_blanks _) hends)

/-! ## The registry -/

/-- What a member does to an instance. -/
def memberStep (env : Env) (entry : Entry) (field : Bytes × Tree .value) : Option Entry :=
  if field.1 = ascii "name" then field.2.string?.map fun name => { entry with name }
  else if field.1 = ascii "root" then
    field.2.string?.bind fun spec =>
      (expandUserPath env spec).toOption.map fun root => { entry with root }
  else (skips field.2).map fun _ => entry

/-- The entry that an instance is read as. -/
def readInstance (env : Env) (v : Tree .value) : Option Entry :=
  v.fields?.bind (·.foldlM (memberStep env) ⟨[], ⟨false, []⟩⟩)

/-- The entries that the instances are read as. -/
def readInstances (env : Env) (v : Tree .value) : Option (List Entry) :=
  v.elements?.bind (·.foldlM
    (fun entries v => (readInstance env v).map fun entry => entries ++ [entry]) [])

/-- What a member does to the registry. -/
def registryStep (env : Env) (entries : List Entry) (field : Bytes × Tree .value) :
    Option (List Entry) :=
  if field.1 = ascii "instances" then readInstances env field.2
  else (skips field.2).map fun _ => entries

/-- The entries that the registry is read as, or none if it is not read. -/
def readRegistry (env : Env) (v : Tree .value) : Option (List Entry) :=
  v.fields?.bind (·.foldlM (registryStep env) [])

section Registry

variable {env : Env} {fuel : ℕ}

theorem outcome_skipMember {m : Member} (hfuel : m.value.text.length < fuel) (a : α)
    (hends : Ends rest) :
    Outcome (do
      skipValue fuel
      return a) (m.afterColon.bytes ++ (m.value.text ++ rest)) rest
      ((skips m.value).map fun _ => a) :=
  (outcome_skipValue m.value hfuel (blank_blanks m.afterColon) hends).map fun _ => a

theorem outcome_parseMember (entry : Entry) {m : Member} (hfuel : m.value.text.length < fuel)
    (hends : Ends rest) :
    Outcome (parseMember env fuel entry) (m.text ++ rest) rest
      (memberStep env entry (m.key.value, m.value)) := by
  refine outcome_member ?_
  have hstring := outcome_parseString (blank_blanks m.afterColon) m.value rest
  rw [memberStep]
  dsimp only
  split
  · exact hstring.map fun name => { entry with name }
  split
  · refine hstring.bind (fun spec => ?_) fun spec b rest hmark => ?_
    · cases expandUserPath env spec with
      | ok root => exact gives_pure _ rest
      | error message => exact Or.inl ⟨message, rfl⟩
    · cases expandUserPath env spec with
      | ok root => exact Or.inr ⟨_, b, rest, gives_pure _ _, hmark⟩
      | error message => exact Or.inl ⟨message, rfl⟩
  · exact outcome_skipMember hfuel entry hends

theorem outcome_parseInstance {ws : Bytes} (hws : Blank ws) (v : Tree .value)
    (hfuel : v.text.length ≤ fuel) (rest : Bytes) :
    Outcome (parseInstance env fuel) (ws ++ (v.text ++ rest)) rest (readInstance env v) := by
  refine outcome_members hws v hfuel ?_ _ rest
  intro ms _ s _ hlength entry rest hends
  exact outcome_parseMember entry (by omega) hends

theorem outcome_parseInstances {ws : Bytes} (hws : Blank ws) (v : Tree .value)
    (hfuel : v.text.length ≤ fuel) (rest : Bytes) :
    Outcome (parseInstances env fuel) (ws ++ (v.text ++ rest)) rest (readInstances env v) := by
  refine outcome_elements hws v hfuel ?_ [] rest
  intro es _ s _ hlength entries rest _
  exact (outcome_parseInstance blank_nil s.item (by omega) rest).map fun entry => entries ++ [entry]

theorem outcome_registryMember (entries : List Entry) {m : Member}
    (hfuel : m.value.text.length < fuel) (hends : Ends rest) :
    Outcome (registryMember env fuel entries) (m.text ++ rest) rest
      (registryStep env entries (m.key.value, m.value)) := by
  refine outcome_member ?_
  obtain ⟨tail, htext⟩ := text_eq_first m.value
  have hskip : Gives skipWs (m.afterColon.bytes ++ (m.value.text ++ rest)) ()
      (m.value.text ++ rest) := by
    rw [htext]
    exact gives_skipWs (blank_blanks m.afterColon) (first_spec m.value).1
  refine hskip.outcome ?_
  rw [registryStep]
  dsimp only
  split
  · exact outcome_parseInstances blank_nil m.value (Nat.le_of_lt hfuel) rest
  · exact (outcome_skipValue m.value hfuel blank_nil hends).map fun _ => entries

/-- What stands behind the registry may only be blank. -/
theorem gives_trailing (after : Blanks) (entries : List Entry) :
    Gives (do
      skipWs
      if (← get) ≠ [] then throw (ascii "unexpected trailing JSON data")
      return entries) after.bytes entries [] := by
  have hblank : after.bytes.dropWhile isSpace = [] :=
    List.dropWhile_eq_nil_iff.mpr (blank_blanks after)
  have hskip : Gives skipWs after.bytes () [] :=
    congrArg (fun text => some (Except.ok ((), text))) hblank
  exact hskip.bind rfl

/-- **What becomes of a document.** The reader comes to the entries that
are read off the tree, or it is stuck. -/
theorem outcome_parseRegistry (d : Document) (hfuel : d.value.text.length ≤ fuel) :
    Outcome (parseRegistry env fuel) d.text [] (readRegistry env d.value) := by
  obtain ⟨tail, htext⟩ := text_eq_first d.value
  have hskip : Gives skipWs d.text () (d.value.text ++ d.after.bytes) := by
    rw [Document.text, htext]
    exact gives_skipWs (blank_blanks d.before) (first_spec d.value).1
  refine hskip.outcome ?_
  have hmembers := @outcome_members _ (registryMember env fuel) (registryStep env) _ _
    blank_nil d.value hfuel (fun ms _ s _ hlength entries rest hends =>
      outcome_registryMember entries (by omega) hends) [] d.after.bytes
  have hbind := hmembers.bind (g := some) (fun entries => gives_trailing d.after entries)
    fun entries b rest hmark => Or.inl
      ((gives_skipWs blank_nil (not_space_of_mark hmark)).bind_throws
        ⟨ascii "unexpected trailing JSON data", rfl⟩)
  rw [bind_assoc, Option.bind_fun_some] at hbind
  exact hbind

end Registry

/-! ## Fuel -/

/-- Where the one comes to a result, the other comes to the same. -/
def Refines (x y : Json α) : Prop :=
  ∀ text r, (x text).run = some r → (y text).run = some r

theorem Refines.refl : Refines x x := fun _ _ h => h

theorem Refines.none : Refines (fun _ => ExceptT.mk none : Json α) x := by
  rintro text r h
  cases h

theorem Refines.bind {x' : Json α} {f' : α → Json β} (hx : Refines x x')
    (hf : ∀ a, Refines (f a) (f' a)) : Refines (x >>= f) (x' >>= f') := by
  intro text r h
  rw [run_bind] at h
  rw [run_bind]
  cases hrun : (x text).run with
  | none =>
    rw [hrun] at h
    cases h
  | some result =>
    rw [hx text result hrun]
    rw [hrun] at h
    cases result with
    | error message => exact h
    | ok p => exact hf p.1 p.2 r h

theorem Refines.ite {c : Prop} [Decidable c] {x x' y y' : Json α} (hx : Refines x x')
    (hy : Refines y y') : Refines (if c then x else y) (if c then x' else y') := by
  split
  · exact hx
  · exact hy

theorem items_refines {close : UInt8} {item item' : α → Json α}
    (h : ∀ a, Refines (item a) (item' a)) {n m : ℕ} (hle : n ≤ m) (a : α) :
    Refines (items close item n a) (items close item' m a) := by
  induction n generalizing m a with
  | zero => exact Refines.none
  | succ n ih =>
    obtain ⟨m, rfl⟩ : ∃ k, m = k + 1 := ⟨m - 1, by omega⟩
    refine Refines.refl.bind fun _ => Refines.refl.bind fun closed => ?_
    refine Refines.ite Refines.refl ((h a).bind fun a' => Refines.refl.bind fun _ => ?_)
    exact Refines.refl.bind fun more => Refines.ite (ih (by omega) a') Refines.refl

theorem skipValue_refines {n m : ℕ} (hle : n ≤ m) : Refines (skipValue n) (skipValue m) := by
  induction n generalizing m with
  | zero => exact Refines.none
  | succ n ih =>
    obtain ⟨m, rfl⟩ : ∃ k, m = k + 1 := ⟨m - 1, by omega⟩
    have hle : n ≤ m := by omega
    refine Refines.refl.bind fun _ => Refines.refl.bind fun text => ?_
    cases text.head? with
    | none => exact Refines.refl
    | some c =>
      refine Refines.ite Refines.refl (Refines.ite ?_ (Refines.ite ?_ Refines.refl))
      · refine Refines.refl.bind fun _ => items_refines (fun _ => ?_) hle ()
        refine Refines.refl.bind fun _ => Refines.refl.bind fun _ => ?_
        exact Refines.refl.bind fun _ => ih hle
      · exact Refines.refl.bind fun _ => items_refines (fun _ => ih hle) hle ()

theorem parseMember_refines (env : Env) {n m : ℕ} (hle : n ≤ m) (entry : Entry) :
    Refines (parseMember env n entry) (parseMember env m entry) := by
  refine Refines.refl.bind fun key => Refines.refl.bind fun _ => Refines.refl.bind fun _ => ?_
  refine Refines.ite Refines.refl (Refines.ite Refines.refl ?_)
  exact (skipValue_refines hle).bind fun _ => Refines.refl

theorem parseInstances_refines (env : Env) {n m : ℕ} (hle : n ≤ m) :
    Refines (parseInstances env n) (parseInstances env m) := by
  refine Refines.refl.bind fun _ => items_refines (fun entries => ?_) hle []
  refine Refines.bind ?_ fun _ => Refines.refl
  exact Refines.refl.bind fun _ => items_refines (parseMember_refines env hle) hle _

theorem registryMember_refines (env : Env) {n m : ℕ} (hle : n ≤ m) (entries : List Entry) :
    Refines (registryMember env n entries) (registryMember env m entries) := by
  refine Refines.refl.bind fun key => Refines.refl.bind fun _ => Refines.refl.bind fun _ => ?_
  refine Refines.refl.bind fun _ => Refines.ite (parseInstances_refines env hle) ?_
  exact (skipValue_refines hle).bind fun _ => Refines.refl

/-- **More fuel changes nothing.** -/
theorem parseRegistry_refines (env : Env) {n m : ℕ} (hle : n ≤ m) :
    Refines (parseRegistry env n) (parseRegistry env m) := by
  refine Refines.refl.bind fun _ => Refines.refl.bind fun _ => ?_
  exact (items_refines (registryMember_refines env hle) hle []).bind fun _ => Refines.refl

/-- **The reader is a function of the tree.** -/
theorem parseRegistry_iff {env : Env} {entries : List Entry} (d : Document) :
    (∃ fuel, Gives (parseRegistry env fuel) d.text entries []) ↔
      readRegistry env d.value = some entries := by
  have houtcome : ∀ {fuel}, d.value.text.length ≤ fuel →
      Outcome (parseRegistry env fuel) d.text [] (readRegistry env d.value) :=
    outcome_parseRegistry d
  constructor
  · rintro ⟨fuel, hgives⟩
    have hmore : Gives (parseRegistry env (max fuel d.value.text.length)) d.text entries [] :=
      parseRegistry_refines env (le_max_left _ _) _ _ hgives
    have hread := houtcome (le_max_right fuel d.value.text.length)
    unfold Gives at hmore
    cases hregistry : readRegistry env d.value with
    | some entries' =>
      rw [hregistry, Outcome, Gives, hmore] at hread
      cases hread
      rfl
    | none =>
      rw [hregistry] at hread
      rcases hread with ⟨message, hthrows⟩ | ⟨a, b, rest, hgives, -⟩
      · rw [hmore] at hthrows
        cases hthrows
      · rw [Gives, hmore] at hgives
        cases hgives
  · intro hregistry
    have hread := houtcome le_rfl
    rw [hregistry] at hread
    exact ⟨_, hread⟩

/-! ## Registries -/

/-- The name and the root of an instance. -/
def pairOf (v : Tree .value) : Option (Bytes × Bytes) := do
  let fields ← v.fields?
  let name ← (← fields.lookup (ascii "name")).string?
  let root ← (← fields.lookup (ascii "root")).string?
  return (name, root)

/-- The names and roots of the instances, if the document has an array of
objects with both. -/
def pairsOf (v : Tree .value) : Option (List (Bytes × Bytes)) := do
  let fields ← v.fields?
  let instances ← (← fields.lookup (ascii "instances")).elements?
  instances.mapM pairOf

/-- An entry has the name and the root of a pair. -/
def Agrees (env : Env) (entry : Entry) (pair : Bytes × Bytes) : Prop :=
  entry.name = pair.1 ∧ expandUserPath env pair.2 = .ok entry.root

/-- A registry is read as its names and roots, in order. -/
def ReadsAs (env : Env) (d : Document) (pairs : List (Bytes × Bytes)) : Prop :=
  ∃ entries : List Entry,
    List.Forall₂ (Agrees env) entries pairs ∧
      ∃ fuel, Gives (parseRegistry env fuel) d.text entries []

section Reads

variable {env : Env} {v : Tree .value} {key : Bytes} {field : Bytes × Tree .value}
  {fields : List (Bytes × Tree .value)}

theorem lookup_head (h : field.1 = key) : (field :: fields).lookup key = some field.2 := by
  rw [List.lookup_cons, ← h, beq_self_eq_true]

theorem lookup_tail (h : field.1 ≠ key) : (field :: fields).lookup key = fields.lookup key := by
  rw [List.lookup_cons, beq_false_of_ne (Ne.symm h)]

theorem lookup_eq_none (h : key ∉ fields.map Prod.fst) : fields.lookup key = none := by
  rw [List.lookup_eq_none_iff]
  intro f hf
  refine bne_iff_ne.mpr fun hkey => h ?_
  rw [hkey]
  exact List.mem_map_of_mem hf

theorem mem_of_lookup (h : fields.lookup key = some v) : (key, v) ∈ fields := by
  obtain ⟨before, after, hfields, -⟩ := List.lookup_eq_some_iff.mp h
  rw [hfields]
  exact List.mem_append_right _ List.mem_cons_self

theorem lookup_of_mem (hnodup : (fields.map Prod.fst).Nodup) (h : field ∈ fields) :
    fields.lookup field.1 = some field.2 := by
  induction fields with
  | nil => exact absurd h List.not_mem_nil
  | cons f fields ih =>
    rw [List.map_cons, List.nodup_cons] at hnodup
    rcases List.mem_cons.mp h with rfl | h
    · exact lookup_head rfl
    · have hkey : f.1 ≠ field.1 := by
        intro hkey
        rw [hkey] at hnodup
        exact hnodup.1 (List.mem_map_of_mem h)
      rw [lookup_tail hkey, ih hnodup.2 h]

/-- A member that is a string has no exponent. -/
theorem exponentFree_of_lookup (hnodup : (fields.map Prod.fst).Nodup) {s : Bytes}
    (hlookup : fields.lookup key = some v) (hstring : v.string? = some s) (h : field ∈ fields)
    (hkey : field.1 = key) : field.2.exponentFree = true := by
  have hvalue := lookup_of_mem hnodup h
  rw [hkey, hlookup] at hvalue
  rw [← Option.some.inj hvalue]
  exact exponentFree_of_string hstring

/-- The path a root stands for. -/
def rootOf (env : Env) (v : Tree .value) : Option Path :=
  v.string?.bind fun spec => (expandUserPath env spec).toOption

/-- **What the members make of an instance.** The name and the root are
those of the one member of that key; every other member is skipped. -/
theorem memberSteps_iff (hnodup : (fields.map Prod.fst).Nodup) (entry entry' : Entry) :
    fields.foldlM (memberStep env) entry = some entry' ↔
      (∀ f ∈ fields, f.1 ≠ ascii "name" → f.1 ≠ ascii "root" → f.2.exponentFree = true) ∧
      (fields.lookup (ascii "name")).elim (some entry.name) Tree.string? = some entry'.name ∧
      (fields.lookup (ascii "root")).elim (some entry.root) (rootOf env) = some entry'.root := by
  have hkeys : ascii "name" ≠ ascii "root" := by decide
  induction fields generalizing entry with
  | nil =>
    obtain ⟨name, root⟩ := entry
    obtain ⟨name', root'⟩ := entry'
    simp
  | cons f fields ih =>
    rw [List.map_cons, List.nodup_cons] at hnodup
    rw [List.foldlM_cons, List.forall_mem_cons, memberStep]
    by_cases hname : f.1 = ascii "name"
    · have hroot : f.1 ≠ ascii "root" := by rw [hname]; exact hkeys
      have hnone : fields.lookup (ascii "name") = none := lookup_eq_none (hname ▸ hnodup.1)
      rw [if_pos hname, lookup_head hname, lookup_tail hroot]
      cases hstring : f.2.string? with
      | none => simp [hstring]
      | some name => simp [hstring, ih hnodup.2, hnone, hname]
    by_cases hroot : f.1 = ascii "root"
    · have hnone : fields.lookup (ascii "root") = none := lookup_eq_none (hroot ▸ hnodup.1)
      rw [if_neg hname, if_pos hroot, lookup_tail hname, lookup_head hroot]
      cases hstring : f.2.string? with
      | none => simp [hstring, rootOf]
      | some spec =>
        cases hpath : expandUserPath env spec with
        | error message => simp [hstring, hpath, rootOf, Except.toOption]
        | ok path => simp [hstring, hpath, rootOf, Except.toOption, ih hnodup.2, hnone, hroot]
    · rw [if_neg hname, if_neg hroot, lookup_tail hname, lookup_tail hroot]
      rw [skips]
      split
      · next hfree => simp [ih hnodup.2, hname, hroot, hfree]
      · next hfree => simp [hname, hroot, hfree]

/-- **One instance.** With a name and a root, it is read as those, exactly
without exponents and with a root that stands for a path. -/
theorem readInstance_iff (hdistinct : v.Distinct) {pair : Bytes × Bytes}
    (hpair : pairOf v = some pair) (entry : Entry) :
    readInstance env v = some entry ↔
      v.exponentFree = true ∧ entry.name = pair.1 ∧ expandUserPath env pair.2 = .ok entry.root := by
  obtain ⟨fields, hfields, hpair⟩ := Option.bind_eq_some_iff.mp hpair
  obtain ⟨nameValue, hname, hpair⟩ := Option.bind_eq_some_iff.mp hpair
  obtain ⟨name, hnameString, hpair⟩ := Option.bind_eq_some_iff.mp hpair
  obtain ⟨rootValue, hroot, hpair⟩ := Option.bind_eq_some_iff.mp hpair
  obtain ⟨root, hrootString, hpair⟩ := Option.bind_eq_some_iff.mp hpair
  cases hpair
  obtain ⟨hnodup, -⟩ := hdistinct.fields hfields
  rw [readInstance, hfields, Option.bind_some, memberSteps_iff hnodup, hname, hroot,
    fields_exponentFree hfields, Option.elim_some, Option.elim_some, hnameString, rootOf,
    hrootString, Option.bind_some]
  -- the name and the root are strings, and a string has no exponent
  have hfree : (∀ f ∈ fields, f.2.exponentFree = true) ↔ ∀ f ∈ fields, f.1 ≠ ascii "name" →
      f.1 ≠ ascii "root" → f.2.exponentFree = true := by
    constructor
    · exact fun h f hf _ _ => h f hf
    · intro h f hf
      by_cases hkey : f.1 = ascii "name"
      · exact exponentFree_of_lookup hnodup hname hnameString hf hkey
      by_cases hkey' : f.1 = ascii "root"
      · exact exponentFree_of_lookup hnodup hroot hrootString hf hkey'
      · exact h f hf hkey hkey'
  rw [hfree]
  cases expandUserPath env root with
  | error message => simp [Except.toOption]
  | ok path =>
    simp only [Except.toOption, Option.some.injEq, Except.ok.injEq]
    exact and_congr_right' (and_congr_left' eq_comm)

/-- The entries are put one behind the other. -/
theorem foldlM_append {σ : Type} (g : σ → Option α) (items : List σ) (before : List α) :
    items.foldlM (fun entries s => (g s).map fun entry => entries ++ [entry]) before =
      (items.mapM g).map (before ++ ·) := by
  induction items generalizing before with
  | nil => simp
  | cons s items ih =>
    rw [List.foldlM_cons, List.mapM_cons]
    cases hs : g s with
    | none => rfl
    | some entry =>
      refine (ih (before ++ [entry])).trans ?_
      cases hrest : items.mapM g with
      | none => rfl
      | some entries => simp

/-- **All instances.** -/
theorem readInstances_iff {instances : List (Tree .value)} {pairs : List (Bytes × Bytes)}
    (hinstances : v.elements? = some instances) (hdistinct : v.Distinct)
    (hpairs : instances.mapM pairOf = some pairs) (entries : List Entry) :
    readInstances env v = some entries ↔
      v.exponentFree = true ∧ List.Forall₂ (Agrees env) entries pairs := by
  rw [readInstances, hinstances, Option.bind_some, foldlM_append, elements_exponentFree hinstances]
  have hall := hdistinct.elements hinstances
  clear hinstances hdistinct
  simp only [List.nil_append, Option.map_id']
  induction instances generalizing pairs entries with
  | nil =>
    rw [List.mapM_nil] at hpairs ⊢
    cases hpairs
    rw [List.forall₂_nil_right_iff]
    constructor
    · intro h
      cases h
      exact ⟨fun w hw => absurd hw List.not_mem_nil, rfl⟩
    · rintro ⟨-, rfl⟩
      rfl
  | cons w instances ih =>
    rw [List.mapM_cons] at hpairs
    obtain ⟨pair, hpair, hpairs⟩ := Option.bind_eq_some_iff.mp hpairs
    obtain ⟨pairs, hrest, hpairs⟩ := Option.bind_eq_some_iff.mp hpairs
    cases hpairs
    have hread := @readInstance_iff env w (hall w List.mem_cons_self) pair hpair
    rw [List.mapM_cons, List.forall_mem_cons, List.forall₂_cons_right_iff]
    constructor
    · intro h
      obtain ⟨entry, hentry, h⟩ := Option.bind_eq_some_iff.mp h
      obtain ⟨entries, hentries, h⟩ := Option.bind_eq_some_iff.mp h
      cases h
      obtain ⟨hfree, hagrees⟩ := (hread entry).mp hentry
      obtain ⟨hfrees, hall⟩ := (ih hrest entries fun x hx => hall x (List.mem_cons_of_mem _ hx)).mp
        hentries
      exact ⟨⟨hfree, hfrees⟩, entry, entries, hagrees, hall, rfl⟩
    · rintro ⟨⟨hfree, hfrees⟩, entry, entries, hagrees, hforall, rfl⟩
      rw [(hread entry).mpr ⟨hfree, hagrees⟩]
      have hentries := (ih hrest entries fun x hx => hall x (List.mem_cons_of_mem _ hx)).mpr
        ⟨hfrees, hforall⟩
      rw [hentries]
      rfl

/-- What the members make of the registry. -/
theorem registrySteps_iff (hnodup : (fields.map Prod.fst).Nodup) (entries entries' : List Entry) :
    fields.foldlM (registryStep env) entries = some entries' ↔
      (∀ f ∈ fields, f.1 ≠ ascii "instances" → f.2.exponentFree = true) ∧
      (fields.lookup (ascii "instances")).elim (some entries) (readInstances env) =
        some entries' := by
  induction fields generalizing entries with
  | nil => simp
  | cons f fields ih =>
    rw [List.map_cons, List.nodup_cons] at hnodup
    rw [List.foldlM_cons, List.forall_mem_cons, registryStep]
    by_cases hkey : f.1 = ascii "instances"
    · have hnone : fields.lookup (ascii "instances") = none := lookup_eq_none (hkey ▸ hnodup.1)
      rw [if_pos hkey, lookup_head hkey, Option.elim_some]
      cases hread : readInstances env f.2 with
      | none => simp
      | some read => simp [ih hnodup.2, hnone, hkey]
    · rw [if_neg hkey, lookup_tail hkey, skips]
      split
      · next hfree => simp [ih hnodup.2, hkey, hfree]
      · next hfree => simp [hkey, hfree]

/-- **The registry as a whole.** -/
theorem readRegistry_iff {pairs : List (Bytes × Bytes)} (hdistinct : v.Distinct)
    (hpairs : pairsOf v = some pairs) (entries : List Entry) :
    readRegistry env v = some entries ↔
      v.exponentFree = true ∧ List.Forall₂ (Agrees env) entries pairs := by
  obtain ⟨fields, hfields, hpairs⟩ := Option.bind_eq_some_iff.mp hpairs
  obtain ⟨array, harray, hpairs⟩ := Option.bind_eq_some_iff.mp hpairs
  obtain ⟨instances, hinstances, hpairs⟩ := Option.bind_eq_some_iff.mp hpairs
  obtain ⟨hnodup, hall⟩ := hdistinct.fields hfields
  have hread := @readInstances_iff env _ _ _ hinstances (hall _ (mem_of_lookup harray)) hpairs
    entries
  rw [readRegistry, hfields, Option.bind_some, registrySteps_iff hnodup, harray, Option.elim_some,
    hread, fields_exponentFree hfields, ← and_assoc]
  refine and_congr_left' ?_
  constructor
  · rintro ⟨hothers, hfree⟩ f hf
    by_cases hkey : f.1 = ascii "instances"
    · have hvalue := lookup_of_mem hnodup hf
      rw [hkey, harray] at hvalue
      rw [← Option.some.inj hvalue]
      exact hfree
    · exact hothers f hf hkey
  · exact fun h => ⟨fun f hf _ => h f hf, h _ (mem_of_lookup harray)⟩

end Reads

/-- A document that is a registry: it has an array of instances, objects
with a name and a root. -/
structure Registry extends Document where
  pairs : List (Bytes × Bytes)
  pairs_eq : pairsOf value = some pairs

theorem exists_agrees {env : Env} {pairs : List (Bytes × Bytes)}
    (h : ∀ p ∈ pairs, ∃ root, expandUserPath env p.2 = .ok root) :
    ∃ entries, List.Forall₂ (Agrees env) entries pairs := by
  induction pairs with
  | nil => exact ⟨[], List.Forall₂.nil⟩
  | cons p pairs ih =>
    rw [List.forall_mem_cons] at h
    obtain ⟨⟨root, hroot⟩, hpairs⟩ := h
    obtain ⟨entries, hentries⟩ := ih hpairs
    exact ⟨⟨p.1, root⟩ :: entries, hentries.cons ⟨rfl, hroot⟩⟩

theorem roots_of_agrees {env : Env} {entries : List Entry} {pairs : List (Bytes × Bytes)}
    (h : List.Forall₂ (Agrees env) entries pairs) :
    ∀ p ∈ pairs, ∃ root, expandUserPath env p.2 = .ok root := by
  induction h with
  | nil => exact fun p hp => absurd hp List.not_mem_nil
  | cons hagrees _ ih => exact List.forall_mem_cons.mpr ⟨⟨_, hagrees.2⟩, ih⟩

/-- **A registry is read exactly without exponents.** For every spelling of
every registry, with whatever else is in it, the reader gives the names
and roots in order if and only if no number at any level has an exponent,
and every root stands for a path. -/
theorem reads_iff (env : Env) (d : Registry) :
    ReadsAs env d.toDocument d.pairs ↔
      d.value.exponentFree = true ∧ ∀ p ∈ d.pairs, ∃ root, expandUserPath env p.2 = .ok root := by
  constructor
  · rintro ⟨entries, hagrees, hread⟩
    have hregistry := (parseRegistry_iff d.toDocument).mp hread
    exact ⟨((readRegistry_iff d.distinct d.pairs_eq entries).mp hregistry).1,
      roots_of_agrees hagrees⟩
  · rintro ⟨hfree, hroots⟩
    obtain ⟨entries, hagrees⟩ := exists_agrees hroots
    have hregistry := (readRegistry_iff d.distinct d.pairs_eq entries).mpr ⟨hfree, hagrees⟩
    exact ⟨entries, hagrees, (parseRegistry_iff d.toDocument).mpr hregistry⟩

def noBlanks : Blanks where
  bytes := []
  blank _ h := absurd h List.not_mem_nil

/-- A digit. -/
def oneDigit (b : UInt8) (h : isDigit b = true) : Digits where
  bytes := [b]
  nonempty := List.cons_ne_nil _ _
  digits c hc := by rw [List.mem_singleton.mp hc]; exact h

/-- `1e0` -/
def oneWithExponent : Number where
  minus := false
  whole := { oneDigit 49 (by decide) with canonical := fun h => by cases h }
  fraction := none
  exponent := some ⟨false, none, oneDigit 48 (by decide)⟩

/-- Characters that need no escape. -/
def plainChars (s : Bytes) (h : s.all (fun b => 32 ≤ b && b != 34 && b != 92) = true) : Chars :=
  s.attach.map fun b : { b // b ∈ s } =>
    have hb : (32 ≤ b.1 ∧ b.1 ≠ 34) ∧ b.1 ≠ 92 := by
      simpa using List.all_eq_true.mp h b.1 b.2
    .plain b.1 hb.1.1 ⟨hb.1.2, hb.2⟩

def versionKey : Chars := plainChars (ascii "version") (by decide)

def instancesKey : Chars := plainChars (ascii "instances") (by decide)

/-- A registry without instances whose version is `1e0`. -/
def exponentRegistry : Registry where
  before := noBlanks
  value := .object (.members noBlanks versionKey noBlanks noBlanks (.number oneWithExponent)
    noBlanks (.member noBlanks instancesKey noBlanks noBlanks (.emptyArray noBlanks) noBlanks))
  after := noBlanks
  distinct := ⟨by decide, trivial, trivial⟩
  pairs := []
  pairs_eq := rfl

example : exponentRegistry.text = ascii "\x7b\"version\":1e0,\"instances\":[]\x7d" := by decide

/-- **An exponent makes a registry unreadable**, in a member the program
does not know. -/
theorem exponent_unreadable :
    ¬∀ (env : Env) (d : Registry), (∀ p ∈ d.pairs, ∃ root, expandUserPath env p.2 = .ok root) →
      ReadsAs env d.toDocument d.pairs := by
  intro h
  have hroots : ∀ p ∈ exponentRegistry.pairs,
      ∃ root, expandUserPath ⟨⟨true, []⟩, none, none, rfl⟩ p.2 = .ok root :=
    fun p hp => absurd hp List.not_mem_nil
  obtain ⟨entries, -, hread⟩ := h ⟨⟨true, []⟩, none, none, rfl⟩ exponentRegistry hroots
  have hregistry := (parseRegistry_iff exponentRegistry.toDocument).mp hread
  cases hregistry

end Json

end Prefix

end Muplar
