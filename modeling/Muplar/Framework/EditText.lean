import Mathlib.Order.MinMax
import Mathlib.Tactic.MkIffOfInductiveProp
import Muplar.Common.CodePoints
import Muplar.Common.Run
/-!
# The framework — editing text

`EditText` edits its text by keys. `onKeyDown` counts in units of UTF-16:
a deletion takes one unit, the arrows go one unit over, and a character is
put in as one unit. `FrameworkDeviceController` has set the character of a
key aside before the key is handled; where it is zero, a table of the
widget makes one of the key.

Every key has its effect, and the text stays one with the selection
between its characters, exactly as long as no key meets a character of two
units (`editing_keeps_text_iff`).
-/

namespace Muplar

namespace Framework

open CodePoints

/-! ## Keys -/

def keycode0 : ℤ := 7
def keycodeDpadLeft : ℤ := 21
def keycodeDpadRight : ℤ := 22
def keycodeA : ℤ := 29
def keycodeTab : ℤ := 61
def keycodeSpace : ℤ := 62
def keycodeEnter : ℤ := 66
def keycodeDel : ℤ := 67
def keycodeForwardDel : ℤ := 112
def keycodeMoveHome : ℤ := 122
def keycodeMoveEnd : ℤ := 123

/-- What a key that went down brings with it: `character` is what the
controller sets aside. -/
structure KeyInput where
  keyCode : ℤ
  metaState : UInt32
  character : Char
  deriving DecidableEq

/-- `Character.isISOControl`. -/
def isISOControl (c : Char) : Bool :=
  c.toNat ≤ 0x9F && (0x7F ≤ c.toNat || c.toNat ≤ 0x1F)

/-- The characters of the digit keys with the shift key, from zero on. -/
def shiftedDigits : List Char :=
  [')', '!', '@', '#', '$', '%', '^', '&', '*', '(']

/-- The other keys with a character, without and with the shift key: grave,
minus, equals, the brackets, backslash, semicolon, apostrophe, comma,
period and slash. -/
def symbolKeys : List (ℤ × Char × Char) :=
  [(68, Char.ofNat 96, '~'), (69, '-', '_'), (70, '=', '+'), (71, '[', '\x7b'), (72, ']', '\x7d'),
    (73, '\\', '|'), (74, ';', ':'), (75, Char.ofNat 39, '"'), (55, ',', '<'), (56, '.', '>'),
    (76, '/', '?')]

/-- `fallbackUnicodeChar`. -/
def fallbackUnicodeChar (keyCode : ℤ) (metaState : UInt32) : Char :=
  let shift : Bool := metaState &&& 1 ≠ 0
  let caps : Bool := metaState &&& 0x100000 ≠ 0
  let upper := xor shift caps
  if keycodeA ≤ keyCode ∧ keyCode ≤ keycodeA + 25 then
    Char.ofNat ((if upper then 65 else 97) + (keyCode - keycodeA).toNat)
  else if keycode0 ≤ keyCode ∧ keyCode ≤ keycode0 + 9 then
    if shift then shiftedDigits.getD (keyCode - keycode0).toNat '\x00'
    else Char.ofNat (48 + (keyCode - keycode0).toNat)
  else if keyCode = keycodeSpace then ' '
  else if keyCode = keycodeEnter then '\n'
  else if keyCode = keycodeTab then '\t'
  else
    match symbolKeys.lookup keyCode with
    | some (plain, shifted) => if shift then shifted else plain
    | none => '\x00'

/-! ## The widget -/

/-- The text of the widget, with the marks of its selection. -/
structure Editable where
  text : JavaString
  selStart : Option ℕ := none
  selEnd : Option ℕ := none
  deriving DecidableEq

/-- Where `SpannableStringBuilder` leaves a mark when a range is replaced. -/
abbrev MarkRule := JavaString → (start stop : ℕ) → JavaString → Option ℕ → Option ℕ

namespace Editable

variable (moved : MarkRule) (e : Editable)

/-- `Selection.setSelection`, which throws beyond the text. -/
def setSelection (index : ℕ) : Option Editable :=
  if index ≤ e.text.length then some { e with selStart := some index, selEnd := some index }
  else none

/-- `replace` and `delete` of the text, which throw beyond it. -/
def replace (start stop : ℕ) (insert : JavaString) : Option Editable :=
  if start ≤ stop ∧ stop ≤ e.text.length then
    some
      { text := replaceRange e.text start stop insert
        selStart := moved e.text start stop insert e.selStart
        selEnd := moved e.text start stop insert e.selEnd }
  else none

/-- A replacement and the caret after it. The text is then handed to the
superclass, which copies it. -/
def edit (start stop : ℕ) (insert : JavaString) (caret : ℕ) : Option (Editable × Bool) := do
  let replaced ← e.replace moved start stop insert
  let selected ← replaced.setSelection caret
  return (selected, true)

/-- The caret moved. -/
def move (caret : ℕ) : Option (Editable × Bool) := do
  let selected ← e.setSelection caret
  return (selected, true)

/-- The start of the selection as it is read: the end of the text where there
is none. -/
def readStart : ℕ :=
  e.selStart.getD e.text.length

/-- The end of the selection as it is read. -/
def readEnd : ℕ :=
  e.selEnd.getD e.text.length

/-- Where the selected range starts: the marks may stand either way round. -/
def rangeStart : ℕ :=
  min e.readStart e.readEnd

/-- Where the selected range ends. -/
def rangeEnd : ℕ :=
  max e.readStart e.readEnd

/-- `onKeyDown` of an enabled widget, where the event itself has no
character: the new text and whether the key was taken, or nothing where it
throws. What is left to the superclass does not touch the text. -/
def onKeyDown (lastUnicodeChar : Char) (keyCode : ℤ) (metaState : UInt32) :
    Option (Editable × Bool) :=
  if keyCode = keycodeDel then
    if e.readStart ≠ e.readEnd then e.edit moved e.rangeStart e.rangeEnd [] e.rangeStart
    else if 0 < e.readStart then
      e.edit moved (e.readStart - 1) e.readStart [] (e.readStart - 1)
    else some (e, true)
  else if keyCode = keycodeForwardDel then
    if e.readStart ≠ e.readEnd then e.edit moved e.rangeStart e.rangeEnd [] e.rangeStart
    else if e.readEnd < e.text.length then e.edit moved e.readEnd (e.readEnd + 1) [] e.readEnd
    else some (e, true)
  else if keyCode = keycodeDpadLeft then
    if 0 < e.readStart then e.move (e.readStart - 1) else some (e, true)
  else if keyCode = keycodeDpadRight then
    if e.readEnd < e.text.length then e.move (e.readEnd + 1) else some (e, true)
  else if keyCode = keycodeMoveHome then e.move 0
  else if keyCode = keycodeMoveEnd then e.move e.text.length
  else if keyCode = keycodeEnter then
    e.edit moved e.rangeStart e.rangeEnd [10] (e.rangeStart + 1)
  else if keyCode = keycodeTab then some (e, false)
  else
    let unicode :=
      if lastUnicodeChar.toNat = 0 then fallbackUnicodeChar keyCode metaState
      else lastUnicodeChar
    if 0 < unicode.toNat ∧ isISOControl unicode = false then
      -- the character is cast to one unit, whatever it is
      e.edit moved e.rangeStart e.rangeEnd [UInt16.ofNat unicode.toNat] (e.rangeStart + 1)
    else some (e, false)

/-- `dispatchKeyInput` for a key that goes down: the character is set aside
and the key handled. -/
def dispatchKeyInput (input : KeyInput) : Option (Editable × Bool) :=
  e.onKeyDown moved input.character input.keyCode input.metaState

/-- The text after a key; as it was, had the key thrown. -/
def afterKey (input : KeyInput) : Editable :=
  (e.dispatchKeyInput moved input).elim e Prod.fst

end Editable

/-! ## What a key is for -/

/-- The keys that edit or move, enter and tab. -/
def commandKeys : List ℤ :=
  [keycodeDel, keycodeForwardDel, keycodeDpadLeft, keycodeDpadRight, keycodeMoveHome,
    keycodeMoveEnd, keycodeEnter, keycodeTab]

/-- The character that a key is for: its own, or that of the table. -/
def KeyInput.typed (input : KeyInput) : Option Char :=
  if input.keyCode ∈ commandKeys then none
  else
    let c :=
      if input.character.toNat = 0 then fallbackUnicodeChar input.keyCode input.metaState
      else input.character
    if 0 < c.toNat ∧ isISOControl c = false then some c else none

/-- **A text, with the selection between its characters.** -/
structure Editable.WellFormed (e : Editable) : Prop where
  text : IsUtf16 e.text
  start : ∀ i ∈ e.selStart, Boundary e.text i
  stop : ∀ i ∈ e.selEnd, Boundary e.text i

/-- **What a key should do.** -/
@[mk_iff]
structure KeyEffect (e : Editable) (input : KeyInput) (e' : Editable) : Prop where
  wellFormed : e'.WellFormed
  typed : ∀ c ∈ input.typed,
    e' = ⟨replaceRange e.text e.rangeStart e.rangeEnd (utf16Char c),
      some (e.rangeStart + (utf16Char c).length), some (e.rangeStart + (utf16Char c).length)⟩
  selected : input.keyCode = keycodeDel ∨ input.keyCode = keycodeForwardDel →
    e.readStart ≠ e.readEnd → e'.text = replaceRange e.text e.rangeStart e.rangeEnd []
  before : input.keyCode = keycodeDel → e.readStart = e.readEnd → 0 < e.readStart →
    RemovesBefore e.text e.readStart e'.text
  after : input.keyCode = keycodeForwardDel → e.readStart = e.readEnd →
    e.readEnd < e.text.length → RemovesAfter e.text e.readEnd e'.text
  entered : input.keyCode = keycodeEnter →
    e'.text = replaceRange e.text e.rangeStart e.rangeEnd [10]
  kept : input.typed = none → input.keyCode ≠ keycodeEnter →
    (input.keyCode = keycodeDel → e.readStart = e.readEnd ∧ e.readStart = 0) →
    (input.keyCode = keycodeForwardDel →
      e.readStart = e.readEnd ∧ e.readEnd = e.text.length) → e'.text = e.text

/-- No key meets a character of two units: none is typed, none is next to a
caret where a key deletes there, and none is on the way of an arrow. -/
@[mk_iff]
structure OneUnit (e : Editable) (input : KeyInput) : Prop where
  typed : ∀ c ∈ input.typed, c.toNat < 0x10000
  before : input.keyCode = keycodeDel → e.readStart = e.readEnd → 0 < e.readStart →
    isLowSurrogate (e.text.getD (e.readStart - 1) 0) = false
  after : input.keyCode = keycodeForwardDel → e.readStart = e.readEnd →
    e.readEnd < e.text.length → isHighSurrogate (e.text.getD e.readEnd 0) = false
  left : input.keyCode = keycodeDpadLeft → 0 < e.readStart →
    isLowSurrogate (e.text.getD (e.readStart - 1) 0) = false
  right : input.keyCode = keycodeDpadRight → e.readEnd < e.text.length →
    isHighSurrogate (e.text.getD e.readEnd 0) = false

/-! ## What a key does -/

section

variable {moved : MarkRule} {e : Editable} {input : KeyInput}

theorem edit_eq {start stop caret : ℕ} {insert : JavaString} (hle : start ≤ stop)
    (hstop : stop ≤ e.text.length) (hcaret : caret ≤ start + insert.length) :
    e.edit moved start stop insert caret =
      some (⟨replaceRange e.text start stop insert, some caret, some caret⟩, true) := by
  have hlength : caret ≤ (replaceRange e.text start stop insert).length := by
    rw [length_replaceRange insert hle hstop]
    omega
  rw [Editable.edit, Editable.replace, if_pos ⟨hle, hstop⟩, Option.bind_eq_bind,
    Option.bind_some, Editable.setSelection, if_pos hlength]
  rfl

theorem edit_unit {start stop : ℕ} {u : UInt16} (hle : start ≤ stop)
    (hstop : stop ≤ e.text.length) : e.edit moved start stop [u] (start + 1) =
      some (⟨replaceRange e.text start stop [u], some (start + 1), some (start + 1)⟩, true) :=
  edit_eq hle hstop le_rfl

theorem move_eq {caret : ℕ} (h : caret ≤ e.text.length) :
    e.move caret = some (⟨e.text, some caret, some caret⟩, true) := by
  rw [Editable.move, Editable.setSelection, if_pos h]
  rfl

namespace Editable.WellFormed

variable (h : e.WellFormed)
include h

theorem boundary_readStart : Boundary e.text e.readStart := by
  unfold Editable.readStart
  cases hmark : e.selStart with
  | none => exact boundary_length h.text
  | some i => exact h.start i hmark

theorem boundary_readEnd : Boundary e.text e.readEnd := by
  unfold Editable.readEnd
  cases hmark : e.selEnd with
  | none => exact boundary_length h.text
  | some i => exact h.stop i hmark

theorem boundary_rangeStart : Boundary e.text e.rangeStart := by
  unfold Editable.rangeStart
  rcases min_choice e.readStart e.readEnd with hmin | hmin
  · rw [hmin]
    exact h.boundary_readStart
  · rw [hmin]
    exact h.boundary_readEnd

theorem boundary_rangeEnd : Boundary e.text e.rangeEnd := by
  unfold Editable.rangeEnd
  rcases max_choice e.readStart e.readEnd with hmax | hmax
  · rw [hmax]
    exact h.boundary_readStart
  · rw [hmax]
    exact h.boundary_readEnd

end Editable.WellFormed

theorem rangeStart_le (e : Editable) : e.rangeStart ≤ e.rangeEnd :=
  min_le_max

/-- A text with the caret between two of its characters. -/
theorem wellFormed_caret {text : JavaString} {caret : ℕ} (h : Boundary text caret) :
    (⟨text, some caret, some caret⟩ : Editable).WellFormed where
  text := h.isUtf16
  start i hi := by
    obtain rfl := Option.some.inj hi
    exact h
  stop i hi := by
    obtain rfl := Option.some.inj hi
    exact h

theorem boundary_of_wellFormed {text : JavaString} {caret : ℕ}
    (h : (⟨text, some caret, some caret⟩ : Editable).WellFormed) : Boundary text caret :=
  h.start caret rfl

theorem typed_of_command (h : input.keyCode ∈ commandKeys) : input.typed = none :=
  if_pos h

/-- A key is not refused, and its effect is right where it should be. -/
def Handles (moved : MarkRule) (e : Editable) (input : KeyInput) : Prop :=
  (e.dispatchKeyInput moved input).isSome ∧
    (KeyEffect e input (e.afterKey moved input) ↔ OneUnit e input)

theorem handles_of_eq {after : Editable} {handled : Bool}
    (heq : e.dispatchKeyInput moved input = some (after, handled))
    (hiff : KeyEffect e input after ↔ OneUnit e input) : Handles moved e input := by
  rw [Handles, Editable.afterKey, heq]
  exact ⟨rfl, hiff⟩

/-! ## Deleting -/

theorem keyEffect_del (hk : input.keyCode = keycodeDel) {e' : Editable} :
    KeyEffect e input e' ↔ e'.WellFormed ∧
      (e.readStart ≠ e.readEnd → e'.text = replaceRange e.text e.rangeStart e.rangeEnd []) ∧
      (e.readStart = e.readEnd → 0 < e.readStart → RemovesBefore e.text e.readStart e'.text) ∧
      (e.readStart = e.readEnd → e.readStart = 0 → e'.text = e.text) := by
  have htyped : input.typed = none := typed_of_command (by rw [hk]; decide)
  simp [keyEffect_iff, htyped, hk, keycodeDel, keycodeForwardDel, keycodeEnter]

theorem oneUnit_del (hk : input.keyCode = keycodeDel) :
    OneUnit e input ↔ (e.readStart = e.readEnd → 0 < e.readStart →
      isLowSurrogate (e.text.getD (e.readStart - 1) 0) = false) := by
  have htyped : input.typed = none := typed_of_command (by rw [hk]; decide)
  simp [oneUnit_iff, htyped, hk, keycodeDel, keycodeForwardDel, keycodeDpadLeft,
    keycodeDpadRight]

theorem handles_del (h : e.WellFormed) (hk : input.keyCode = keycodeDel) :
    Handles moved e input := by
  have hread := h.boundary_readStart
  have heq : e.dispatchKeyInput moved input =
      if e.readStart ≠ e.readEnd then e.edit moved e.rangeStart e.rangeEnd [] e.rangeStart
      else if 0 < e.readStart then
        e.edit moved (e.readStart - 1) e.readStart [] (e.readStart - 1)
      else some (e, true) := if_pos hk
  by_cases hsel : e.readStart = e.readEnd
  · rw [if_neg (not_not.mpr hsel)] at heq
    by_cases hpos : 0 < e.readStart
    · rw [if_pos hpos, edit_eq (Nat.sub_le _ 1) hread.le (Nat.le_add_right _ _)] at heq
      refine handles_of_eq heq ?_
      rw [keyEffect_del hk, oneUnit_del hk]
      constructor
      · exact fun ⟨_, _, hbefore, _⟩ _ _ => (removesBefore_iff hread hpos).mp (hbefore hsel hpos)
      · intro hunit
        have hpred := (boundary_pred_iff hread hpos).mpr (hunit hsel hpos)
        exact ⟨wellFormed_caret (boundary_replaceRange_start hpred hread .nil),
          fun hne => absurd hsel hne,
          fun _ _ => (removesBefore_iff hread hpos).mpr (hunit hsel hpos),
          fun _ hzero => absurd hzero hpos.ne'⟩
    · rw [if_neg hpos] at heq
      refine handles_of_eq heq ?_
      rw [keyEffect_del hk, oneUnit_del hk]
      exact iff_of_true ⟨h, fun hne => absurd hsel hne, fun _ hpos' => absurd hpos' hpos,
        fun _ _ => rfl⟩ fun _ hpos' => absurd hpos' hpos
  · rw [if_pos hsel, edit_eq (rangeStart_le e) h.boundary_rangeEnd.le
      (Nat.le_add_right _ _)] at heq
    refine handles_of_eq heq ?_
    rw [keyEffect_del hk, oneUnit_del hk]
    have hcaret := boundary_replaceRange_start h.boundary_rangeStart h.boundary_rangeEnd .nil
    exact iff_of_true ⟨wellFormed_caret hcaret, fun _ => rfl, fun heq' => absurd heq' hsel,
      fun heq' => absurd heq' hsel⟩ fun heq' => absurd heq' hsel

theorem keyEffect_forwardDel (hk : input.keyCode = keycodeForwardDel) {e' : Editable} :
    KeyEffect e input e' ↔ e'.WellFormed ∧
      (e.readStart ≠ e.readEnd → e'.text = replaceRange e.text e.rangeStart e.rangeEnd []) ∧
      (e.readStart = e.readEnd → e.readEnd < e.text.length →
        RemovesAfter e.text e.readEnd e'.text) ∧
      (e.readStart = e.readEnd → e.readEnd = e.text.length → e'.text = e.text) := by
  have htyped : input.typed = none := typed_of_command (by rw [hk]; decide)
  simp [keyEffect_iff, htyped, hk, keycodeDel, keycodeForwardDel, keycodeEnter]

theorem oneUnit_forwardDel (hk : input.keyCode = keycodeForwardDel) :
    OneUnit e input ↔ (e.readStart = e.readEnd → e.readEnd < e.text.length →
      isHighSurrogate (e.text.getD e.readEnd 0) = false) := by
  have htyped : input.typed = none := typed_of_command (by rw [hk]; decide)
  simp [oneUnit_iff, htyped, hk, keycodeDel, keycodeForwardDel, keycodeDpadLeft,
    keycodeDpadRight]

theorem handles_forwardDel (h : e.WellFormed) (hk : input.keyCode = keycodeForwardDel) :
    Handles moved e input := by
  have hread := h.boundary_readEnd
  have hdel : input.keyCode ≠ keycodeDel := by rw [hk]; decide
  have heq : e.dispatchKeyInput moved input =
      if e.readStart ≠ e.readEnd then e.edit moved e.rangeStart e.rangeEnd [] e.rangeStart
      else if e.readEnd < e.text.length then
        e.edit moved e.readEnd (e.readEnd + 1) [] e.readEnd
      else some (e, true) := (if_neg hdel).trans (if_pos hk)
  by_cases hsel : e.readStart = e.readEnd
  · rw [if_neg (not_not.mpr hsel)] at heq
    by_cases hlt : e.readEnd < e.text.length
    · rw [if_pos hlt, edit_eq (Nat.le_succ _) hlt (Nat.le_add_right _ _)] at heq
      refine handles_of_eq heq ?_
      rw [keyEffect_forwardDel hk, oneUnit_forwardDel hk]
      constructor
      · exact fun ⟨_, _, hafter, _⟩ _ _ => (removesAfter_iff hread hlt).mp (hafter hsel hlt)
      · intro hunit
        have hsucc := (boundary_succ_iff hread hlt).mpr (hunit hsel hlt)
        exact ⟨wellFormed_caret (boundary_replaceRange_start hread hsucc .nil),
          fun hne => absurd hsel hne,
          fun _ _ => (removesAfter_iff hread hlt).mpr (hunit hsel hlt),
          fun _ hend => absurd hend hlt.ne⟩
    · rw [if_neg hlt] at heq
      refine handles_of_eq heq ?_
      rw [keyEffect_forwardDel hk, oneUnit_forwardDel hk]
      exact iff_of_true ⟨h, fun hne => absurd hsel hne, fun _ hlt' => absurd hlt' hlt,
        fun _ _ => rfl⟩ fun _ hlt' => absurd hlt' hlt
  · rw [if_pos hsel, edit_eq (rangeStart_le e) h.boundary_rangeEnd.le
      (Nat.le_add_right _ _)] at heq
    refine handles_of_eq heq ?_
    rw [keyEffect_forwardDel hk, oneUnit_forwardDel hk]
    have hcaret := boundary_replaceRange_start h.boundary_rangeStart h.boundary_rangeEnd .nil
    exact iff_of_true ⟨wellFormed_caret hcaret, fun _ => rfl, fun heq' => absurd heq' hsel,
      fun heq' => absurd heq' hsel⟩ fun heq' => absurd heq' hsel

/-! ## Moving, and the keys that are left alone -/

theorem oneUnit_left (hk : input.keyCode = keycodeDpadLeft) : OneUnit e input ↔
    (0 < e.readStart → isLowSurrogate (e.text.getD (e.readStart - 1) 0) = false) := by
  have htyped : input.typed = none := typed_of_command (by rw [hk]; decide)
  simp [oneUnit_iff, htyped, hk, keycodeDel, keycodeForwardDel, keycodeDpadLeft,
    keycodeDpadRight]

theorem oneUnit_right (hk : input.keyCode = keycodeDpadRight) : OneUnit e input ↔
    (e.readEnd < e.text.length → isHighSurrogate (e.text.getD e.readEnd 0) = false) := by
  have htyped : input.typed = none := typed_of_command (by rw [hk]; decide)
  simp [oneUnit_iff, htyped, hk, keycodeDel, keycodeForwardDel, keycodeDpadLeft,
    keycodeDpadRight]

/-- A key that puts nothing in and deletes nothing. -/
theorem oneUnit_still (htyped : input.typed = none) (h : input.keyCode ∉ [keycodeDel,
    keycodeForwardDel, keycodeDpadLeft, keycodeDpadRight]) : OneUnit e input := by
  simp only [List.mem_cons, List.not_mem_nil, or_false, not_or] at h
  simp [oneUnit_iff, htyped, h]

/-- Where a key leaves the text, what counts is where the selection is
afterwards. -/
theorem handles_kept {e' : Editable} {handled : Bool} (htyped : input.typed = none)
    (h : input.keyCode ∉ [keycodeDel, keycodeForwardDel, keycodeEnter])
    (heq : e.dispatchKeyInput moved input = some (e', handled)) (hkept : e'.text = e.text)
    (hiff : e'.WellFormed ↔ OneUnit e input) : Handles moved e input := by
  simp only [List.mem_cons, List.not_mem_nil, or_false, not_or] at h
  refine handles_of_eq heq (Iff.trans ?_ hiff)
  simp [keyEffect_iff, htyped, h, hkept]

theorem handles_left (h : e.WellFormed) (hk : input.keyCode = keycodeDpadLeft) :
    Handles moved e input := by
  have htyped : input.typed = none := typed_of_command (by rw [hk]; decide)
  have hread := h.boundary_readStart
  have heq : e.dispatchKeyInput moved input =
      if 0 < e.readStart then e.move (e.readStart - 1) else some (e, true) := by
    rw [Editable.dispatchKeyInput, hk]
    rfl
  by_cases hpos : 0 < e.readStart
  · rw [if_pos hpos, move_eq ((Nat.sub_le _ 1).trans hread.le)] at heq
    refine handles_kept htyped (by rw [hk]; decide) heq rfl ?_
    rw [oneUnit_left hk, forall_prop_of_true hpos, ← boundary_pred_iff hread hpos]
    exact ⟨boundary_of_wellFormed, wellFormed_caret⟩
  · rw [if_neg hpos] at heq
    exact handles_kept htyped (by rw [hk]; decide) heq rfl
      (iff_of_true h ((oneUnit_left hk).mpr fun hpos' => absurd hpos' hpos))

theorem handles_right (h : e.WellFormed) (hk : input.keyCode = keycodeDpadRight) :
    Handles moved e input := by
  have htyped : input.typed = none := typed_of_command (by rw [hk]; decide)
  have hread := h.boundary_readEnd
  have heq : e.dispatchKeyInput moved input =
      if e.readEnd < e.text.length then e.move (e.readEnd + 1) else some (e, true) := by
    rw [Editable.dispatchKeyInput, hk]
    rfl
  by_cases hlt : e.readEnd < e.text.length
  · rw [if_pos hlt, move_eq hlt] at heq
    refine handles_kept htyped (by rw [hk]; decide) heq rfl ?_
    rw [oneUnit_right hk, forall_prop_of_true hlt, ← boundary_succ_iff hread hlt]
    exact ⟨boundary_of_wellFormed, wellFormed_caret⟩
  · rw [if_neg hlt] at heq
    exact handles_kept htyped (by rw [hk]; decide) heq rfl
      (iff_of_true h ((oneUnit_right hk).mpr fun hlt' => absurd hlt' hlt))

/-- A key that leaves the text, and is no arrow. -/
theorem handles_still {e' : Editable} {handled : Bool} (htyped : input.typed = none)
    (h : input.keyCode ∉ [keycodeDel, keycodeForwardDel, keycodeDpadLeft, keycodeDpadRight])
    (henter : input.keyCode ≠ keycodeEnter)
    (heq : e.dispatchKeyInput moved input = some (e', handled)) (hkept : e'.text = e.text)
    (hwf : e'.WellFormed) : Handles moved e input := by
  refine handles_kept htyped ?_ heq hkept (iff_of_true hwf (oneUnit_still htyped h))
  simp only [List.mem_cons, List.not_mem_nil, or_false, not_or] at h ⊢
  exact ⟨h.1, h.2.1, henter⟩

theorem handles_home (h : e.WellFormed) (hk : input.keyCode = keycodeMoveHome) :
    Handles moved e input := by
  have heq : e.dispatchKeyInput moved input = e.move 0 := by
    rw [Editable.dispatchKeyInput, hk]
    rfl
  rw [move_eq (Nat.zero_le _)] at heq
  exact handles_still (typed_of_command (by rw [hk]; decide)) (by rw [hk]; decide)
    (by rw [hk]; decide) heq rfl (wellFormed_caret (boundary_zero h.text))

theorem handles_end (h : e.WellFormed) (hk : input.keyCode = keycodeMoveEnd) :
    Handles moved e input := by
  have heq : e.dispatchKeyInput moved input = e.move e.text.length := by
    rw [Editable.dispatchKeyInput, hk]
    rfl
  rw [move_eq le_rfl] at heq
  exact handles_still (typed_of_command (by rw [hk]; decide)) (by rw [hk]; decide)
    (by rw [hk]; decide) heq rfl (wellFormed_caret (boundary_length h.text))

theorem handles_tab (h : e.WellFormed) (hk : input.keyCode = keycodeTab) :
    Handles moved e input := by
  have heq : e.dispatchKeyInput moved input = some (e, false) := by
    rw [Editable.dispatchKeyInput, hk]
    rfl
  exact handles_still (typed_of_command (by rw [hk]; decide)) (by rw [hk]; decide)
    (by rw [hk]; decide) heq rfl h

/-! ## Putting in -/

theorem keyEffect_enter (hk : input.keyCode = keycodeEnter) {e' : Editable} :
    KeyEffect e input e' ↔
      e'.WellFormed ∧ e'.text = replaceRange e.text e.rangeStart e.rangeEnd [10] := by
  have htyped : input.typed = none := typed_of_command (by rw [hk]; decide)
  simp [keyEffect_iff, htyped, hk, keycodeDel, keycodeForwardDel, keycodeEnter]

theorem handles_enter (h : e.WellFormed) (hk : input.keyCode = keycodeEnter) :
    Handles moved e input := by
  have hfeed : IsUtf16 [10] := IsUtf16.char '\n'
  have heq : e.dispatchKeyInput moved input =
      e.edit moved e.rangeStart e.rangeEnd [10] (e.rangeStart + 1) := by
    rw [Editable.dispatchKeyInput, hk]
    rfl
  rw [edit_unit (rangeStart_le e) h.boundary_rangeEnd.le] at heq
  have hcaret := boundary_replaceRange h.boundary_rangeStart h.boundary_rangeEnd hfeed
  refine handles_of_eq heq (iff_of_true ?_ ?_)
  · exact (keyEffect_enter hk).mpr ⟨wellFormed_caret hcaret, rfl⟩
  · exact oneUnit_still (typed_of_command (by rw [hk]; decide)) (by rw [hk]; decide)

theorem dispatchKeyInput_of_notMem (moved : MarkRule) (e : Editable)
    (h : input.keyCode ∉ commandKeys) :
    e.dispatchKeyInput moved input =
      match input.typed with
      | some c =>
        e.edit moved e.rangeStart e.rangeEnd [UInt16.ofNat c.toNat] (e.rangeStart + 1)
      | none => some (e, false) := by
  have hkeys := h
  simp only [commandKeys, List.mem_cons, List.not_mem_nil, or_false, not_or] at hkeys
  obtain ⟨hdel, hforward, hleft, hright, hhome, hend, henter, htab⟩ := hkeys
  rw [Editable.dispatchKeyInput, Editable.onKeyDown, if_neg hdel, if_neg hforward, if_neg hleft,
    if_neg hright, if_neg hhome, if_neg hend, if_neg henter, if_neg htab, KeyInput.typed, if_neg h]
  dsimp only
  generalize (if input.character.toNat = 0 then
    fallbackUnicodeChar input.keyCode input.metaState else input.character) = c
  by_cases hc : 0 < c.toNat ∧ isISOControl c = false
  · rw [if_pos hc, if_pos hc]
  · rw [if_neg hc, if_neg hc]

theorem keyEffect_typed {c : Char} (htyped : input.typed = some c)
    (h : input.keyCode ∉ commandKeys) {e' : Editable} : KeyEffect e input e' ↔ e'.WellFormed ∧
      e' = ⟨replaceRange e.text e.rangeStart e.rangeEnd (utf16Char c),
        some (e.rangeStart + (utf16Char c).length),
        some (e.rangeStart + (utf16Char c).length)⟩ := by
  simp only [commandKeys, List.mem_cons, List.not_mem_nil, or_false, not_or] at h
  simp [keyEffect_iff, htyped, h]

theorem oneUnit_typed {c : Char} (htyped : input.typed = some c)
    (h : input.keyCode ∉ commandKeys) : OneUnit e input ↔ c.toNat < 0x10000 := by
  simp only [commandKeys, List.mem_cons, List.not_mem_nil, or_false, not_or] at h
  simp [oneUnit_iff, htyped, h]

theorem handles_typed {c : Char} (h : e.WellFormed) (hmem : input.keyCode ∉ commandKeys)
    (htyped : input.typed = some c) : Handles moved e input := by
  have heq := dispatchKeyInput_of_notMem moved e hmem
  have hstop := h.boundary_rangeEnd
  rw [htyped] at heq
  dsimp only at heq
  rw [edit_unit (rangeStart_le e) hstop.le] at heq
  refine handles_of_eq heq ?_
  rw [keyEffect_typed htyped hmem, oneUnit_typed htyped hmem]
  by_cases hunit : c.toNat < 0x10000
  · have hunits : utf16Char c = [UInt16.ofNat c.toNat] := if_pos hunit
    have hcaret := boundary_replaceRange h.boundary_rangeStart hstop (IsUtf16.char c)
    rw [hunits] at hcaret ⊢
    exact iff_of_true ⟨wellFormed_caret hcaret, rfl⟩ hunit
  · -- the caret would be two units on
    refine iff_of_false (fun hresult => ?_) hunit
    have hcaret := congrArg Editable.selStart hresult.2
    have hunits : (utf16Char c).length = 2 := by rw [utf16Char, if_neg hunit]; rfl
    simp only [hunits, Option.some.injEq] at hcaret
    omega

/-- **What one key does**: it never throws, and does what it is for exactly
where it meets no character of two units. -/
theorem handles (h : e.WellFormed) : Handles moved e input := by
  by_cases hmem : input.keyCode ∈ commandKeys
  · simp only [commandKeys, List.mem_cons, List.not_mem_nil, or_false] at hmem
    rcases hmem with hk | hk | hk | hk | hk | hk | hk | hk
    · exact handles_del h hk
    · exact handles_forwardDel h hk
    · exact handles_left h hk
    · exact handles_right h hk
    · exact handles_home h hk
    · exact handles_end h hk
    · exact handles_enter h hk
    · exact handles_tab h hk
  · cases htyped : input.typed with
    | some c => exact handles_typed h hmem htyped
    | none =>
      have heq := dispatchKeyInput_of_notMem moved e hmem
      rw [htyped] at heq
      simp only [commandKeys, List.mem_cons, List.not_mem_nil, or_false, not_or] at hmem
      exact handles_still htyped (by simp [hmem]) hmem.2.2.2.2.2.2.1 heq rfl h

end

/-! ## Editing -/

/-- **Editing keeps the text.** Each of a run of keys is handled and does
what it is for, the text stays one and the selection between its
characters, exactly where no key meets a character of two units. -/
theorem editing_keeps_text_iff (moved : MarkRule) {e : Editable} (h : e.WellFormed)
    (inputs : List KeyInput) :
    Machine.Meets (Editable.afterKey moved) (fun e input =>
        (e.dispatchKeyInput moved input).isSome ∧ KeyEffect e input (e.afterKey moved input))
      e inputs ↔
      Machine.Meets (Editable.afterKey moved) OneUnit e inputs := by
  have hen : Machine.Meets (Editable.afterKey moved) (fun _ _ => True) e inputs := by
    clear h
    induction inputs generalizing e with
    | nil => trivial
    | cons input inputs ih => exact ⟨trivial, ih⟩
  refine Machine.meets_iff_meets (K := Editable.WellFormed) ?_ ?_ h hen
  · exact fun e input h _ hunit => ((handles h).2.mpr hunit).wellFormed
  · exact fun e input h _ => (and_iff_right (handles h).1).trans (handles h).2

/-- A letter is typed behind a face and deleted again. -/
theorem editing_keeps_text_iff_face :
    let e : Editable := ⟨utf16 [Char.ofNat 0x1F600], some 2, some 2⟩
    let inputs : List KeyInput := [⟨keycodeA, 0, 'a'⟩, ⟨keycodeDel, 0, '\x00'⟩]
    e.WellFormed ∧
      (Machine.Meets (Editable.afterKey fun _ _ _ _ mark => mark) (fun e input =>
          (e.dispatchKeyInput (fun _ _ _ _ mark => mark) input).isSome ∧
            KeyEffect e input (e.afterKey (fun _ _ _ _ mark => mark) input)) e inputs ↔
        Machine.Meets (Editable.afterKey fun _ _ _ _ mark => mark) OneUnit e inputs) :=
  have hface : Boundary (utf16 [Char.ofNat 0x1F600]) 2 := by decide
  ⟨wellFormed_caret hface, editing_keeps_text_iff _ (wellFormed_caret hface) _⟩

/-- **A deletion behind a face leaves half of it.** -/
theorem half_a_face_left : ¬∀ (moved : MarkRule) (e : Editable), e.WellFormed →
    ∀ inputs, Machine.Meets (Editable.afterKey moved) (fun e input =>
        (e.dispatchKeyInput moved input).isSome ∧ KeyEffect e input (e.afterKey moved input))
      e inputs := by
  intro h
  have hface : Boundary (utf16 [Char.ofNat 0x1F600]) 2 := by decide
  have hdel := h (fun _ _ _ _ mark => mark) ⟨utf16 [Char.ofNat 0x1F600], some 2, some 2⟩
    (wellFormed_caret hface) [⟨keycodeDel, 0, '\x00'⟩]
  have htext := hdel.1.2.wellFormed.text
  revert htext
  decide

end Framework

end Muplar
