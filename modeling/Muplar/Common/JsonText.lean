import Muplar.Common.Text
/-!
# JSON text

The grammar of JSON (RFC 8259) as syntax trees that keep everything of the
text: the blanks around every structural character, how a character of a
string and a number are spelled, the members of an object in their order.
Every tree is well formed by construction, so `Tree.text` is a valid text,
and every valid text is the text of a tree. Of the escapes `\u` there are
those of ASCII characters.

The meaning of a tree is read off it: the string it is, the elements of
the array, the fields of the object.
-/

namespace Muplar

namespace JsonText

/-! ## Blanks, strings, numbers -/

/-- `ws`. -/
structure Blanks where
  bytes : Bytes
  blank : ∀ b ∈ bytes, b = 32 ∨ b = 9 ∨ b = 10 ∨ b = 13

/-- A letter after a backslash. -/
inductive Short
  | quote
  | backslash
  | slash
  | b
  | f
  | n
  | r
  | t
  deriving DecidableEq

def Short.letter : Short → UInt8
  | .quote => 34
  | .backslash => 92
  | .slash => 47
  | .b => 98
  | .f => 102
  | .n => 110
  | .r => 114
  | .t => 116

def Short.value : Short → UInt8
  | .quote => 34
  | .backslash => 92
  | .slash => 47
  | .b => 8
  | .f => 12
  | .n => 10
  | .r => 13
  | .t => 9

/-- A hexadecimal digit, a letter in either case. -/
structure HexDigit where
  digit : Fin 16
  capital : Bool

def HexDigit.byte (h : HexDigit) : UInt8 :=
  if h.digit < 10 then UInt8.ofNat (48 + h.digit)
  else if h.capital then UInt8.ofNat (55 + h.digit)
  else UInt8.ofNat (87 + h.digit)

/-- The number that four digits are. -/
def hexNumber (h₁ h₂ h₃ h₄ : HexDigit) : ℕ :=
  ((h₁.digit * 16 + h₂.digit) * 16 + h₃.digit) * 16 + h₄.digit

/-- A character of a string, or a byte of one. -/
inductive Character
  | plain (b : UInt8) (graphic : 32 ≤ b) (free : b ≠ 34 ∧ b ≠ 92)
  | short (s : Short)
  | unicode (h₁ h₂ h₃ h₄ : HexDigit) (isAscii : hexNumber h₁ h₂ h₃ h₄ < 128)

def Character.text : Character → Bytes
  | .plain b _ _ => [b]
  | .short s => [92, s.letter]
  | .unicode h₁ h₂ h₃ h₄ _ => [92, 117, h₁.byte, h₂.byte, h₃.byte, h₄.byte]

def Character.value : Character → UInt8
  | .plain b _ _ => b
  | .short s => s.value
  | .unicode h₁ h₂ h₃ h₄ _ => UInt8.ofNat (hexNumber h₁ h₂ h₃ h₄)

/-- A string without its quotes. -/
abbrev Chars := List Character

def Chars.text (s : Chars) : Bytes :=
  34 :: (s.flatMap Character.text ++ [34])

def Chars.value (s : Chars) : Bytes :=
  s.map Character.value

/-- One digit or more. -/
structure Digits where
  bytes : Bytes
  nonempty : bytes ≠ []
  digits : ∀ b ∈ bytes, isDigit b = true

/-- The part of a number before the point, without leading zeros. -/
structure Whole extends Digits where
  canonical : bytes.head? = some 48 → bytes = [48]

structure Exponent where
  capital : Bool
  /-- a sign, and whether it is a minus -/
  sign : Option Bool
  power : Digits

structure Number where
  minus : Bool
  whole : Whole
  fraction : Option Digits
  exponent : Option Exponent

def Exponent.mark (e : Exponent) : UInt8 :=
  if e.capital then 69 else 101

def Exponent.text (e : Exponent) : Bytes :=
  e.mark :: ((match e.sign with
    | none => []
    | some true => [45]
    | some false => [43]) ++ e.power.bytes)

def Number.fractionText (n : Number) : Bytes :=
  match n.fraction with
  | none => []
  | some d => 46 :: d.bytes

def Number.exponentText (n : Number) : Bytes :=
  match n.exponent with
  | none => []
  | some e => e.text

def Number.text (n : Number) : Bytes :=
  (if n.minus then [45] else []) ++ (n.whole.bytes ++ (n.fractionText ++ n.exponentText))

/-! ## Trees -/

inductive Literal
  | null
  | true
  | false
  deriving DecidableEq

def Literal.text : Literal → Bytes
  | .null => ascii "null"
  | .true => ascii "true"
  | .false => ascii "false"

inductive Part
  | value
  | elements
  | members

/-- The parts of a text. The elements of an array and the members of an
object are one or more. -/
inductive Tree : Part → Type
  | literal (l : Literal) : Tree .value
  | number (n : Number) : Tree .value
  | string (s : Chars) : Tree .value
  | emptyArray (ws : Blanks) : Tree .value
  | array (elements : Tree .elements) : Tree .value
  | emptyObject (ws : Blanks) : Tree .value
  | object (members : Tree .members) : Tree .value
  | element (before : Blanks) (v : Tree .value) (after : Blanks) : Tree .elements
  | elements (before : Blanks) (v : Tree .value) (after : Blanks) (rest : Tree .elements) :
    Tree .elements
  | member (before : Blanks) (key : Chars) (beforeColon afterColon : Blanks) (v : Tree .value)
    (after : Blanks) : Tree .members
  | members (before : Blanks) (key : Chars) (beforeColon afterColon : Blanks) (v : Tree .value)
    (after : Blanks) (rest : Tree .members) : Tree .members

/-- The text of a member. -/
def memberText (key : Chars) (beforeColon afterColon : Blanks) (value : Bytes) : Bytes :=
  key.text ++ (beforeColon.bytes ++ 58 :: (afterColon.bytes ++ value))

def Tree.text : {p : Part} → Tree p → Bytes
  | _, .literal l => l.text
  | _, .number n => n.text
  | _, .string s => s.text
  | _, .emptyArray ws => 91 :: (ws.bytes ++ [93])
  | _, .array es => 91 :: (es.text ++ [93])
  | _, .emptyObject ws => 123 :: (ws.bytes ++ [125])
  | _, .object ms => 123 :: (ms.text ++ [125])
  | _, .element before v after => before.bytes ++ (v.text ++ after.bytes)
  | _, .elements before v after rest =>
    before.bytes ++ (v.text ++ (after.bytes ++ 44 :: rest.text))
  | _, .member before key beforeColon afterColon v after =>
    before.bytes ++ (memberText key beforeColon afterColon v.text ++ after.bytes)
  | _, .members before key beforeColon afterColon v after rest =>
    before.bytes ++ (memberText key beforeColon afterColon v.text ++
      (after.bytes ++ 44 :: rest.text))

/-! ## What a tree is -/

/-- A member of an object, with its spelling. -/
structure Member where
  key : Chars
  beforeColon : Blanks
  afterColon : Blanks
  value : Tree .value

/-- An item of a list, between blanks. -/
structure Slot (σ : Type) where
  before : Blanks
  item : σ
  after : Blanks

/-- The elements that are listed. -/
def Tree.elementSlots : {p : Part} → Tree p → List (Slot (Tree .value))
  | _, .element before v after => [⟨before, v, after⟩]
  | _, .elements before v after rest => ⟨before, v, after⟩ :: rest.elementSlots
  | _, _ => []

/-- The members that are listed. -/
def Tree.memberSlots : {p : Part} → Tree p → List (Slot Member)
  | _, .member before key beforeColon afterColon v after =>
    [⟨before, ⟨key, beforeColon, afterColon, v⟩, after⟩]
  | _, .members before key beforeColon afterColon v after rest =>
    ⟨before, ⟨key, beforeColon, afterColon, v⟩, after⟩ :: rest.memberSlots
  | _, _ => []

/-- The string a value is. -/
def Tree.string? : Tree .value → Option Bytes
  | .string s => some s.value
  | _ => none

/-- The elements of the array a value is. -/
def Tree.elements? : Tree .value → Option (List (Tree .value))
  | .emptyArray _ => some []
  | .array es => some (es.elementSlots.map Slot.item)
  | _ => none

/-- The fields of the object a value is, in order. -/
def Tree.fields? : Tree .value → Option (List (Bytes × Tree .value))
  | .emptyObject _ => some []
  | .object ms => some (ms.memberSlots.map fun m => (m.item.key.value, m.item.value))
  | _ => none

/-- No object at any level has two members of one name. -/
def Tree.Distinct : {p : Part} → Tree p → Prop
  | _, .literal _ | _, .number _ | _, .string _ | _, .emptyArray _ | _, .emptyObject _ => True
  | _, .array es => es.Distinct
  | _, .object ms => (ms.memberSlots.map fun m => m.item.key.value).Nodup ∧ ms.Distinct
  | _, .element _ v _ => v.Distinct
  | _, .elements _ v _ rest => v.Distinct ∧ rest.Distinct
  | _, .member _ _ _ _ v _ => v.Distinct
  | _, .members _ _ _ _ v _ rest => v.Distinct ∧ rest.Distinct

/-- No number at any level has an exponent. -/
def Tree.exponentFree : {p : Part} → Tree p → Bool
  | _, .number n => n.exponent.isNone
  | _, .literal _ | _, .string _ | _, .emptyArray _ | _, .emptyObject _ => true
  | _, .array es => es.exponentFree
  | _, .object ms => ms.exponentFree
  | _, .element _ v _ => v.exponentFree
  | _, .elements _ v _ rest => v.exponentFree && rest.exponentFree
  | _, .member _ _ _ _ v _ => v.exponentFree
  | _, .members _ _ _ _ v _ rest => v.exponentFree && rest.exponentFree

/-- A whole text: a value between blanks. -/
structure Document where
  before : Blanks
  value : Tree .value
  after : Blanks
  distinct : value.Distinct

def Document.text (d : Document) : Bytes :=
  d.before.bytes ++ (d.value.text ++ d.after.bytes)

/-! ## Lists of items -/

def Member.text (m : Member) : Bytes :=
  memberText m.key m.beforeColon m.afterColon m.value.text

/-- Items with commas in between. -/
def joined {σ : Type} (f : σ → Bytes) : List (Slot σ) → Bytes
  | [] => []
  | [s] => s.before.bytes ++ (f s.item ++ s.after.bytes)
  | s :: s' :: slots =>
    s.before.bytes ++ (f s.item ++ (s.after.bytes ++ 44 :: joined f (s' :: slots)))

theorem joined_cons {σ : Type} (f : σ → Bytes) (s : Slot σ) {slots : List (Slot σ)}
    (h : slots ≠ []) :
    joined f (s :: slots) =
      s.before.bytes ++ (f s.item ++ (s.after.bytes ++ 44 :: joined f slots)) := by
  cases slots with
  | nil => exact absurd rfl h
  | cons s' slots => rfl

theorem elementSlots_ne_nil (es : Tree .elements) : es.elementSlots ≠ [] := by
  cases es <;> exact List.cons_ne_nil _ _

theorem memberSlots_ne_nil (ms : Tree .members) : ms.memberSlots ≠ [] := by
  cases ms <;> exact List.cons_ne_nil _ _

/-- A property of values, of everything directly in a list of items. -/
def Tree.Each (P : Tree .value → Prop) : {p : Part} → Tree p → Prop
  | .value, t => P t
  | .elements, es => ∀ s ∈ es.elementSlots, P s.item
  | .members, ms => ∀ s ∈ ms.memberSlots, P s.item.value

/-- **Induction over values**: an array and an object have the property if
everything directly in them has. -/
theorem Tree.value_induction {P : Tree .value → Prop} (literal : ∀ l, P (.literal l))
    (number : ∀ n, P (.number n)) (string : ∀ s, P (.string s))
    (emptyArray : ∀ ws, P (.emptyArray ws))
    (array : ∀ es : Tree .elements, (∀ s ∈ es.elementSlots, P s.item) → P (.array es))
    (emptyObject : ∀ ws, P (.emptyObject ws))
    (object : ∀ ms : Tree .members, (∀ s ∈ ms.memberSlots, P s.item.value) → P (.object ms))
    (t : Tree .value) : P t := by
  have h : ∀ (p : Part) (t : Tree p), t.Each P := by
    intro p t
    induction t with
    | literal l => exact literal l
    | number n => exact number n
    | string s => exact string s
    | emptyArray ws => exact emptyArray ws
    | array es ih => exact array es ih
    | emptyObject ws => exact emptyObject ws
    | object ms ih => exact object ms ih
    | element before v after ih =>
      intro s hs
      rw [List.mem_singleton.mp hs]
      exact ih
    | elements before v after rest ih ihrest =>
      intro s hs
      rcases List.mem_cons.mp hs with rfl | hrest
      · exact ih
      · exact ihrest s hrest
    | member before key beforeColon afterColon v after ih =>
      intro s hs
      rw [List.mem_singleton.mp hs]
      exact ih
    | members before key beforeColon afterColon v after rest ih ihrest =>
      intro s hs
      rcases List.mem_cons.mp hs with rfl | hrest
      · exact ih
      · exact ihrest s hrest
  exact h .value t

/-! What is said of a list of items is said of each. The recursion is over
the one kind of tree, the others do not come up. -/

theorem elementSlots_element (before : Blanks) (v : Tree .value) (after : Blanks) :
    (Tree.element before v after).elementSlots = [⟨before, v, after⟩] := rfl

theorem elementSlots_elements (before : Blanks) (v : Tree .value) (after : Blanks)
    (rest : Tree .elements) : (Tree.elements before v after rest).elementSlots =
      ⟨before, v, after⟩ :: rest.elementSlots := rfl

theorem memberSlots_member (before : Blanks) (key : Chars) (beforeColon afterColon : Blanks)
    (v : Tree .value) (after : Blanks) :
    (Tree.member before key beforeColon afterColon v after).memberSlots =
      [⟨before, ⟨key, beforeColon, afterColon, v⟩, after⟩] := rfl

theorem memberSlots_members (before : Blanks) (key : Chars) (beforeColon afterColon : Blanks)
    (v : Tree .value) (after : Blanks) (rest : Tree .members) :
    (Tree.members before key beforeColon afterColon v after rest).memberSlots =
      ⟨before, ⟨key, beforeColon, afterColon, v⟩, after⟩ :: rest.memberSlots := rfl

theorem text_elements : (es : Tree .elements) → es.text = joined Tree.text es.elementSlots
  | .element _ _ _ => rfl
  | .elements before v after rest => by
    rw [elementSlots_elements, joined_cons _ _ (elementSlots_ne_nil rest), ← text_elements rest]
    rfl

theorem text_members : (ms : Tree .members) → ms.text = joined Member.text ms.memberSlots
  | .member _ _ _ _ _ _ => rfl
  | .members before key beforeColon afterColon v after rest => by
    rw [memberSlots_members, joined_cons _ _ (memberSlots_ne_nil rest), ← text_members rest]
    rfl

theorem exponentFree_elements : (es : Tree .elements) →
    (es.exponentFree = true ↔ ∀ s ∈ es.elementSlots, s.item.exponentFree = true)
  | .element _ v _ => by
    rw [elementSlots_element, List.forall_mem_singleton]
    rfl
  | .elements _ v _ rest => by
    rw [elementSlots_elements, List.forall_mem_cons, ← exponentFree_elements rest]
    exact Bool.and_eq_true_iff

theorem exponentFree_members : (ms : Tree .members) →
    (ms.exponentFree = true ↔ ∀ s ∈ ms.memberSlots, s.item.value.exponentFree = true)
  | .member _ _ _ _ v _ => by
    rw [memberSlots_member, List.forall_mem_singleton]
    rfl
  | .members _ _ _ _ v _ rest => by
    rw [memberSlots_members, List.forall_mem_cons, ← exponentFree_members rest]
    exact Bool.and_eq_true_iff

theorem distinct_elements : (es : Tree .elements) →
    (es.Distinct ↔ ∀ s ∈ es.elementSlots, s.item.Distinct)
  | .element _ v _ => by
    rw [elementSlots_element, List.forall_mem_singleton]
    rfl
  | .elements _ v _ rest => by
    rw [elementSlots_elements, List.forall_mem_cons, ← distinct_elements rest]
    rfl

theorem distinct_members : (ms : Tree .members) →
    (ms.Distinct ↔ ∀ s ∈ ms.memberSlots, s.item.value.Distinct)
  | .member _ _ _ _ v _ => by
    rw [memberSlots_member, List.forall_mem_singleton]
    rfl
  | .members _ _ _ _ v _ rest => by
    rw [memberSlots_members, List.forall_mem_cons, ← distinct_members rest]
    rfl

/-! ## Strings, arrays and objects -/

section Parts

variable {v : Tree .value}

theorem exponentFree_of_string {s : Bytes} (h : v.string? = some s) : v.exponentFree = true := by
  cases v with
  | string chars => rfl
  | _ => cases h

theorem elements_exponentFree {elements : List (Tree .value)} (h : v.elements? = some elements) :
    v.exponentFree = true ↔ ∀ w ∈ elements, w.exponentFree = true := by
  cases v with
  | emptyArray ws =>
    cases h
    exact iff_of_true rfl fun w hw => absurd hw List.not_mem_nil
  | array es =>
    cases h
    rw [List.forall_mem_map]
    exact exponentFree_elements es
  | _ => cases h

theorem fields_exponentFree {fields : List (Bytes × Tree .value)} (h : v.fields? = some fields) :
    v.exponentFree = true ↔ ∀ f ∈ fields, f.2.exponentFree = true := by
  cases v with
  | emptyObject ws =>
    cases h
    exact iff_of_true rfl fun w hw => absurd hw List.not_mem_nil
  | object ms =>
    cases h
    rw [List.forall_mem_map]
    exact exponentFree_members ms
  | _ => cases h

theorem Tree.Distinct.elements {elements : List (Tree .value)} (hv : v.Distinct)
    (h : v.elements? = some elements) : ∀ w ∈ elements, w.Distinct := by
  cases v with
  | emptyArray ws =>
    cases h
    exact fun w hw => absurd hw List.not_mem_nil
  | array es =>
    cases h
    rw [List.forall_mem_map]
    exact (distinct_elements es).mp hv
  | _ => cases h

theorem Tree.Distinct.fields {fields : List (Bytes × Tree .value)} (hv : v.Distinct)
    (h : v.fields? = some fields) :
    (fields.map Prod.fst).Nodup ∧ ∀ f ∈ fields, f.2.Distinct := by
  cases v with
  | emptyObject ws =>
    cases h
    exact ⟨List.nodup_nil, fun w hw => absurd hw List.not_mem_nil⟩
  | object ms =>
    cases h
    rw [List.map_map, List.forall_mem_map]
    exact ⟨hv.1, (distinct_members ms).mp hv.2⟩
  | _ => cases h

end Parts

end JsonText

end Muplar
