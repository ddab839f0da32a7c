import Mathlib.Data.List.TakeWhile
import Muplar.Common.PathText
/-!
# The guest runner — the parameters of a signature

The parameters of a method are the text between the first opening
parenthesis of its signature and the first closing one behind it, and the
parser cuts that text into types. It knows primitive types by their
letters, arrays by their brackets, and class types by the letter and the
semicolon around a name; it does not look at the name.

So more is accepted than class files allow, and nothing else is: what is
accepted is cut in the one way in which it is a concatenation of types
(`parseJniParameterTypes_iff`).
-/

namespace Muplar

namespace Runner

/-! ## The parser -/

/-- `jni_argument_signature`. -/
def jniArgumentSignature (signature : Bytes) : Option Bytes :=
  match signature.dropWhile (· ≠ 40) with
  | [] => none
  | _ :: rest => if 41 ∈ rest then some (rest.takeWhile (· ≠ 41)) else none

/-- The letters of the primitive types. -/
def primitives : Bytes := ascii "ZBCSIJFD"

/-- The type at the front, and what is behind it. -/
def takeType (args : Bytes) : Option (Bytes × Bytes) :=
  let brackets := args.takeWhile (· = 91)
  match args.dropWhile (· = 91) with
  | [] => none
  | c :: rest =>
    if c = 76 then
      if 59 ∈ rest then
        some (brackets ++ 76 :: rest.takeWhile (· ≠ 59) ++ [59], (rest.dropWhile (· ≠ 59)).tail)
      else none
    else if c ∈ primitives then some (brackets ++ [c], rest)
    else none

/-- The loop, with so many turns. -/
def takeTypes : ℕ → Bytes → Option (List Bytes)
  | _, [] => some []
  | 0, _ => none
  | n + 1, args =>
    match takeType args with
    | none => none
    | some (type, rest) => (takeTypes n rest).map (type :: ·)

/-- `parse_jni_parameter_types`. A turn takes a character at least. -/
def parseJniParameterTypes (signature : Bytes) : Option (List Bytes) :=
  match jniArgumentSignature signature with
  | none => none
  | some args => takeTypes args.length args

/-! ## Types -/

/-- What is taken for a type. -/
inductive IsType : Bytes → Prop
  /-- a primitive type -/
  | primitive {c : UInt8} (h : c ∈ primitives) : IsType [c]
  /-- a class type, with any name that has no semicolon -/
  | object {name : Bytes} (h : 59 ∉ name) : IsType (76 :: name ++ [59])
  /-- an array -/
  | array {type : Bytes} (h : IsType type) : IsType (91 :: type)

/-- A name of class files, which may have parentheses in it. -/
def IsUnqualified (name : Bytes) : Prop :=
  name ≠ [] ∧ 46 ∉ name ∧ 59 ∉ name ∧ 91 ∉ name ∧ 47 ∉ name

/-- A field descriptor: the name of a class type is a path of names. -/
inductive IsFieldDescriptor : Bytes → Prop
  | primitive {c : UInt8} (h : c ∈ primitives) : IsFieldDescriptor [c]
  | object {names : List Bytes} (hne : names ≠ []) (h : ∀ name ∈ names, IsUnqualified name) :
    IsFieldDescriptor (76 :: [47].intercalate names ++ [59])
  | array {type : Bytes} (h : IsFieldDescriptor type) : IsFieldDescriptor (91 :: type)

theorem IsFieldDescriptor.ne_class_without_name {type : Bytes} (h : IsFieldDescriptor type) :
    type ≠ ascii "L;" := by
  have hempty : ascii "L;" = [76, 59] := by decide
  rw [hempty]
  intro htype
  cases h with
  | primitive hc => cases htype
  | array hinner => cases htype
  | @object names hne hnames =>
    obtain ⟨name, names, rfl⟩ := List.exists_cons_of_ne_nil hne
    have hlen := congrArg List.length htype
    have hname := List.length_pos_iff.mpr (hnames name List.mem_cons_self).1
    rw [intercalate_cons_eq] at hlen
    simp only [List.length_append, List.length_cons, List.length_nil] at hlen
    omega

/-! ## One type -/

/-- A text up to the first of a character, and from there on. -/
theorem takeWhile_ne_append {x : UInt8} {text : Bytes} (h : x ∈ text) :
    text.takeWhile (· ≠ x) ++ x :: (text.dropWhile (· ≠ x)).tail = text := by
  have hrest : text.dropWhile (· ≠ x) ≠ [] := fun hnil =>
    absurd (List.dropWhile_eq_nil_iff.mp hnil x h) (by simp)
  have hhead := List.head_dropWhile_not (fun b : UInt8 => decide (b ≠ x)) hrest
  have hx : (text.dropWhile (· ≠ x)).head hrest = x := by simpa using hhead
  conv_rhs => rw [← List.takeWhile_append_dropWhile (p := (· ≠ x)) (l := text),
    ← List.cons_head_tail hrest, hx]

theorem ne_of_mem_primitives {c : UInt8} (h : c ∈ primitives) : c ≠ 91 ∧ c ≠ 76 := by
  have hall : primitives.all (fun c => c ≠ 91 ∧ c ≠ 76) = true := by decide
  exact of_decide_eq_true (List.all_eq_true.mp hall c h)

theorem takeType_bracket (args : Bytes) : takeType (91 :: args) =
    (takeType args).map fun taken => (91 :: taken.1, taken.2) := by
  rw [takeType, takeType, List.takeWhile_cons_of_pos (by decide),
    List.dropWhile_cons_of_pos (by decide)]
  cases args.dropWhile (· = 91) with
  | nil => rfl
  | cons c rest =>
    dsimp only
    split_ifs <;> rfl

/-- A type that stands at the front is taken. -/
theorem takeType_append {type : Bytes} (h : IsType type) (rest : Bytes) :
    takeType (type ++ rest) = some (type, rest) := by
  induction h with
  | primitive hc =>
    obtain ⟨hbracket, hobject⟩ := ne_of_mem_primitives hc
    rw [List.singleton_append, takeType, List.takeWhile_cons_of_neg (by simpa using hbracket),
      List.dropWhile_cons_of_neg (by simpa using hbracket)]
    dsimp only
    rw [if_neg hobject, if_pos hc]
    rfl
  | @object name hname =>
    have hne : ∀ b ∈ name, (decide (b ≠ 59)) = true := fun b hb =>
      decide_eq_true fun heq => hname (heq ▸ hb)
    have hargs : 76 :: name ++ [59] ++ rest = 76 :: (name ++ 59 :: rest) := by simp
    rw [hargs, takeType, List.takeWhile_cons_of_neg (by decide),
      List.dropWhile_cons_of_neg (by decide)]
    dsimp only
    rw [if_pos rfl, if_pos (by simp), List.takeWhile_append_of_pos hne,
      List.dropWhile_append_of_pos hne, List.takeWhile_cons_of_neg (by decide),
      List.dropWhile_cons_of_neg (by decide), List.append_nil]
    rfl
  | array _ ih =>
    rw [List.cons_append, takeType_bracket, ih]
    rfl

/-- And nothing else is taken. -/
theorem takeType_eq_some {args type rest : Bytes} (h : takeType args = some (type, rest)) :
    IsType type ∧ args = type ++ rest := by
  induction args generalizing type rest with
  | nil => cases h
  | cons c args ih =>
    by_cases hbracket : c = 91
    · subst hbracket
      rw [takeType_bracket] at h
      obtain ⟨⟨type', rest'⟩, htaken, heq⟩ := Option.map_eq_some_iff.mp h
      obtain ⟨rfl, rfl⟩ := Prod.mk.inj heq
      obtain ⟨htype, rfl⟩ := ih htaken
      exact ⟨.array htype, rfl⟩
    · rw [takeType, List.takeWhile_cons_of_neg (by simpa using hbracket),
        List.dropWhile_cons_of_neg (by simpa using hbracket)] at h
      dsimp only at h
      split_ifs at h with hobject hsemi hprimitive
      · obtain ⟨rfl, rfl⟩ := Prod.mk.inj (Option.some.inj h)
        have hname : 59 ∉ args.takeWhile (· ≠ 59) := fun hmem =>
          absurd (List.mem_takeWhile_imp hmem) (by decide)
        refine ⟨.object hname, ?_⟩
        rw [hobject]
        conv_lhs => rw [← takeWhile_ne_append hsemi]
        simp
      · obtain ⟨rfl, rfl⟩ := Prod.mk.inj (Option.some.inj h)
        exact ⟨.primitive hprimitive, rfl⟩

theorem length_lt_of_takeType {args type rest : Bytes} (h : takeType args = some (type, rest)) :
    rest.length < args.length := by
  obtain ⟨htype, rfl⟩ := takeType_eq_some h
  rw [List.length_append]
  cases htype <;> simp

/-! ## All of them -/

theorem flatten_eq_nil_iff {types : List Bytes} :
    types.flatten = [] ∧ (∀ type ∈ types, IsType type) ↔ types = [] := by
  constructor
  · rintro ⟨hflat, htypes⟩
    cases types with
    | nil => rfl
    | cons type types =>
      have htype := htypes type List.mem_cons_self
      rw [List.flatten_cons, List.append_eq_nil_iff] at hflat
      rw [hflat.1] at htype
      cases htype
  · rintro rfl
    exact ⟨rfl, nofun⟩

theorem takeTypes_cons (n : ℕ) (c : UInt8) (args : Bytes) : takeTypes (n + 1) (c :: args) =
    match takeType (c :: args) with
    | none => none
    | some (type, rest) => (takeTypes n rest).map (type :: ·) := rfl

/-- What is accepted is a concatenation of types, and every one is. -/
theorem takeTypes_eq_some_iff {n : ℕ} {args : Bytes} {types : List Bytes} (hn : args.length ≤ n) :
    takeTypes n args = some types ↔ types.flatten = args ∧ ∀ type ∈ types, IsType type := by
  induction n generalizing args types with
  | zero =>
    obtain rfl := List.eq_nil_of_length_eq_zero (Nat.le_zero.mp hn)
    rw [flatten_eq_nil_iff, takeTypes, Option.some.injEq, eq_comm]
  | succ n ih =>
    cases args with
    | nil => rw [flatten_eq_nil_iff, takeTypes, Option.some.injEq, eq_comm]
    | cons c args =>
      rw [takeTypes_cons]
      constructor
      · intro h
        cases htaken : takeType (c :: args) with
        | none =>
          rw [htaken] at h
          cases h
        | some taken =>
          obtain ⟨type, rest⟩ := taken
          obtain ⟨htype, hargs⟩ := takeType_eq_some htaken
          have hlt := length_lt_of_takeType htaken
          rw [htaken] at h
          obtain ⟨types', hrest, rfl⟩ := Option.map_eq_some_iff.mp h
          obtain ⟨hflat, htypes⟩ := (ih (by omega)).mp hrest
          rw [List.flatten_cons, hflat, hargs]
          exact ⟨rfl, List.forall_mem_cons.mpr ⟨htype, htypes⟩⟩
      · rintro ⟨hflat, htypes⟩
        cases types with
        | nil => cases hflat
        | cons type types =>
          rw [List.forall_mem_cons] at htypes
          rw [List.flatten_cons] at hflat
          have htaken := takeType_append htypes.1 types.flatten
          rw [hflat] at htaken
          have hlt := length_lt_of_takeType htaken
          rw [htaken]
          dsimp only
          rw [(ih (by omega)).mpr ⟨rfl, htypes.2⟩]
          rfl

theorem jniArgumentSignature_eq_some_iff {signature args : Bytes} :
    jniArgumentSignature signature = some args ↔ ∃ before after,
      signature = before ++ 40 :: (args ++ 41 :: after) ∧ 40 ∉ before ∧ 41 ∉ args := by
  constructor
  · intro h
    rw [jniArgumentSignature] at h
    split at h
    · cases h
    · next c rest hcons =>
      split_ifs at h with hclose
      refine ⟨signature.takeWhile (· ≠ 40), (rest.dropWhile (· ≠ 41)).tail, ?_,
        fun hmem => absurd (List.mem_takeWhile_imp hmem) (by decide), ?_⟩
      · have hopen : 40 ∈ signature := by
          by_contra hnone
          have hall : ∀ b ∈ signature, (decide (b ≠ 40)) = true := fun b hb =>
            decide_eq_true fun heq => hnone (heq ▸ hb)
          rw [List.dropWhile_eq_nil_iff.mpr hall] at hcons
          cases hcons
        have hsplit := takeWhile_ne_append hopen
        rw [hcons, List.tail_cons] at hsplit
        rw [← Option.some.inj h, takeWhile_ne_append hclose, hsplit]
      · rw [← Option.some.inj h]
        exact fun hmem => absurd (List.mem_takeWhile_imp hmem) (by decide)
  · rintro ⟨before, after, rfl, hbefore, hargs⟩
    have hne : ∀ b ∈ before, (decide (b ≠ 40)) = true := fun b hb =>
      decide_eq_true fun heq => hbefore (heq ▸ hb)
    have hne' : ∀ b ∈ args, (decide (b ≠ 41)) = true := fun b hb =>
      decide_eq_true fun heq => hargs (heq ▸ hb)
    rw [jniArgumentSignature, List.dropWhile_append_of_pos hne,
      List.dropWhile_cons_of_neg (by decide)]
    dsimp only
    rw [if_pos (by simp), List.takeWhile_append_of_pos hne', List.takeWhile_cons_of_neg (by decide),
      List.append_nil]

/-- **The parser, exactly.** It accepts a signature where the text between
the parentheses is a concatenation of types, and returns these. -/
theorem parseJniParameterTypes_iff (signature : Bytes) (types : List Bytes) :
    parseJniParameterTypes signature = some types ↔
      ∃ before args after, signature = before ++ 40 :: (args ++ 41 :: after) ∧ 40 ∉ before ∧
        41 ∉ args ∧ types.flatten = args ∧ ∀ type ∈ types, IsType type := by
  rw [parseJniParameterTypes]
  constructor
  · intro h
    cases hargs : jniArgumentSignature signature with
    | none =>
      rw [hargs] at h
      cases h
    | some args =>
      rw [hargs] at h
      obtain ⟨before, after, hsplit, hbefore, hclose⟩ := jniArgumentSignature_eq_some_iff.mp hargs
      exact ⟨before, args, after, hsplit, hbefore, hclose,
        (takeTypes_eq_some_iff (Nat.le_refl _)).mp h⟩
  · rintro ⟨before, args, after, hsplit, hbefore, hclose, htypes⟩
    rw [jniArgumentSignature_eq_some_iff.mpr ⟨before, after, hsplit, hbefore, hclose⟩]
    exact (takeTypes_eq_some_iff (Nat.le_refl _)).mpr htypes

/-- The parameters of `(I[[Ljava/lang/String;J)V`. -/
example : parseJniParameterTypes (ascii "(I[[Ljava/lang/String;J)V") =
    some [ascii "I", ascii "[[Ljava/lang/String;", ascii "J"] := by decide

/-- **Names that are not looked at.** A class type without a name is
accepted; and a name may have a parenthesis in it, which is taken for the
end of the parameters. -/
theorem names_not_looked_at :
    (parseJniParameterTypes (ascii "(L;)V") = some [ascii "L;"] ∧
      ¬IsFieldDescriptor (ascii "L;")) ∧
    parseJniParameterTypes (ascii "(La)b;)V") = none ∧ IsFieldDescriptor (ascii "La)b;") := by
  have hparen : ascii "La)b;" = 76 :: [47].intercalate [ascii "a)b"] ++ [59] := by decide
  refine ⟨⟨by decide, fun h => ?_⟩, by decide, ?_⟩
  · exact h.ne_class_without_name rfl
  · rw [hparen]
    refine .object (by simp) fun name hname => ?_
    rw [List.mem_singleton.mp hname]
    unfold IsUnqualified
    decide

end Runner

end Muplar
