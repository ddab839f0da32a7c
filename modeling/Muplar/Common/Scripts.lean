import Mathlib.Data.List.DropRight
import Mathlib.Data.List.TakeWhile
import Mathlib.Data.Nat.Notation
import Mathlib.Tactic.Common
/-!
# Scripts and their loader

A script names its interpreter on its first line: a word, and behind it at
most one argument, in which blanks are kept. A loader puts the
interpreter, the argument and the name of the script in the place of the
name by which the script was called, and goes on with the interpreter,
until it comes to a program.
-/

namespace Muplar

namespace Scripts

/-! ## The line -/

section

variable {α : Type*} {blank : α → Bool}

/-- Nothing but blanks. -/
def Blanks (blank : α → Bool) (l : List α) : Prop :=
  ∀ a ∈ l, blank a = true

instance decidableBlanks (blank : α → Bool) (l : List α) : Decidable (Blanks blank l) :=
  decidable_of_iff (l.all blank = true) List.all_eq_true

/-- Something, and no blank. -/
structure Word (blank : α → Bool) (l : List α) : Prop where
  ne : l ≠ []
  no : ∀ a ∈ l, blank a = false

/-- Something that neither begins nor ends with a blank. -/
structure Trimmed (blank : α → Bool) (l : List α) : Prop where
  ne : l ≠ []
  first : ∀ a ∈ l.head?, blank a = false
  last : ∀ a ∈ l.getLast?, blank a = false

instance decidableWord (blank : α → Bool) (l : List α) : Decidable (Word blank l) :=
  decidable_of_iff (l.isEmpty = false ∧ l.all (fun a => !blank a) = true)
    ⟨fun h => ⟨fun hnil => by simp [hnil] at h, fun a ha => by
      simpa using List.all_eq_true.mp h.2 a ha⟩,
    fun h => ⟨by simpa using h.ne, List.all_eq_true.mpr fun a ha => by simp [h.no a ha]⟩⟩

instance decidableTrimmed (blank : α → Bool) (l : List α) : Decidable (Trimmed blank l) :=
  decidable_of_iff (l.isEmpty = false ∧ l.head?.all (fun a => !blank a) = true ∧
      l.getLast?.all (fun a => !blank a) = true)
    ⟨fun h => ⟨fun hnil => by simp [hnil] at h, by simpa [Option.all_eq_true] using h.2.1,
      by simpa [Option.all_eq_true] using h.2.2⟩,
    fun h => ⟨by simpa using h.ne, by simpa [Option.all_eq_true] using h.first,
      by simpa [Option.all_eq_true] using h.last⟩⟩

theorem Word.trimmed {l : List α} (h : Word blank l) : Trimmed blank l :=
  ⟨h.ne, fun a ha => h.no a (List.mem_of_mem_head? ha),
    fun a ha => h.no a (List.mem_of_mem_getLast? ha)⟩

/-- **A line names an interpreter** and perhaps an argument. -/
inductive Names (blank : α → Bool) : List α → List α → Option (List α) → Prop
  | plain (lead word tail : List α) (hlead : Blanks blank lead) (hword : Word blank word)
      (htail : Blanks blank tail) : Names blank (lead ++ (word ++ tail)) word none
  | argument (lead word gap arg tail : List α) (hlead : Blanks blank lead)
      (hword : Word blank word) (hgap : Blanks blank gap) (hne : gap ≠ [])
      (harg : Trimmed blank arg) (htail : Blanks blank tail) :
      Names blank (lead ++ (word ++ gap ++ arg ++ tail)) word (some arg)

/-- An argument is not empty. -/
theorem Names.argument_ne {l word : List α} {arg : Option (List α)} (h : Names blank l word arg) :
    ∀ a ∈ arg, a ≠ [] := by
  cases h with
  | plain => nofun
  | argument _ _ _ _ _ _ _ _ _ harg =>
    intro a ha
    exact Option.mem_some.mp ha ▸ harg.ne

theorem dropWhile_blanks {lead rest : List α} (hlead : Blanks blank lead)
    (hrest : ∀ a ∈ rest.head?, blank a = false) : (lead ++ rest).dropWhile blank = rest := by
  rw [List.dropWhile_append_of_pos hlead]
  cases rest with
  | nil => rfl
  | cons a rest => rw [List.dropWhile_cons_of_neg (by rw [hrest a rfl]; decide)]

theorem rdropWhile_tail {p : α → Bool} {body tail : List α} (htail : ∀ a ∈ tail, p a = true)
    (hbody : ∀ a ∈ body.getLast?, p a = false) : (body ++ tail).rdropWhile p = body := by
  induction tail using List.reverseRecOn with
  | nil =>
    rw [List.append_nil, List.rdropWhile_eq_self_iff]
    intro hne
    rw [hbody _ (List.getLast?_eq_getLast_of_ne_nil hne)]
    decide
  | append_singleton tail a ih =>
    rw [← List.append_assoc, List.rdropWhile_concat_pos _ _ _ (htail a (by simp))]
    exact ih fun b hb => htail b (List.mem_append_left _ hb)

theorem Trimmed.head_append {l more : List α} (h : Trimmed blank l) :
    ∀ a ∈ (l ++ more).head?, blank a = false := by
  rw [List.head?_append_of_ne_nil l h.ne]
  exact h.first

/-- The word stands up to the first blank. -/
theorem takeWhile_word {word : List α} (hword : Word blank word) (rest : List α)
    (hrest : ∀ a ∈ rest.head?, blank a = true) :
    (word ++ rest).takeWhile (fun a => !blank a) = word ∧
      (word ++ rest).dropWhile (fun a => !blank a) = rest := by
  have hno : ∀ a ∈ word, (!blank a) = true := fun a ha => by rw [hword.no a ha]; rfl
  rw [List.takeWhile_append_of_pos hno, List.dropWhile_append_of_pos hno]
  cases rest with
  | nil => exact ⟨List.append_nil word, rfl⟩
  | cons a rest =>
    have ha : ¬(!blank a) = true := by rw [hrest a rfl]; decide
    rw [List.takeWhile_cons_of_neg (p := fun a => !blank a) ha,
      List.dropWhile_cons_of_neg (p := fun a => !blank a) ha]
    exact ⟨List.append_nil word, rfl⟩

end

/-! ## The loader -/

section

/-- What an executable file is. -/
inductive Program (β : Type*)
  | binary
  | script (interp : β) (argument : Option β)

/-- What a script makes of the arguments: the name by which it was called
gives way to the interpreter, its argument and the name of the script. -/
def loadScript {β : Type*} (script interp : β) (argument : Option β) (argv : List β) : List β :=
  interp :: argument.toList ++ script :: argv.tail

variable {ν β : Type*}

/-- **Loading**: from a file under a name, with its arguments, over so many
scripts to a program with its arguments. `find` leads from the name of an
interpreter to its file, and `call` is what the interpreter is called. -/
inductive Loads (program : ν → Program β → Prop) (find : β → ν) (call : β → β) :
    ℕ → ν → β → List β → ν → List β → Prop
  | binary {v : ν} {name : β} {argv : List β} (h : program v .binary) :
      Loads program find call 0 v name argv v argv
  | script {n : ℕ} {v v' : ν} {name interp : β} {argument : Option β} {argv argv' : List β}
      (h : program v (.script interp argument))
      (hloads : Loads program find call n (find interp) (call interp)
        (loadScript name (call interp) argument argv) v' argv') :
      Loads program find call (n + 1) v name argv v' argv'

variable {program program' : ν → Program β → Prop} {find : β → ν} {call call' : β → β}

/-- Only the interpreters of the chain matter, and what they are called. -/
theorem Loads.mono {n : ℕ} {v v' : ν} {name : β} {argv argv' : List β}
    (h : Loads program find call n v name argv v' argv')
    (hprogram : ∀ v p, program v p → program' v p)
    (hcall : ∀ v interp argument, program v (.script interp argument) →
      call interp = call' interp) :
    Loads program' find call' n v name argv v' argv' := by
  induction h with
  | binary h => exact .binary (hprogram _ _ h)
  | script h _ ih =>
    rw [hcall _ _ _ h] at ih
    exact .script (hprogram _ _ h) ih

end

end Scripts

end Muplar
