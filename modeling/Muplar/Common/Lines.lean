import Muplar.Common.PathText
/-!
# Parts and lines

`std::getline` with a separator reads the parts of a text: what stands
before each separator, and what is left at the end unless nothing is left.
A text is complete if it is empty or ends in the separator; only such a
text is put together again from its parts, and only behind such a text
does an appended line stand on its own.
-/

namespace Muplar

variable {α : Type*} [BEq α] [LawfulBEq α] {sep : α} {text more : List α}
variable {parts lines : List (List α)}

/-- What `std::getline` reads, call after call. -/
def getlines (sep : α) (text : List α) : List (List α) :=
  if ((text.splitOn sep).getLastD []).isEmpty then (text.splitOn sep).dropLast
  else text.splitOn sep

/-- The lines with a separator after each. -/
def unlines (sep : α) (lines : List (List α)) : List α :=
  lines.flatMap (· ++ [sep])

omit [BEq α] [LawfulBEq α] in
@[simp] theorem unlines_append (lines more : List (List α)) :
    unlines sep (lines ++ more) = unlines sep lines ++ unlines sep more :=
  List.flatMap_append

omit [BEq α] [LawfulBEq α] in
@[simp] theorem unlines_singleton (line : List α) : unlines sep [line] = line ++ [sep] := by
  simp [unlines]

/-- The text ends with a line. -/
def Complete (sep : α) (text : List α) : Prop :=
  text = [] ∨ text.getLast? = some sep

instance [DecidableEq α] (sep : α) (text : List α) : Decidable (Complete sep text) :=
  inferInstanceAs (Decidable (_ ∨ _))

theorem splitOn_unlines_append (h : ∀ line ∈ lines, sep ∉ line) (more : List α) :
    (unlines sep lines ++ more).splitOn sep = lines ++ more.splitOn sep := by
  induction lines with
  | nil => rfl
  | cons line lines ih =>
    have hline := h line List.mem_cons_self
    have hrest := ih fun line hmem => h line (List.mem_cons_of_mem _ hmem)
    have htext : unlines sep (line :: lines) ++ more = line ++ sep :: (unlines sep lines ++ more) := by
      simp [unlines]
    rw [htext, List.splitOn_append_cons_self_of_not_mem hline, hrest, List.cons_append]

/-- The parts of complete lines and of what stands behind them. -/
theorem getlines_unlines_append (h : ∀ line ∈ lines, sep ∉ line) (more : List α) :
    getlines sep (unlines sep lines ++ more) = lines ++ getlines sep more := by
  have hne := List.splitOn_ne_nil sep more
  have hlast : (lines ++ more.splitOn sep).getLastD [] = (more.splitOn sep).getLastD [] := by
    rw [List.getLastD_eq_getLast?, List.getLastD_eq_getLast?, List.getLast?_append_of_ne_nil _ hne]
  rw [getlines, getlines, splitOn_unlines_append h, hlast, List.dropLast_append_of_ne_nil hne]
  split <;> rfl

omit [LawfulBEq α] in
theorem getlines_nil : getlines sep ([] : List α) = [] := by
  simp [getlines, List.splitOn_nil]

theorem getlines_unlines (h : ∀ line ∈ lines, sep ∉ line) :
    getlines sep (unlines sep lines) = lines := by
  have hrest := getlines_unlines_append h []
  rwa [List.append_nil, getlines_nil, List.append_nil] at hrest

theorem getlines_of_not_mem (hne : text ≠ []) (h : sep ∉ text) : getlines sep text = [text] := by
  rw [getlines, List.splitOn_eq_singleton h]
  simp [hne]

/-- All parts but the last end in a separator. -/
theorem exists_unlines (sep : α) (text : List α) :
    ∃ init last, text.splitOn sep = init ++ [last] ∧ text = unlines sep init ++ last := by
  obtain hnil | ⟨init, last, hparts⟩ := List.eq_nil_or_concat (text.splitOn sep)
  · exact absurd hnil (List.splitOn_ne_nil sep text)
  · rw [List.concat_eq_append] at hparts
    have hjoin : [sep].intercalate (text.splitOn sep) = text := List.intercalate_splitOn sep
    rw [hparts, intercalate_concat] at hjoin
    exact ⟨init, last, hparts, hjoin.symm⟩

/-- **A text is complete lines and what is left**, which is a part of its
own unless it is empty. -/
theorem text_cases (sep : α) (text : List α) :
    text = unlines sep (getlines sep text) ∨
    ∃ init last, last ≠ [] ∧ sep ∉ last ∧ text = unlines sep init ++ last ∧
      getlines sep text = init ++ [last] := by
  obtain ⟨init, last, hparts, htext⟩ := exists_unlines sep text
  have hlines : getlines sep text = if last.isEmpty then init else init ++ [last] := by
    rw [getlines, hparts, List.dropLast_concat, List.getLastD_concat]
  by_cases hlast : last = []
  · left
    rw [hlines, hlast]
    simpa [hlast] using htext
  · right
    refine ⟨init, last, hlast, ?_, htext, ?_⟩
    · exact not_mem_of_splitOn (by rw [hparts]; simp)
    · rw [hlines, if_neg (by simpa using hlast)]

theorem not_mem_of_getlines {line : List α} (h : line ∈ getlines sep text) : sep ∉ line := by
  refine not_mem_of_splitOn (s := text) ?_
  rw [getlines] at h
  split at h
  · exact List.dropLast_subset _ h
  · exact h

/-- **A complete text is its lines.** -/
theorem complete_iff : Complete sep text ↔ text = unlines sep (getlines sep text) := by
  constructor
  · intro hcomplete
    rcases text_cases sep text with htext | ⟨init, last, hne, hmem, htext, -⟩
    · exact htext
    · exfalso
      rcases hcomplete with rfl | hend
      · exact hne (List.append_eq_nil_iff.mp htext.symm).2
      · rw [htext, List.getLast?_append_of_ne_nil _ hne] at hend
        exact hmem (List.mem_of_getLast? hend)
  · intro htext
    rcases List.eq_nil_or_concat (getlines sep text) with hnil | ⟨init, last, hlines⟩
    · rw [hnil] at htext
      exact .inl htext
    · right
      rw [htext, hlines, List.concat_eq_append, unlines_append, unlines_singleton, ← List.append_assoc,
        List.getLast?_concat]

omit [BEq α] [LawfulBEq α] in
theorem complete_unlines (sep : α) (lines : List (List α)) : Complete sep (unlines sep lines) := by
  rcases List.eq_nil_or_concat lines with rfl | ⟨init, last, rfl⟩
  · exact .inl rfl
  · right
    rw [List.concat_eq_append, unlines_append, unlines_singleton, ← List.append_assoc,
      List.getLast?_concat]

omit [BEq α] [LawfulBEq α] in
theorem complete_append_line (text line : List α) : Complete sep (text ++ (line ++ [sep])) := by
  right
  rw [← List.append_assoc, List.getLast?_concat]

theorem getlines_line {line : List α} (h : sep ∉ line) : getlines sep (line ++ [sep]) = [line] := by
  have hlines : ∀ l ∈ [line], sep ∉ l := fun l hl => List.mem_singleton.mp hl ▸ h
  rw [← unlines_singleton, getlines_unlines hlines]

/-- A line, and what is read behind it. -/
theorem getlines_line_append {line : List α} (h : sep ∉ line) (more : List α) :
    getlines sep (line ++ sep :: more) = line :: getlines sep more := by
  have hlines : ∀ l ∈ [line], sep ∉ l := fun l hl => List.mem_singleton.mp hl ▸ h
  have hall := getlines_unlines_append hlines more
  rwa [unlines_singleton, List.append_assoc, List.singleton_append] at hall

/-- Behind a complete text a line stands on its own. -/
theorem getlines_append (h : Complete sep text) (more : List α) :
    getlines sep (text ++ more) = getlines sep text ++ getlines sep more := by
  conv_lhs => rw [complete_iff.mp h]
  exact getlines_unlines_append (fun _ => not_mem_of_getlines) more

/-- Behind any other text it becomes a part of the last line. -/
theorem getlines_append_line (h : ¬Complete sep text) {line : List α} (hline : sep ∉ line) :
    ∃ init last, last ≠ [] ∧ getlines sep text = init ++ [last] ∧
      getlines sep (text ++ (line ++ [sep])) = init ++ [last ++ line] := by
  rcases text_cases sep text with htext | ⟨init, last, hne, hmem, htext, hlines⟩
  · exact absurd (complete_iff.mpr htext) h
  · refine ⟨init, last, hne, hlines, ?_⟩
    have hinit : ∀ l ∈ init ++ [last ++ line], sep ∉ l := by
      intro l hl
      rcases List.mem_append.mp hl with hl | hl
      · exact not_mem_of_getlines (by rw [hlines]; exact List.mem_append_left _ hl)
      · rw [List.mem_singleton.mp hl, List.mem_append]
        exact fun hor => hor.elim hmem hline
    rw [htext, ← getlines_unlines hinit]
    simp

omit [LawfulBEq α] in
theorem length_splitOn (sep : α) (text : List α) :
    (text.splitOn sep).length = text.count sep + 1 := by
  induction text with
  | nil => rw [List.splitOn_nil]; rfl
  | cons a text ih =>
    rw [List.splitOn_cons_eq_if_modifyHead, List.count_cons]
    split
    · rw [List.length_cons, ih]
    · rw [List.length_modifyHead, ih]

omit [LawfulBEq α] in
theorem getElem?_splitOn_of_getlines {i : ℕ} {part : List α} (h : (getlines sep text)[i]? = some part) :
    (text.splitOn sep)[i]? = some part := by
  rw [getlines] at h
  split at h
  · rw [List.getElem?_dropLast] at h
    split at h
    · exact h
    · exact nomatch h
  · exact h

omit [LawfulBEq α] in
/-- Only an empty part at the end is not read. -/
theorem getElem?_getlines_of_splitOn {i : ℕ} {part : List α} (h : (text.splitOn sep)[i]? = some part)
    (hne : part ≠ []) : (getlines sep text)[i]? = some part := by
  rw [getlines]
  split
  · next hlast =>
    rw [List.isEmpty_iff] at hlast
    obtain hnil | ⟨init, last, hparts⟩ := List.eq_nil_or_concat (text.splitOn sep)
    · exact absurd hnil (List.splitOn_ne_nil sep text)
    · rw [hparts, List.concat_eq_append] at h hlast ⊢
      rw [List.getLastD_concat] at hlast
      rw [List.dropLast_concat]
      rcases Nat.lt_trichotomy i init.length with hlt | heq | hgt
      · rwa [List.getElem?_append_left hlt] at h
      · rw [heq, List.getElem?_concat_length, hlast] at h
        exact absurd (Option.some.inj h).symm hne
      · rw [List.getElem?_eq_none (by rw [List.length_append, List.length_singleton]; omega)] at h
        exact nomatch h
  · exact h

omit [LawfulBEq α] in
theorem length_getlines_bounds (sep : α) (text : List α) :
    (getlines sep text).length ≤ (text.splitOn sep).length ∧
      (text.splitOn sep).length ≤ (getlines sep text).length + 1 := by
  rw [getlines]
  split
  · rw [List.length_dropLast]
    omega
  · omega

theorem infix_of_mem_splitOn {part : List α} (h : part ∈ text.splitOn sep) : part <:+: text := by
  obtain ⟨init, last, hparts, htext⟩ := exists_unlines sep text
  rw [hparts] at h
  rw [htext]
  rcases List.mem_append.mp h with hinit | hlast
  · obtain ⟨before, after, rfl⟩ := List.append_of_mem hinit
    exact ⟨unlines sep before, sep :: unlines sep after ++ last, by simp [unlines]⟩
  · rw [List.mem_singleton.mp hlast]
    exact (List.suffix_append _ _).isInfix

theorem infix_of_mem_getlines {part : List α} (h : part ∈ getlines sep text) : part <:+: text := by
  rw [getlines] at h
  split at h
  · exact infix_of_mem_splitOn (List.dropLast_subset _ h)
  · exact infix_of_mem_splitOn h

/-- Parts have nothing that the text does not have. -/
theorem mem_of_mem_getlines {part : List α} (h : part ∈ getlines sep text) {b : α} (hb : b ∈ part) :
    b ∈ text :=
  (infix_of_mem_getlines h).subset hb

/-- A part that is neither the first nor the last stands between two
separators. -/
theorem infix_of_splitOn {i : ℕ} {part : List α} (h : (text.splitOn sep)[i + 1]? = some part)
    (hlast : i + 2 < (text.splitOn sep).length) : sep :: (part ++ [sep]) <:+: text := by
  obtain ⟨init, last, hparts, htext⟩ := exists_unlines sep text
  rw [hparts, List.length_append, List.length_singleton] at hlast
  have hi : i < init.length := by omega
  have hnext : i + 1 < init.length := by omega
  rw [hparts, List.getElem?_append_left hnext, List.getElem?_eq_getElem hnext] at h
  have hsplit : init = init.take i ++ (init[i] :: part :: init.drop (i + 2)) := by
    conv_lhs => rw [← List.take_append_drop i init, List.drop_eq_getElem_cons hi,
      List.drop_eq_getElem_cons hnext, Option.some.inj h]
  rw [htext, hsplit]
  refine ⟨unlines sep (init.take i) ++ init[i], unlines sep (init.drop (i + 2)) ++ last, ?_⟩
  simp [unlines]

/-! ## Joined parts -/

omit [BEq α] [LawfulBEq α] in
theorem not_mem_intercalate {b : α} (hsep : b ≠ sep) (h : ∀ part ∈ parts, b ∉ part) :
    b ∉ [sep].intercalate parts := by
  obtain rfl | ⟨init, last, rfl⟩ := List.eq_nil_or_concat parts
  · exact List.not_mem_nil
  · rw [List.concat_eq_append] at h ⊢
    rw [intercalate_concat]
    intro hb
    rcases List.mem_append.mp hb with hb | hb
    · obtain ⟨part, hpart, hb⟩ := List.mem_flatMap.mp hb
      rcases List.mem_append.mp hb with hb | hb
      · exact h part (List.mem_append_left _ hpart) hb
      · exact hsep (List.mem_singleton.mp hb)
    · exact h last (by simp) hb

/-! ## Lines that are rewritten -/

/-- The text with the lines of `p` replaced; a text without one is left
alone. -/
def rewriteLines (sep : α) (p : List α → Bool) (f : List α → List α) (text : List α) : List α :=
  if (getlines sep text).any p then
    unlines sep ((getlines sep text).map fun line => if p line then f line else line)
  else text

variable {p : List α → Bool} {f : List α → List α}

omit [LawfulBEq α] in
theorem rewriteLines_of_none (h : ∀ line ∈ getlines sep text, p line = false) :
    rewriteLines sep p f text = text :=
  if_neg (by simpa using h)

omit [LawfulBEq α] in
/-- A text that was rewritten is complete. -/
theorem complete_rewriteLines (h : ∃ line ∈ getlines sep text, p line = true) :
    Complete sep (rewriteLines sep p f text) := by
  rw [rewriteLines, if_pos (List.any_eq_true.mpr h)]
  exact complete_unlines sep _

omit [LawfulBEq α] in
theorem rewriteLines_cases (sep : α) (p : List α → Bool) (f : List α → List α) (text : List α) :
    rewriteLines sep p f text = text ∨ Complete sep (rewriteLines sep p f text) := by
  by_cases h : ∃ line ∈ getlines sep text, p line = true
  · exact .inr (complete_rewriteLines h)
  · refine .inl (rewriteLines_of_none fun line hmem => ?_)
    exact Bool.eq_false_iff.mpr fun hp => h ⟨line, hmem, hp⟩

section Rewrite

variable (hf : ∀ line, sep ∉ line → sep ∉ f line)

include hf

theorem getlines_rewriteLines (p : List α → Bool) (text : List α) :
    getlines sep (rewriteLines sep p f text) =
      (getlines sep text).map fun line => if p line then f line else line := by
  rw [rewriteLines]
  split
  · refine getlines_unlines fun line hline => ?_
    obtain ⟨line, hmem, rfl⟩ := List.mem_map.mp hline
    have hline := not_mem_of_getlines hmem
    split
    · exact hf line hline
    · exact hline
  · next hnone =>
    conv_lhs => rw [← List.map_id (getlines sep text)]
    refine List.map_congr_left fun line hmem => ?_
    rw [if_neg fun hp => hnone (List.any_eq_true.mpr ⟨line, hmem, hp⟩)]
    rfl

/-- **When rewriting is settled.** Rewriting leaves a text as it is if and
only if no line is to be replaced, or the text is complete and each line
to be replaced is as it should be. -/
theorem rewriteLines_eq_iff : rewriteLines sep p f text = text ↔
    (∀ line ∈ getlines sep text, p line = true → f line = line) ∧
      ((∃ line ∈ getlines sep text, p line = true) → Complete sep text) := by
  have hlines := getlines_rewriteLines hf p text
  constructor
  · intro heq
    rw [heq] at hlines
    refine ⟨fun line hmem hp => ?_, fun hsome => heq ▸ complete_rewriteLines hsome⟩
    have hfixed := List.map_inj_left.mp (((List.map_id _).trans hlines).symm) line hmem
    rwa [if_pos hp] at hfixed
  · rintro ⟨hfixed, hcomplete⟩
    by_cases hsome : ∃ line ∈ getlines sep text, p line = true
    · -- both are complete, so they are the same lines
      have hmap : (getlines sep text).map (fun line => if p line then f line else line) =
          getlines sep text := by
        conv_rhs => rw [← List.map_id (getlines sep text)]
        refine List.map_congr_left fun line hmem => ?_
        split
        · next hp => exact hfixed line hmem hp
        · rfl
      rw [complete_iff.mp (complete_rewriteLines hsome), hlines, hmap]
      exact (complete_iff.mp (hcomplete hsome)).symm
    · refine rewriteLines_of_none fun line hmem => ?_
      exact Bool.eq_false_iff.mpr fun hp => hsome ⟨line, hmem, hp⟩

end Rewrite

/-! ## A line that has to be there -/

/-- The text, with a line appended unless it has what is looked for. -/
def ensureLine (sep : α) (has : List α → Bool) (line text : List α) : List α :=
  if has text then text else text ++ (line ++ [sep])

/-- Rewriting and then appending leaves a text as it is only if both
do. -/
theorem ensureLine_rewriteLines_eq_iff (hf : ∀ line, sep ∉ line → sep ∉ f line)
    {has : List α → Bool} {line : List α} :
    ensureLine sep has line (rewriteLines sep p f text) = text ↔
      rewriteLines sep p f text = text ∧ has text = true := by
  constructor
  · intro heq
    by_cases hhas : has (rewriteLines sep p f text) = true
    · rw [ensureLine, if_pos hhas] at heq
      exact ⟨heq, heq ▸ hhas⟩
    · exfalso
      rw [ensureLine, if_neg hhas] at heq
      rcases rewriteLines_cases sep p f text with hsame | hcomplete
      · have hlength := congrArg List.length heq
        rw [hsame, List.length_append, List.length_append, List.length_singleton] at hlength
        omega
      · -- rewriting keeps the number of lines, appending does not
        have hlines := congrArg (getlines sep) heq
        rw [getlines_append hcomplete, getlines_rewriteLines hf] at hlines
        have hlength := congrArg List.length hlines
        have hpos : 0 < (getlines sep (line ++ [sep])).length := by
          refine List.length_pos_iff.mpr fun hnil => ?_
          rcases text_cases sep (line ++ [sep]) with htext | ⟨init, last, -, -, -, hlast⟩
          · rw [hnil] at htext
            exact List.append_ne_nil_of_right_ne_nil line (List.cons_ne_nil sep []) htext
          · rw [hnil] at hlast
            exact List.append_ne_nil_of_right_ne_nil init (List.cons_ne_nil last []) hlast.symm
        rw [List.length_append, List.length_map] at hlength
        omega
  · rintro ⟨hsame, hhas⟩
    rw [ensureLine, hsame, if_pos hhas]

end Muplar
