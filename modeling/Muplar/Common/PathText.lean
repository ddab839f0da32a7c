import Muplar.Common.Path
/-!
# Paths and their text

A path that was spelled by a string has names without separators, and an
empty name only at its end. For such a path `string` and `ofString` are
inverse to each other.
-/

namespace Muplar

theorem not_mem_of_splitOn {α : Type*} [BEq α] [LawfulBEq α] {sep : α} {s part : List α}
    (h : part ∈ s.splitOn sep) : sep ∉ part := by
  induction s generalizing part with
  | nil =>
    rw [List.splitOn_nil, List.mem_singleton] at h
    rw [h]
    exact List.not_mem_nil
  | cons a s ih =>
    rw [List.splitOn_cons_eq_if_modifyHead] at h
    split at h
    · rcases List.mem_cons.mp h with rfl | h
      · exact List.not_mem_nil
      · exact ih h
    · next hne =>
      obtain ⟨first, parts, hparts⟩ := List.exists_cons_of_ne_nil (List.splitOn_ne_nil sep s)
      rw [hparts, List.modifyHead_cons] at h
      rcases List.mem_cons.mp h with rfl | h
      · intro hmem
        rcases List.mem_cons.mp hmem with rfl | hmem
        · exact hne (beq_self_eq_true _)
        · exact ih (by rw [hparts]; exact List.mem_cons_self) hmem
      · exact ih (by rw [hparts]; exact List.mem_cons_of_mem _ h)

/-- Where the last part stands in a text put together. -/
theorem intercalate_concat {α : Type*} (sep : α) (parts : List (List α)) (last : List α) :
    [sep].intercalate (parts ++ [last]) = parts.flatMap (· ++ [sep]) ++ last := by
  induction parts with
  | nil => simp
  | cons part parts ih =>
    rw [List.cons_append, List.intercalate_cons_of_ne_nil (by simp), ih, List.flatMap_cons]
    simp

/-- The first part, and each of the others behind a separator. -/
theorem intercalate_cons_eq {α : Type*} (sep : α) (first : List α) (parts : List (List α)) :
    [sep].intercalate (first :: parts) = first ++ parts.flatMap (sep :: ·) := by
  induction parts generalizing first with
  | nil => simp
  | cons part parts ih =>
    rw [List.intercalate_cons_of_ne_nil (List.cons_ne_nil _ _), ih, List.flatMap_cons]
    simp

namespace Path

/-- **What a string spells.** No name has a separator, and only the last
of several is empty. -/
structure Spelled (p : Path) : Prop where
  separated : ∀ n ∈ p.names, slash ∉ n
  inner : ∀ n ∈ p.names.dropLast, n ≠ []
  several : p.names ≠ [[]]

theorem spelled_ofString (s : Bytes) : (ofString s).Spelled := by
  have hparts : ∀ n ∈ (s.splitOn slash).filter (· ≠ []), slash ∉ n ∧ n ≠ [] := by
    intro n hn
    obtain ⟨hmem, hne⟩ := List.mem_filter.mp hn
    exact ⟨not_mem_of_splitOn hmem, of_decide_eq_true hne⟩
  rw [ofString]
  generalize (s.splitOn slash).filter (· ≠ []) = parts at hparts
  by_cases hopen : parts ≠ [] ∧ s.getLast? = some slash
  · simp only [if_pos hopen]
    refine ⟨fun n hn => ?_, fun n hn => ?_, fun heq => ?_⟩
    · rcases List.mem_append.mp hn with hn | hn
      · exact (hparts n hn).1
      · rw [List.mem_singleton.mp hn]
        exact List.not_mem_nil
    · rw [List.dropLast_concat] at hn
      exact (hparts n hn).2
    · exact hopen.1 (by simpa using heq)
  · simp only [if_neg hopen]
    refine ⟨fun n hn => (hparts n hn).1, fun n hn => (hparts n (List.dropLast_subset _ hn)).2,
      fun heq => (hparts [] ?_).2 rfl⟩
    rw [show parts = [[]] from heq]
    exact List.mem_singleton.mpr rfl

theorem splitOn_string {p : Path} (h : p.Spelled) (hne : p.names ≠ []) :
    p.string.splitOn slash = (if p.rooted then [[]] else []) ++ p.names := by
  have hnames : ([slash].intercalate p.names).splitOn slash = p.names :=
    List.splitOn_intercalate slash h.separated hne
  rw [string]
  cases p.rooted with
  | false => rw [if_neg Bool.false_ne_true, List.nil_append, hnames]; rfl
  | true =>
    have hsplit := List.splitOn_append_cons_self_of_not_mem (List.not_mem_nil (a := slash))
      ([slash].intercalate p.names)
    rw [hnames] at hsplit
    exact hsplit

/-- A path that is not rooted starts with a name, not with a separator. -/
theorem head_string {p : Path} (h : p.Spelled) : p.string.head? = some slash ↔ p.rooted = true := by
  obtain ⟨rooted, names⟩ := p
  cases rooted with
  | true => exact ⟨fun _ => rfl, fun _ => rfl⟩
  | false =>
    refine ⟨fun hhead => ?_, fun hfalse => absurd hfalse Bool.false_ne_true⟩
    cases names with
    | nil => cases hhead
    | cons name names =>
      have hname : name ≠ [] := by
        cases names with
        | nil =>
          rintro rfl
          exact h.several rfl
        | cons next names => exact h.inner name (by simp)
      obtain ⟨b, rest, rfl⟩ := List.exists_cons_of_ne_nil hname
      have hb : some b = some slash := by
        rw [← hhead]
        cases names with
        | nil => rfl
        | cons next names => rfl
      exact absurd (by rw [Option.some.inj hb]; exact List.mem_cons_self)
        (h.separated (b :: rest) List.mem_cons_self)

/-- **A path is read back from its text.** -/
theorem ofString_string {p : Path} (h : p.Spelled) : ofString p.string = p := by
  have hhead := head_string h
  obtain ⟨rooted, names⟩ := p
  rcases List.eq_nil_or_concat names with rfl | ⟨init, last, rfl⟩
  · cases rooted <;> rfl
  rw [List.concat_eq_append] at h hhead ⊢
  have hinner : ∀ n ∈ init, n ≠ [] := by
    intro n hn
    refine h.inner n ?_
    show n ∈ (init ++ [last]).dropLast
    rwa [List.dropLast_concat]
  have hroot : decide ((⟨rooted, init ++ [last]⟩ : Path).string.head? = some slash) = rooted := by
    rw [decide_eq_decide.mpr hhead]
    exact Bool.decide_coe rooted
  have htext : (⟨rooted, init ++ [last]⟩ : Path).string =
      (if rooted then [slash] else []) ++ init.flatMap (· ++ [slash]) ++ last := by
    rw [List.append_assoc, ← intercalate_concat]
    rfl
  have hparts : ((⟨rooted, init ++ [last]⟩ : Path).string.splitOn slash).filter (· ≠ []) =
      init ++ [last].filter (· ≠ []) := by
    rw [splitOn_string h (by simp), List.filter_append, List.filter_append,
      List.filter_eq_self.mpr fun n hn => decide_eq_true (hinner n hn)]
    cases rooted <;> rfl
  rw [ofString, hparts, hroot]
  by_cases hlast : last = []
  · -- the text ends in the separator after the last name
    subst hlast
    have hinit : init ≠ [] := by
      rintro rfl
      exact h.several rfl
    have hend : (⟨rooted, init ++ [[]]⟩ : Path).string.getLast? = some slash := by
      obtain ⟨front, name, rfl⟩ := List.eq_nil_or_concat init |>.resolve_left hinit
      rw [htext, List.append_nil, List.concat_eq_append, List.flatMap_append]
      simp
    simp [hend, hinit]
  · have hend : (⟨rooted, init ++ [last]⟩ : Path).string.getLast? ≠ some slash := by
      rw [htext, List.getLast?_append_of_ne_nil _ hlast]
      intro hslash
      exact h.separated last (by simp) (List.mem_of_getLast? hslash)
    simp [hend, hlast]

/-- A path below a spelled one is spelled. -/
theorem Spelled.join {p q : Path} (hp : p.Spelled) (hq : q.Spelled) (hne : q.names ≠ []) :
    (p.join q).Spelled := by
  unfold Path.join
  split
  · exact hq
  have hclosed : ∀ n ∈ Path.closed p.names, Path.slash ∉ n ∧ n ≠ [] := by
    intro n hn
    rw [Path.closed] at hn
    split at hn
    · exact ⟨hp.separated n (List.dropLast_subset _ hn), hp.inner n hn⟩
    · next hlast =>
      refine ⟨hp.separated n hn, ?_⟩
      rintro rfl
      obtain hnil | ⟨init, last, hsplit⟩ := List.eq_nil_or_concat p.names
      · rw [hnil] at hn
        exact absurd hn List.not_mem_nil
      · rw [hsplit, List.concat_eq_append] at hn hlast
        rcases List.mem_append.mp hn with hn | hn
        · refine hp.inner [] ?_ rfl
          rwa [hsplit, List.concat_eq_append, List.dropLast_concat]
        · rw [List.getLast?_concat, ← List.mem_singleton.mp hn] at hlast
          exact hlast rfl
  refine ⟨fun n hn => ?_, fun n hn => ?_, fun heq => ?_⟩
  · rcases List.mem_append.mp hn with hn | hn
    · exact (hclosed n hn).1
    · exact hq.separated n hn
  · rw [List.dropLast_append_of_ne_nil hne] at hn
    rcases List.mem_append.mp hn with hn | hn
    · exact (hclosed n hn).2
    · exact hq.inner n hn
  · -- the last name is the last of `q`, which then is alone
    rcases List.append_eq_singleton_iff.mp heq with ⟨-, hnames⟩ | ⟨-, hnil⟩
    · exact hq.several hnames
    · exact hne hnil

end Path

end Muplar
