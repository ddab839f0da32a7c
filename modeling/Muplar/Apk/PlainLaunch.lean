import Muplar.Apk.ManifestTree
/-!
# APK — the text of a manifest, searched

What the text search for the launcher sees of the text of a tree. It
comes to the tags of activities and nothing else, and reads their names
as they are written; but it takes an element to end with the next closing
tag, so that the element of an activity without one has the activities
after it inside.
-/

namespace Muplar

namespace Apk

/-! ## What is written for a value -/

/-- The characters that are not written as they are. -/
def Special (c : UInt8) : Prop :=
  c = 34 ∨ c = 38 ∨ c = 60 ∨ c = 62

instance (c : UInt8) : Decidable (Special c) :=
  inferInstanceAs (Decidable (_ ∨ _))

def entities : List Bytes :=
  [ascii "quot", ascii "amp", ascii "lt", ascii "gt"]

theorem escapeChar_cases (c : UInt8) :
    (¬Special c ∧ escapeChar c = [c]) ∨
      (Special c ∧ ∃ entity ∈ entities, escapeChar c = 38 :: (entity ++ [59])) := by
  rw [escapeChar, Special]
  by_cases hquot : c = 34
  · exact Or.inr ⟨Or.inl hquot, ascii "quot", by decide, by rw [if_pos hquot]; decide⟩
  by_cases hamp : c = 38
  · exact Or.inr ⟨Or.inr (Or.inl hamp), ascii "amp", by decide,
      by rw [if_neg hquot, if_pos hamp]; decide⟩
  by_cases hlt : c = 60
  · exact Or.inr ⟨Or.inr (Or.inr (Or.inl hlt)), ascii "lt", by decide,
      by rw [if_neg hquot, if_neg hamp, if_pos hlt]; decide⟩
  by_cases hgt : c = 62
  · exact Or.inr ⟨Or.inr (Or.inr (Or.inr hgt)), ascii "gt", by decide,
      by rw [if_neg hquot, if_neg hamp, if_neg hlt, if_pos hgt]; decide⟩
  · refine Or.inl ⟨by simp [hquot, hamp, hlt, hgt], ?_⟩
    rw [if_neg hquot, if_neg hamp, if_neg hlt, if_neg hgt]

/-- Nothing of the text around a value is in what is written for it. -/
theorem not_mem_escape {c : UInt8} (hc : c = 34 ∨ c = 60 ∨ c = 62) (value : Bytes) :
    c ∉ escape value := by
  intro hmem
  obtain ⟨d, -, hd⟩ := List.mem_flatMap.mp hmem
  rcases escapeChar_cases d with ⟨hplain, heq⟩ | ⟨-, entity, hentity, heq⟩
  · rw [heq, List.mem_singleton] at hd
    subst hd
    exact hplain (by rcases hc with h | h | h <;> simp [Special, h])
  · have hnone : ∀ entity ∈ entities, ∀ c ∈ ([34, 60, 62] : Bytes), c ∉ 38 :: (entity ++ [59]) := by
      decide +kernel
    rw [heq] at hd
    exact hnone entity hentity c (by rcases hc with h | h | h <;> simp [h]) hd

/-- A text an entity has no part in. -/
structure Literal (needle : Bytes) : Prop where
  special : ∀ c ∈ needle, c ≠ 34 ∧ c ≠ 38 ∧ c ≠ 60 ∧ c ≠ 62 ∧ c ≠ 59
  entity : ∀ entity ∈ entities, ¬needle <:+: entity

theorem Literal.not_mem {needle : Bytes} (h : Literal needle) {c : UInt8}
    (hc : Special c ∨ c = 59) : c ∉ needle := by
  intro hmem
  obtain ⟨h₁, h₂, h₃, h₄, h₅⟩ := h.special c hmem
  rcases hc with (hc | hc | hc | hc) | hc <;> contradiction

/-- Such a text is in what is written for a value when it is in the value. -/
theorem Literal.isInfix_escape {needle : Bytes} (h : Literal needle) (before value : Bytes) :
    needle <:+: before ++ escape value ↔ needle <:+: before ++ value := by
  induction value generalizing before with
  | nil => exact Iff.rfl
  | cons c value ih =>
    rw [escape, List.flatMap_cons, ← escape]
    rcases escapeChar_cases c with ⟨-, heq⟩ | ⟨hc, entity, hentity, heq⟩
    · rw [heq, ← List.append_assoc, ih, List.append_assoc]
      rfl
    · -- the text does not reach into the entity from either side
      rw [heq, List.cons_append, isInfix_append_cons_iff (h.not_mem (by simp [Special])),
        List.append_assoc, List.singleton_append,
        isInfix_append_cons_iff (h.not_mem (by simp)), isInfix_append_cons_iff (h.not_mem (.inl hc))]
      have hvalue := ih []
      rw [List.nil_append, List.nil_append] at hvalue
      rw [hvalue]
      simp [h.entity entity hentity]

/-! ## Searching for tags -/

/-- What a search for `<` and `s` passes over. -/
def Passes (s stretch : Bytes) : Prop :=
  ∀ rest, search (60 :: s) (stretch ++ rest) =
    (search (60 :: s) rest).map (stretch.length + ·)

theorem passes_nil (s : Bytes) : Passes s [] := by
  intro rest
  simp

theorem passes_of_not_mem {s stretch : Bytes} (h : 60 ∉ stretch) : Passes s stretch :=
  fun rest => search_skip h rest

theorem passes_gt {s : Bytes} : Passes s [62] :=
  passes_of_not_mem (by decide)

theorem Passes.append {s a b : Bytes} (ha : Passes s a) (hb : Passes s b) : Passes s (a ++ b) := by
  intro rest
  rw [List.append_assoc, ha, hb, Option.map_map, List.length_append]
  congr 1
  funext n
  simp only [Function.comp]
  omega

/-- A tag without brackets inside that does not start with `s`. -/
structure Passed (s tag : Bytes) : Prop where
  clean : 60 ∉ tag
  other : ∀ rest, ¬s <+: tag ++ 62 :: rest

theorem Passed.passes {s tag : Bytes} (h : Passed s tag) : Passes s (60 :: (tag ++ [62])) := by
  intro rest
  have hne : ¬60 :: s <+: 60 :: (tag ++ 62 :: rest) := by
    intro hpre
    exact h.other rest (List.cons_prefix_cons.mp hpre).2
  have hskip : 60 ∉ tag ++ [62] := by
    rw [List.mem_append, not_or]
    exact ⟨h.clean, by decide⟩
  have htext : 60 :: (tag ++ [62]) ++ rest = 60 :: (tag ++ 62 :: rest) := by simp
  rw [htext, search, if_neg hne, ← List.singleton_append (l := rest), ← List.append_assoc,
    search_skip hskip, Option.map_map]
  congr 1
  funext n
  simp only [Function.comp, List.length_cons]
  omega

theorem passes_tagsText {s : Bytes} {tags : List Bytes} (h : ∀ tag ∈ tags, Passed s tag) :
    Passes s (tagsText tags) := by
  induction tags with
  | nil => exact passes_nil s
  | cons tag tags ih =>
    rw [List.forall_mem_cons] at h
    rw [tagsText, List.flatMap_cons]
    exact h.1.passes.append (ih h.2)

/-- A tag is passed that starts as `start` does, where `s` does not. -/
theorem Passed.of_start {s tag : Bytes} (start : Bytes) (hstart : start <+: tag) (hclean : 60 ∉ tag)
    (hne : s.take start.length ≠ start.take s.length) : Passed s tag := by
  refine ⟨hclean, fun rest hpre => hne ?_⟩
  obtain ⟨more, rfl⟩ := hstart
  rw [List.append_assoc] at hpre
  exact take_eq_of_isPrefix_append hpre

/-! ## The tags of a manifest -/

theorem not_mem_namedTag {c : UInt8} (hc : c = 60 ∨ c = 62) (element : Element) (name : Bytes)
    {tail : Bytes} (htail : tail = [] ∨ tail = ascii "/") : c ∉ namedTag element name tail := by
  have hfixed : c ∉ ascii element.name ++ ascii " android:name=" := by
    rcases hc with rfl | rfl <;> cases element <;> decide
  have hend : c ∉ 34 :: tail := by
    rcases hc with rfl | rfl <;> rcases htail with rfl | rfl <;> decide
  have hquote : c ≠ 34 := by
    rcases hc with rfl | rfl <;> decide
  have hvalue := not_mem_escape (.inr hc) name
  rw [namedTag]
  simp only [List.mem_append, List.mem_cons, not_or] at hfixed hend ⊢
  exact ⟨hfixed, hquote, hvalue, hend⟩

theorem FilterChild.tag_eq (child : FilterChild) :
    ∃ element, (element = .action ∨ element = .category) ∧
      child.tag = namedTag element child.name (ascii "/") := by
  cases child with
  | action name => exact ⟨.action, Or.inl rfl, rfl⟩
  | category name => exact ⟨.category, Or.inr rfl, rfl⟩

theorem element_isPrefix_namedTag (element : Element) (name tail : Bytes) :
    ascii element.name <+: namedTag element name tail := by
  rw [namedTag, List.append_assoc]
  exact List.prefix_append _ _

/-- Both searches pass over what is in an activity. -/
theorem passed_of_mem_filterTags {s : Bytes} (hs : s = ascii "activity" ∨ s = ascii "/activity>")
    {children : List FilterChild} {tag : Bytes} (h : tag ∈ filterTags children) : Passed s tag := by
  rw [filterTags, List.cons_append, List.mem_cons, List.mem_append, List.mem_map,
    List.mem_singleton] at h
  rcases h with rfl | ⟨child, -, rfl⟩ | rfl
  · refine Passed.of_start _ List.prefix_rfl (by decide) ?_
    rcases hs with rfl | rfl <;> decide
  · obtain ⟨element, helement, htag⟩ := child.tag_eq
    rw [htag]
    refine Passed.of_start _ (element_isPrefix_namedTag _ _ _)
      (not_mem_namedTag (.inl rfl) _ _ (.inr rfl)) ?_
    rcases helement with rfl | rfl <;> rcases hs with rfl | rfl <;> decide
  · refine Passed.of_start _ List.prefix_rfl (by decide) ?_
    rcases hs with rfl | rfl <;> decide

/-- The search for a closing tag passes over the tags that open. -/
theorem passed_activityTag (name : Bytes) {tail : Bytes} (htail : tail = [] ∨ tail = ascii "/") :
    Passed (ascii "/activity>") (namedTag .activity name tail) :=
  Passed.of_start _ (element_isPrefix_namedTag _ _ _) (not_mem_namedTag (.inl rfl) _ _ htail)
    (by decide)

theorem passes_closing {s : Bytes} (hs : s = ascii "activity" ∨ s = ascii "/activity>") :
    Passes s closing := by
  refine passes_tagsText fun tag htag => ?_
  rw [List.mem_cons, List.mem_singleton] at htag
  rcases htag with rfl | rfl
  · refine Passed.of_start _ List.prefix_rfl (by decide) ?_
    rcases hs with rfl | rfl <;> decide
  · refine Passed.of_start _ List.prefix_rfl (by decide) ?_
    rcases hs with rfl | rfl <;> decide

/-- The search for activities passes over what is before them. -/
theorem passes_opening (m : ManifestTree) : Passes (ascii "activity") m.opening := by
  refine passes_tagsText fun tag htag => ?_
  rw [List.mem_cons, List.mem_singleton] at htag
  rcases htag with rfl | rfl
  · refine Passed.of_start (ascii Element.manifest.name) ?_ ?_ (by decide)
    · rw [List.append_assoc]
      exact List.prefix_append _ _
    · have hvalue := not_mem_escape (.inr (.inl rfl)) m.package
      have hfixed : (60 : UInt8) ∉ ascii Element.manifest.name ++ ascii " xmlns:android=" ++
          ascii androidUri ++ ascii " package=" := by decide
      simp only [List.mem_append, List.mem_cons, not_or] at hfixed ⊢
      refine ⟨hfixed.1.1, by decide, hfixed.1.2, by decide, hfixed.2, by decide, hvalue, by decide⟩
  · exact Passed.of_start _ List.prefix_rfl (by decide) (by decide)

/-! ## The name on a tag -/

/-- The tag of an activity from the name of its attribute on. -/
theorem activityTag_eq (name tail : Bytes) :
    60 :: (namedTag .activity name tail ++ [62]) =
      ascii "<activity " ++ (ascii "android:name" ++ (61 :: 34 :: (escape name ++
        34 :: (tail ++ [62])))) := by
  have hhead : 60 :: (ascii Element.activity.name ++ ascii " android:name=") =
      ascii "<activity " ++ (ascii "android:name" ++ [61]) := by decide
  rw [namedTag, ← List.cons_append, ← List.cons_append, hhead]
  simp only [List.append_assoc, List.cons_append, List.nil_append]

/-- The attribute's name is not found before it is. -/
theorem search_androidName (rest : Bytes) :
    search (ascii "android:name") (ascii "<activity " ++ (ascii "android:name" ++ rest)) =
      some 10 := by
  have hneedle : ascii "android:name" = 97 :: 110 :: ascii "droid:name" := by decide
  have hbefore : ascii "<activity " = 60 :: 97 :: 99 :: ascii "tivity " := by decide
  have hskip : search (97 :: 110 :: ascii "droid:name")
      (99 :: ascii "tivity " ++ (ascii "android:name" ++ rest)) = _ :=
    search_skip (by decide) _
  have hfound : search (ascii "android:name") (ascii "android:name" ++ rest) = some 0 :=
    search_of_isPrefix (List.prefix_append _ _)
  have hne : ¬97 :: 110 :: ascii "droid:name" <+:
      97 :: (99 :: ascii "tivity " ++ (ascii "android:name" ++ rest)) := by
    intro hpre
    have hnext := (List.cons_prefix_cons.mp hpre).2
    exact absurd (List.cons_prefix_cons.mp hnext).1 (by decide)
  rw [← hneedle] at hskip hne
  rw [hbefore, List.cons_append, List.cons_append, search, if_neg, search, if_neg hne, hskip, hfound]
  · rfl
  · rw [hneedle]
    intro hpre
    exact absurd (List.cons_prefix_cons.mp hpre).1 (by decide)

/-- A quoted value is read up to its quote, where the attribute's name is
not found before the attribute. -/
theorem tagAttribute_eq {tag attr before value after : Bytes}
    (htag : tag = before ++ (attr ++ (61 :: 34 :: (value ++ 34 :: after))))
    (hfirst : search attr tag = some before.length) (hvalue : 34 ∉ value) :
    tagAttribute tag attr = some value := by
  have hattr : find tag attr 0 = some before.length := by
    have hsplit := find_split (List.nil_append tag).symm rfl attr
    rw [hfirst, Option.map_some, List.length_nil, Nat.zero_add] at hsplit
    exact hsplit
  have hequals : tag = (before ++ attr) ++ 61 :: (34 :: (value ++ 34 :: after)) := by
    rw [htag, List.append_assoc]
  have hopen : tag = (before ++ attr ++ [61]) ++ 34 :: (value ++ 34 :: after) := by
    rw [hequals, List.append_assoc _ [61], List.singleton_append]
  have hinside : tag = (before ++ attr ++ [61, 34]) ++ (value ++ 34 :: after) := by
    rw [hequals]
    simp
  have hlen : (before ++ attr ++ [61]).length = before.length + attr.length + 1 := by simp; omega
  have heq : find tag (ascii "=") (before.length + attr.length) =
      some (before.length + attr.length) := by
    have hneedle : ascii "=" = [61] := by decide
    rw [find_split hequals (by simp), search_of_isPrefix (by simp [hneedle])]
    rfl
  have hquote : findFirstOf tag [34, 39] (before.length + attr.length + 1) =
      some (before.length + attr.length + 1) :=
    findFirstOf_split hopen hlen.symm (by decide)
  have hchar : tag.getD (before.length + attr.length + 1) 0 = 34 := by
    rw [hopen, List.getD_eq_getElem?_getD, List.getElem?_append_right (by omega), hlen,
      Nat.sub_self]
    rfl
  have hclose : find tag [34] (before.length + attr.length + 1 + 1) =
      some (before.length + attr.length + 1 + 1 + value.length) := by
    rw [find_split hinside (by simp; omega), search_skip hvalue, search_of_isPrefix (by simp)]
    rfl
  rw [tagAttribute, hattr]
  simp only [Option.bind_eq_bind, Option.bind_some, heq, hquote, hchar, hclose, Option.pure_def]
  congr 1
  rw [hinside]
  exact slice_append (by simp; omega) (by omega)

/-- A tag's name is read as it is written. -/
theorem tagName_activityTag (name tail : Bytes) :
    tagName (60 :: (namedTag .activity name tail ++ [62])) = some (escape name) := by
  have hfirst : search (ascii "android:name") (60 :: (namedTag .activity name tail ++ [62])) =
      some (ascii "<activity ").length := by
    rw [activityTag_eq, search_androidName]
    decide
  rw [tagName, tagAttribute_eq (activityTag_eq name tail) hfirst (not_mem_escape (.inl rfl) name)]
  rfl

/-! ## What is in a block -/

/-- The text between the values of activities. -/
def fixedTexts : List Bytes :=
  [[], ascii "/"] ++
    [Element.activity, .action, .category].map (fun e => ascii e.name ++ ascii " android:name=") ++
    [ascii Element.intentFilter.name, closingTag .intentFilter, closingTag .activity]

/-- A text that is not found in a manifest unless a value has it. -/
structure Marker (needle : Bytes) : Prop extends Literal needle where
  fixed : ∀ text ∈ fixedTexts, ¬needle <:+: text

/-- What the search looks for are markers. -/
theorem marker_of_mem {needle : String} (h : needle ∈ mainAction :: launcherCategories) :
    Marker (ascii needle) := by
  have hspecial : ∀ needle ∈ mainAction :: launcherCategories, ∀ c ∈ ascii needle,
      c ≠ 34 ∧ c ≠ 38 ∧ c ≠ 60 ∧ c ≠ 62 ∧ c ≠ 59 := by
    decide +kernel
  have hshorter : ∀ needle ∈ mainAction :: launcherCategories, ∀ text ∈ entities ++ fixedTexts,
      text.length < (ascii needle).length := by
    decide +kernel
  have hfixed : ∀ text ∈ entities ++ fixedTexts, ¬ascii needle <:+: text := fun text htext hinfix =>
    absurd hinfix.length_le (Nat.not_le.mpr (hshorter needle h text htext))
  refine ⟨⟨hspecial needle h, fun entity hentity => ?_⟩, fun text htext => ?_⟩
  · exact hfixed entity (List.mem_append_left _ hentity)
  · exact hfixed text (List.mem_append_right _ htext)

section Marker

variable {needle : Bytes}

theorem Marker.isInfix_tagsText (h : Marker needle) (tags : List Bytes) :
    needle <:+: tagsText tags ↔ ∃ tag ∈ tags, needle <:+: tag := by
  have hempty := h.fixed [] (by decide)
  induction tags with
  | nil => exact iff_of_false hempty (by simp)
  | cons tag tags ih =>
    have htext : tagsText (tag :: tags) = [] ++ 60 :: (tag ++ 62 :: tagsText tags) := by
      rw [tagsText, List.flatMap_cons, ← tagsText]
      simp
    have hlt : 60 ∉ needle := h.not_mem (by simp [Special])
    have hgt : 62 ∉ needle := h.not_mem (by simp [Special])
    rw [htext, isInfix_append_cons_iff hlt, isInfix_append_cons_iff hgt, List.exists_mem_cons_iff,
      or_iff_right hempty]
    exact or_congr Iff.rfl ih

theorem Marker.isInfix_namedTag (h : Marker needle) {element : Element} {tail : Bytes}
    (helement : ascii element.name ++ ascii " android:name=" ∈ fixedTexts)
    (htail : tail ∈ fixedTexts) (name : Bytes) :
    needle <:+: namedTag element name tail ↔ needle <:+: name := by
  have hescape := h.isInfix_escape [] name
  rw [List.nil_append, List.nil_append] at hescape
  rw [namedTag, isInfix_append_cons_iff (h.not_mem (by simp [Special])),
    isInfix_append_cons_iff (h.not_mem (by simp [Special])), hescape]
  simp [h.fixed _ helement, h.fixed _ htail]

theorem Marker.isInfix_child (h : Marker needle) (child : FilterChild) :
    needle <:+: child.tag ↔ needle <:+: child.name := by
  obtain ⟨element, helement, htag⟩ := child.tag_eq
  rw [htag]
  rcases helement with rfl | rfl
  · exact h.isInfix_namedTag (by decide) (by decide) _
  · exact h.isInfix_namedTag (by decide) (by decide) _

theorem Marker.isInfix_filter (h : Marker needle) (children : List FilterChild) :
    (∃ tag ∈ filterTags children, needle <:+: tag) ↔
      ∃ child ∈ children, needle <:+: child.name := by
  have hopen := h.fixed (ascii Element.intentFilter.name) (by decide)
  have hclose := h.fixed (closingTag .intentFilter) (by decide)
  rw [filterTags]
  simp only [List.cons_append, List.exists_mem_cons_iff, hopen, false_or, List.mem_append,
    List.mem_singleton, or_and_right, exists_or, exists_eq_left, hclose, or_false, List.mem_map,
    exists_exists_and_eq_and, h.isInfix_child]

theorem Marker.isInfix_activity (h : Marker needle) (a : Activity) :
    (∃ tag ∈ a.tags, needle <:+: tag) ↔ ∃ value ∈ a.values, needle <:+: value := by
  have hname : ∀ tail ∈ fixedTexts,
      (needle <:+: namedTag .activity a.name tail ↔ needle <:+: a.name) :=
    fun tail htail => h.isInfix_namedTag (by decide) htail _
  have hclose := h.fixed (closingTag .activity) (by decide)
  rw [Activity.tags, Activity.values, Activity.children]
  split
  · next hfilters => simp [hfilters, hname _ (by decide : ascii "/" ∈ fixedTexts)]
  · -- the values of the filters are those of their children
    have hfilters : (∃ tag ∈ a.filters.flatMap filterTags, needle <:+: tag) ↔
        ∃ value ∈ a.filters.flatten.map FilterChild.name, needle <:+: value := by
      simp only [List.mem_flatMap, List.mem_map, List.mem_flatten, exists_exists_and_eq_and]
      constructor
      · rintro ⟨tag, ⟨children, hmem, htag⟩, hin⟩
        obtain ⟨child, hchild, hin⟩ := (h.isInfix_filter children).mp ⟨tag, htag, hin⟩
        exact ⟨child, ⟨children, hmem, hchild⟩, hin⟩
      · rintro ⟨child, ⟨children, hmem, hchild⟩, hin⟩
        obtain ⟨tag, htag, hin⟩ := (h.isInfix_filter children).mpr ⟨child, hchild, hin⟩
        exact ⟨tag, ⟨children, hmem, htag⟩, hin⟩
    simp only [List.cons_append, List.exists_mem_cons_iff, hname [] (by decide),
      List.mem_append, List.mem_singleton, or_and_right, exists_or, exists_eq_left, hclose,
      or_false, hfilters]

end Marker

/-- A block has a launcher's text where one of its activities mentions it. -/
theorem Marker.isInfix_activitiesText {needle : String} (h : Marker (ascii needle))
    (block : List Activity) :
    ascii needle <:+: activitiesText block ↔ Mentions block needle := by
  rw [activitiesText, h.isInfix_tagsText, Mentions]
  simp only [List.mem_flatMap]
  constructor
  · rintro ⟨tag, ⟨a, ha, htag⟩, hin⟩
    exact ⟨a, ha, (h.isInfix_activity a).mp ⟨tag, htag, hin⟩⟩
  · rintro ⟨a, ha, hvalue⟩
    obtain ⟨tag, htag, hin⟩ := (h.isInfix_activity a).mpr hvalue
    exact ⟨tag, ⟨a, ha, htag⟩, hin⟩

/-- What a text has to have for `isLauncherBlock` to take it for the
text of `block`. -/
theorem isLauncherBlock_eq {text : Bytes} {block : List Activity}
    (h : ∀ needle, Marker (ascii needle) → (ascii needle <:+: text ↔ Mentions block needle)) :
    isLauncherBlock text = decide (LooksLauncher block) := by
  rw [Bool.eq_iff_iff, decide_eq_true_iff, isLauncherBlock, LooksLauncher, Bool.and_eq_true, has,
    decide_eq_true_iff, h _ (marker_of_mem List.mem_cons_self), List.any_eq_true]
  refine and_congr_right fun _ => exists_congr fun wanted => and_congr_right fun hwanted => ?_
  rw [has, decide_eq_true_iff, h _ (marker_of_mem (List.mem_cons_of_mem _ hwanted))]

/-! ## One iteration -/

section Iteration

variable {text before skipped name tail rest : Bytes} {packageName : Option Bytes} {pos : ℕ}
  {candidates : List ActivityCandidate}

/-- The search comes to the next tag of an activity. -/
theorem find_activity (htext : text = before ++ (skipped ++ (60 :: (namedTag .activity name tail ++
    62 :: rest)))) (hskipped : Passes (ascii "activity") skipped) :
    find text (ascii "<activity") before.length = some (before ++ skipped).length := by
  have hneedle : ascii "<activity" = 60 :: ascii "activity" := by decide
  have hfound : 60 :: ascii "activity" <+: 60 :: (namedTag .activity name tail ++ 62 :: rest) :=
    List.cons_prefix_cons.mpr
      ⟨rfl, (element_isPrefix_namedTag .activity _ _).trans (List.prefix_append _ _)⟩
  rw [find_split htext rfl, hneedle, hskipped, search_of_isPrefix hfound, List.length_append]
  rfl

/-- What an iteration makes of the tag it comes to. -/
theorem plainBody_activity (htext : text = before ++ (60 :: (namedTag .activity name tail ++
    62 :: rest))) (htail : tail = [] ∨ tail = ascii "/")
    (hfind : find text (ascii "<activity") pos = some before.length) :
    plainBody text packageName (pos, candidates) =
      .ok (.inl (blockEnd text (before.length + 1 + (namedTag .activity name tail).length),
        candidates ++
          [{ start := before.length
             name := fullName packageName (escape name)
             isLauncher := isLauncherBlock (slice text before.length
              (blockEnd text (before.length + 1 + (namedTag .activity name tail).length) -
                before.length)) }])) := by
  have hclean := not_mem_namedTag (.inr rfl) .activity name htail
  generalize htag : namedTag .activity name tail = tag at *
  have hgt : ascii ">" = [62] := by decide
  have hclose : find text (ascii ">") before.length = some (before.length + 1 + tag.length) := by
    have hskip : (62 : UInt8) ∉ 60 :: tag := by
      rw [List.mem_cons, not_or]
      exact ⟨by decide, hclean⟩
    have hrest : 60 :: (tag ++ 62 :: rest) = (60 :: tag) ++ 62 :: rest := rfl
    rw [find_split htext rfl, hgt, hrest, search_skip hskip, search_of_isPrefix (by simp)]
    simp only [Option.map_some, List.length_cons]
    congr 1
    omega
  have hslice : slice text before.length (before.length + 1 + tag.length - before.length + 1) =
      60 :: (tag ++ [62]) := by
    have hrest : 60 :: (tag ++ 62 :: rest) = 60 :: (tag ++ [62]) ++ rest := by simp
    rw [htext, hrest]
    exact slice_append rfl (by simp; omega)
  simp only [plainBody, hfind, hclose, candidateAt, hslice]
  rw [← htag, tagName_activityTag]
  rfl

end Iteration

/-! ## Blocks of a text -/

@[simp] theorem activitiesText_nil : activitiesText [] = [] := rfl

theorem tagsText_append (a b : List Bytes) : tagsText (a ++ b) = tagsText a ++ tagsText b :=
  List.flatMap_append

theorem activitiesText_append (a b : List Activity) :
    activitiesText (a ++ b) = activitiesText a ++ activitiesText b := by
  rw [activitiesText, List.flatMap_append, tagsText_append]
  rfl

theorem activitiesText_of_childless {a : Activity} (h : a.filters = []) :
    activitiesText [a] = 60 :: (namedTag .activity a.name (ascii "/") ++ [62]) := by
  rw [activitiesText, List.flatMap_singleton, Activity.tags, h, tagsText, List.flatMap_singleton]

theorem activitiesText_of_children {a : Activity} (h : a.filters ≠ []) :
    activitiesText [a] = 60 :: (namedTag .activity a.name [] ++ [62]) ++
      (tagsText (a.filters.flatMap filterTags) ++ ascii "</activity>") := by
  have hclose : tagsText [closingTag .activity] = ascii "</activity>" := by decide
  rw [activitiesText, List.flatMap_singleton, Activity.tags]
  split
  · next hfilters => exact absurd hfilters h
  · rw [← hclose, ← tagsText_append, List.cons_append, tagsText, List.flatMap_cons]
    rfl

theorem passes_childless {activities : List Activity} (h : ∀ a ∈ activities, a.filters = []) :
    Passes (ascii "/activity>") (activitiesText activities) := by
  induction activities with
  | nil => exact passes_nil _
  | cons a activities ih =>
    rw [List.forall_mem_cons] at h
    rw [← List.singleton_append, activitiesText_append, activitiesText_of_childless h.1]
    exact (passed_activityTag a.name (.inr rfl)).passes.append (ih h.2)

theorem passes_filters (filters : List (List FilterChild)) :
    Passes (ascii "/activity>") (tagsText (filters.flatMap filterTags)) := by
  refine passes_tagsText fun tag htag => ?_
  obtain ⟨children, -, hmem⟩ := List.mem_flatMap.mp htag
  exact passed_of_mem_filterTags (.inr rfl) hmem

/-- The name of the activity a block begins with. -/
def headName (block : List Activity) : Bytes :=
  (block.head?.map Activity.name).getD []

/-- A block that ends with an activity's closing tag has no other. -/
theorem activitiesText_block {pending : List Activity} {a : Activity}
    (hpending : ∀ b ∈ pending, b.filters = []) (ha : a.filters ≠ []) :
    ∃ tail inside, (tail = [] ∨ tail = ascii "/") ∧ Passes (ascii "/activity>") inside ∧
      activitiesText (pending ++ [a]) =
        60 :: (namedTag .activity (headName (pending ++ [a])) tail ++
          62 :: (inside ++ ascii "</activity>")) := by
  cases pending with
  | nil =>
    refine ⟨[], tagsText (a.filters.flatMap filterTags), Or.inl rfl, passes_filters _, ?_⟩
    rw [List.nil_append, activitiesText_of_children ha]
    simp [headName]
  | cons b pending =>
    rw [List.forall_mem_cons] at hpending
    refine ⟨ascii "/", activitiesText pending ++ (60 :: (namedTag .activity a.name [] ++ [62]) ++
      tagsText (a.filters.flatMap filterTags)), Or.inr rfl, ?_, ?_⟩
    · refine (passes_childless hpending.2).append (Passes.append ?_ (passes_filters _))
      exact (passed_activityTag a.name (.inl rfl)).passes
    · rw [List.cons_append, ← List.singleton_append, activitiesText_append, activitiesText_append,
        activitiesText_of_childless hpending.1, activitiesText_of_children ha]
      simp [headName]

/-! ## Where a block ends -/

section Ends

variable {text before inside rest : Bytes} {openEnd : ℕ}

theorem blockEnd_closed (htext : text = before ++ (62 :: (inside ++ (ascii "</activity>" ++ rest))))
    (hopen : openEnd = before.length) (hinside : Passes (ascii "/activity>") inside) :
    blockEnd text openEnd = (before ++ 62 :: (inside ++ ascii "</activity>")).length := by
  subst hopen
  have hneedle : ascii "</activity>" = 60 :: ascii "/activity>" := by decide
  have hpass : Passes (ascii "/activity>") (62 :: inside) :=
    passes_gt.append hinside
  have hfind : find text (ascii "</activity>") before.length =
      some (before.length + (62 :: inside).length) := by
    rw [find_split htext rfl, ← List.cons_append, hneedle, hpass,
      search_of_isPrefix (List.prefix_append _ _)]
    rfl
  rw [blockEnd, hfind]
  simp only [List.length_append, List.length_cons]
  omega

theorem blockEnd_open (htext : text = before ++ (62 :: inside)) (hopen : openEnd = before.length)
    (hinside : Passes (ascii "/activity>") inside) : blockEnd text openEnd = openEnd := by
  subst hopen
  have hneedle : ascii "</activity>" = 60 :: ascii "/activity>" := by decide
  have hpass : Passes (ascii "/activity>") (62 :: inside) :=
    passes_gt.append hinside
  have hfind : find text (ascii "</activity>") before.length = none := by
    have hend := hpass []
    rw [List.append_nil] at hend
    rw [find_split htext rfl, hneedle, hend]
    rfl
  rw [blockEnd, hfind]

end Ends

/-! ## The run -/

/-- What the search makes of a block whose tag is at `start`. -/
def blockCandidate (packageName : Option Bytes) (start : ℕ) (block : List Activity) :
    ActivityCandidate where
  start := start
  name := fullName packageName (escape (headName block))
  isLauncher := LooksLauncher block

/-- The candidates of blocks one after the other. -/
def blockCandidates (packageName : Option Bytes) : ℕ → List (List Activity) → List ActivityCandidate
  | _, [] => []
  | start, block :: blocks =>
    blockCandidate packageName start block ::
      blockCandidates packageName (start + (activitiesText block).length) blocks

section Run

variable {text : Bytes} {packageName : Option Bytes}

/-- A block with a closing tag is one iteration. -/
theorem plainBody_block {before skipped rest : Bytes} {candidates : List ActivityCandidate}
    {pending : List Activity} {a : Activity}
    (htext : text = before ++ (skipped ++ (activitiesText (pending ++ [a]) ++ rest)))
    (hskipped : Passes (ascii "activity") skipped) (hpending : ∀ b ∈ pending, b.filters = [])
    (ha : a.filters ≠ []) :
    plainBody text packageName (before.length, candidates) =
      .ok (.inl ((before ++ skipped ++ activitiesText (pending ++ [a])).length,
        candidates ++ [blockCandidate packageName (before ++ skipped).length (pending ++ [a])])) := by
  obtain ⟨tail, inside, htail, hinside, hblock⟩ := activitiesText_block hpending ha
  have hflag : isLauncherBlock (activitiesText (pending ++ [a])) =
      decide (LooksLauncher (pending ++ [a])) :=
    isLauncherBlock_eq fun needle h => h.isInfix_activitiesText (pending ++ [a])
  generalize pending ++ [a] = block at *
  have hopen : text = before ++ (skipped ++ (60 :: (namedTag .activity (headName block) tail ++
      62 :: (inside ++ (ascii "</activity>" ++ rest))))) := by
    rw [htext, hblock]
    simp
  have hfind := find_activity hopen hskipped
  rw [← List.append_assoc] at htext hopen
  generalize before ++ skipped = front at *
  have hend : blockEnd text (front.length + 1 +
      (namedTag .activity (headName block) tail).length) =
        (front ++ activitiesText block).length := by
    have hinner : text = (front ++ 60 :: namedTag .activity (headName block) tail) ++
        (62 :: (inside ++ (ascii "</activity>" ++ rest))) := by
      rw [hopen, List.append_assoc]
      rfl
    rw [blockEnd_closed hinner (by simp; omega) hinside, hblock]
    simp
  have hslice : slice text front.length ((front ++ activitiesText block).length - front.length) =
      activitiesText block := by
    rw [htext]
    exact slice_append rfl (by simp)
  rw [plainBody_activity hopen htail hfind, hend, hslice, hflag]
  rfl

/-- Where no closing tag follows, the block of an activity is its tag. -/
theorem plainBody_single {before skipped rest : Bytes} {candidates : List ActivityCandidate}
    {a : Activity} (htext : text = before ++ (skipped ++ (activitiesText [a] ++ rest)))
    (hskipped : Passes (ascii "activity") skipped) (ha : a.filters = [])
    (hrest : Passes (ascii "/activity>") rest) :
    plainBody text packageName (before.length, candidates) =
      .ok (.inl ((before ++ skipped ++ 60 :: namedTag .activity a.name (ascii "/")).length,
        candidates ++ [blockCandidate packageName (before ++ skipped).length [a]])) := by
  rw [activitiesText_of_childless ha] at htext
  have hopen : text = before ++ (skipped ++ (60 :: (namedTag .activity a.name (ascii "/") ++
      62 :: rest))) := by
    rw [htext]
    simp
  have hfind := find_activity hopen hskipped
  rw [← List.append_assoc] at hopen
  generalize before ++ skipped = front at *
  have hinner : text = (front ++ 60 :: namedTag .activity a.name (ascii "/")) ++ (62 :: rest) := by
    rw [hopen, List.append_assoc]
    rfl
  have hend := blockEnd_open hinner rfl hrest
  have hlen : (front ++ 60 :: namedTag .activity a.name (ascii "/")).length =
      front.length + 1 + (namedTag .activity a.name (ascii "/")).length := by
    simp
    omega
  rw [hlen] at hend ⊢
  have hslice : slice text front.length (front.length + 1 +
      (namedTag .activity a.name (ascii "/")).length - front.length) =
        60 :: namedTag .activity a.name (ascii "/") := by
    rw [hinner, List.append_assoc]
    exact slice_append rfl (by simp; omega)
  have hflag : isLauncherBlock (60 :: namedTag .activity a.name (ascii "/")) =
      decide (LooksLauncher [a]) := by
    refine isLauncherBlock_eq fun needle h => ?_
    -- the tag has its bracket before it, and not the one after it
    have htag := h.isInfix_activitiesText [a]
    rw [activitiesText_of_childless ha, ← List.cons_append,
      isInfix_append_cons_iff (h.not_mem (by simp [Special]))] at htag
    rw [← htag]
    simp [h.fixed [] (by decide)]
  rw [plainBody_activity hopen (.inr rfl) hfind, hend, hslice, hflag]
  rfl

/-- Activities that are all written as one tag. -/
theorem run_singles {before skipped : Bytes} {candidates : List ActivityCandidate}
    {activities : List Activity} (hsingle : ∀ a ∈ activities, a.filters = [])
    (htext : text = before ++ (skipped ++ (activitiesText activities ++ closing)))
    (hskipped : Passes (ascii "activity") skipped) :
    Loop.Yields (Loop.run (plainBody text packageName) (before.length, candidates))
      (.ok (candidates ++ blockCandidates packageName (before ++ skipped).length
        (activities.map ([·])))) := by
  induction activities generalizing before skipped candidates with
  | nil =>
    have hnone : find text (ascii "<activity") before.length = none := by
      have hneedle : ascii "<activity" = 60 :: ascii "activity" := by decide
      have hend := (hskipped.append (passes_closing (.inl rfl))) []
      rw [List.append_nil] at hend
      rw [find_split htext rfl, hneedle, activitiesText_nil, List.nil_append, hend]
      rfl
    refine Loop.yields_return ?_
    simp only [plainBody, hnone]
    rw [List.map_nil, blockCandidates, List.append_nil]
    rfl
  | cons a activities ih =>
    rw [List.forall_mem_cons] at hsingle
    rw [← List.singleton_append, activitiesText_append, List.append_assoc] at htext
    have hstep : plainBody text packageName (before.length, candidates) = _ :=
      plainBody_single htext hskipped hsingle.1
        ((passes_childless hsingle.2).append (passes_closing (.inr rfl)))
    rw [Loop.yields_next hstep]
    -- the next search starts at the bracket of this tag
    rw [activitiesText_of_childless hsingle.1] at htext
    have hnext : text = (before ++ skipped ++ 60 :: namedTag .activity a.name (ascii "/")) ++
        ([62] ++ (activitiesText activities ++ closing)) := by
      rw [htext]
      simp
    have hrest : Loop.Yields (Loop.run (plainBody text packageName) (_, candidates ++
      [blockCandidate packageName (before ++ skipped).length [a]])) _ :=
      ih hsingle.2 hnext passes_gt
    rw [List.append_assoc candidates] at hrest
    rw [List.map_cons, blockCandidates, activitiesText_of_childless hsingle.1]
    have hlen : (before ++ skipped ++ 60 :: namedTag .activity a.name (ascii "/") ++ [62]).length =
        (before ++ skipped).length +
          (60 :: (namedTag .activity a.name (ascii "/") ++ [62])).length := by
      simp
      omega
    rw [hlen] at hrest
    exact hrest

/-- **The run.** The search comes to the blocks of the text one after the
other. -/
theorem run_blocks {before skipped : Bytes} {candidates : List ActivityCandidate}
    {pending activities : List Activity} (hpending : ∀ a ∈ pending, a.filters = [])
    (htext : text = before ++ (skipped ++ (activitiesText (pending ++ activities) ++ closing)))
    (hskipped : Passes (ascii "activity") skipped) :
    Loop.Yields (Loop.run (plainBody text packageName) (before.length, candidates))
      (.ok (candidates ++ blockCandidates packageName (before ++ skipped).length
        (blocksFrom pending activities))) := by
  induction activities generalizing pending before skipped candidates with
  | nil =>
    rw [List.append_nil] at htext
    exact run_singles hpending htext hskipped
  | cons a activities ih =>
    rw [← List.singleton_append, ← List.append_assoc pending] at htext
    rw [blocksFrom]
    by_cases ha : a.filters = []
    · rw [if_pos ha]
      refine ih (fun b hb => ?_) htext hskipped
      rcases List.mem_append.mp hb with hb | hb
      · exact hpending b hb
      · rw [List.mem_singleton.mp hb]
        exact ha
    · rw [if_neg ha, blockCandidates, ← List.length_append]
      rw [activitiesText_append (pending ++ [a]), List.append_assoc] at htext
      have hstep : plainBody text packageName (before.length, candidates) = _ :=
        plainBody_block htext hskipped hpending ha
      rw [Loop.yields_next hstep]
      have hnext : text = (before ++ skipped ++ activitiesText (pending ++ [a])) ++
          ([] ++ (activitiesText ([] ++ activities) ++ closing)) := by
        rw [htext]
        simp
      have hrest : Loop.Yields (Loop.run (plainBody text packageName) (_, candidates ++
          [blockCandidate packageName (before ++ skipped).length (pending ++ [a])])) _ :=
        ih (by simp) hnext (passes_nil _)
      rw [List.append_assoc candidates, List.append_nil (before ++ skipped ++ _)] at hrest
      exact hrest

end Run

/-- The candidates of a manifest's text are its blocks. -/
theorem plainCandidates_text (m : ManifestTree) (packageName : Option Bytes) :
    Loop.Yields (plainCandidates m.text packageName)
      (.ok (blockCandidates packageName m.opening.length m.blocks)) := by
  have htext : m.text = [] ++ (m.opening ++ (activitiesText ([] ++ m.activities) ++ closing)) := rfl
  exact run_blocks (by simp) htext (passes_opening m)

end Apk

end Muplar
