import Mathlib.Data.List.AList
/-!
# Maps and lists in the order of arrival

A `LinkedHashMap` keeps its keys in the order they came in: a key that is
there already stays in its place and is given the new value. It is an
`AList` with that insertion; erasing is Mathlib's.

A list without repetition is kept in the order of use where a use takes
the element out and puts it at the end again. That changes the order and
nothing else, and it may be done on the elements or on what they are sent
to.
-/

namespace Muplar

namespace LinkedMap

variable {κ : Type*} [DecidableEq κ] {ν : Type*}

/-- `put`: a key keeps its place, a new one comes last. -/
def put (k : κ) (v : ν) (m : AList fun _ : κ => ν) : AList fun _ : κ => ν :=
  if h : k ∈ m then m.replace k v
  else
    { entries := m.entries ++ [⟨k, v⟩]
      nodupKeys := by
        have hk : k ∉ m.entries.keys := h
        rw [List.NodupKeys, List.keys, List.map_append, List.nodup_append]
        refine ⟨m.nodupKeys, List.nodup_singleton k, ?_⟩
        rintro a ha b hb rfl
        rw [List.mem_singleton.mp hb] at ha
        exact hk ha }

/-- The values, in the order of their keys. -/
def values (m : AList fun _ : κ => ν) : List ν :=
  m.entries.map Sigma.snd

theorem dlookup_cons {k x : κ} {v : ν} {l : List (Σ _ : κ, ν)} :
    (⟨k, v⟩ :: l : List (Σ _ : κ, ν)).dlookup x = if x = k then some v else l.dlookup x := by
  by_cases hx : x = k
  · subst hx
    rw [if_pos rfl, List.dlookup_cons_eq]
  · rw [if_neg hx, List.dlookup_cons_ne l ⟨k, v⟩ hx]

theorem kreplace_cons {k : κ} {v : ν} {e : Σ _ : κ, ν} {l : List (Σ _ : κ, ν)} :
    (e :: l).kreplace k v = if k = e.1 then ⟨k, v⟩ :: l else e :: l.kreplace k v := by
  unfold List.kreplace
  rw [List.lookmap_cons]
  by_cases h : k = e.1 <;> simp [h]

theorem dlookup_kreplace {k x : κ} {v : ν} {l : List (Σ _ : κ, ν)} (h : k ∈ l.keys) :
    (l.kreplace k v).dlookup x = if x = k then some v else l.dlookup x := by
  induction l with
  | nil => simp at h
  | cons e l ih =>
    obtain ⟨k', v'⟩ := e
    rw [kreplace_cons]
    by_cases he : k = k'
    · subst he
      rw [if_pos rfl, dlookup_cons, dlookup_cons]
      split_ifs <;> rfl
    · have hl : k ∈ l.keys := by simpa [he] using h
      rw [if_neg he, dlookup_cons, dlookup_cons, ih hl]
      split_ifs <;> simp_all

/-- **What a key has after an insertion.** -/
theorem lookup_put {k x : κ} {v : ν} {m : AList fun _ : κ => ν} :
    (put k v m).lookup x = if x = k then some v else m.lookup x := by
  rw [put]
  split
  case isTrue h => exact dlookup_kreplace h
  case isFalse h =>
    rw [AList.lookup, AList.lookup, List.dlookup_append]
    by_cases hx : x = k
    · subst hx
      have hnone : m.entries.dlookup x = none := AList.lookup_eq_none.mpr h
      simp [hnone]
    · simp [hx]

/-- The same for a key that is erased. -/
theorem lookup_erase {k x : κ} {m : AList fun _ : κ => ν} :
    (m.erase k).lookup x = if x = k then none else m.lookup x := by
  by_cases hx : x = k
  · rw [if_pos hx, hx, AList.lookup_erase]
  · rw [if_neg hx, AList.lookup_erase_ne hx]

/-- Many keys that are erased. -/
theorem lookup_foldl_erase {ks : List κ} {x : κ} {m : AList fun _ : κ => ν} :
    (ks.foldl (fun m k => m.erase k) m).lookup x = if x ∈ ks then none else m.lookup x := by
  induction ks generalizing m with
  | nil => simp
  | cons k ks ih =>
    rw [List.foldl_cons, ih, lookup_erase]
    by_cases hx : x = k <;> simp [hx]

/-! ## Maps that are an index -/

/-- **The map is an index** of the values with `p`: each is found under its
key, where it has one, and nothing else is found. -/
def Indexes (m : AList fun _ : κ => ν) (key : ν → Option κ) (p : ν → Prop) : Prop :=
  ∀ k v, m.lookup k = some v ↔ p v ∧ key v = some k

namespace Indexes

variable {m m' : AList fun _ : κ => ν} {key key' : ν → Option κ} {p p' : ν → Prop} {k : κ} {v w : ν}

theorem inj (h : Indexes m key p) (hv : p v) (hw : p w) (hkv : key v = some k)
    (hkw : key w = some k) : v = w := by
  have h₁ := (h k v).mpr ⟨hv, hkv⟩
  have h₂ := (h k w).mpr ⟨hw, hkw⟩
  exact Option.some.inj (h₁.symm.trans h₂)

theorem congr (h : Indexes m key p) (hp : ∀ v, p' v ↔ p v) (hkey : ∀ v, p v → key' v = key v) :
    Indexes m key' p' := by
  intro k v
  rw [h k v, hp v]
  exact and_congr_right fun hv => by rw [hkey v hv]

/-- A value more, under a key that is free. -/
theorem put (h : Indexes m key p) (hfree : m.lookup k = none) (hp : ∀ w, p' w ↔ p w ∨ w = v)
    (hkey : ∀ w, p w → key' w = key w) (hv : key' v = some k) :
    Indexes (put k v m) key' p' := by
  intro x w
  rw [lookup_put, hp w]
  split_ifs with hx
  · subst hx
    constructor
    · rintro ⟨rfl⟩
      exact ⟨Or.inr rfl, hv⟩
    · rintro ⟨hw | rfl, hkw⟩
      · -- the key would not be free
        rw [(h x w).mpr ⟨hw, hkey w hw ▸ hkw⟩] at hfree
        cases hfree
      · rfl
  · rw [h x w]
    constructor
    · rintro ⟨hw, hkw⟩
      exact ⟨Or.inl hw, (hkey w hw).trans hkw⟩
    · rintro ⟨hw | rfl, hkw⟩
      · exact ⟨hw, (hkey w hw).symm.trans hkw⟩
      · exact absurd (Option.some.inj (hkw.symm.trans hv)) hx

/-- A value more that has no key. -/
theorem keyless (h : Indexes m key p) (hp : ∀ w, p' w ↔ p w ∨ w = v)
    (hkey : ∀ w, p w → key' w = key w) (hv : key' v = none) : Indexes m key' p' := by
  intro x w
  rw [h x w, hp w]
  constructor
  · rintro ⟨hw, hkw⟩
    exact ⟨Or.inl hw, (hkey w hw).trans hkw⟩
  · rintro ⟨hw | rfl, hkw⟩
    · exact ⟨hw, (hkey w hw).symm.trans hkw⟩
    · rw [hv] at hkw
      cases hkw

/-- Values less, with their keys. -/
theorem erase (h : Indexes m key p) (vs : List ν) (hvs : ∀ v ∈ vs, p v)
    (hm : ∀ k, m'.lookup k = if k ∈ vs.filterMap key then none else m.lookup k)
    (hp : ∀ w, p' w ↔ p w ∧ w ∉ vs) (hkey : ∀ w, p' w → key' w = key w) :
    Indexes m' key' p' := by
  intro k w
  rw [hm k]
  constructor
  · intro hw
    split_ifs at hw with hk
    obtain ⟨hpw, hkw⟩ := (h k w).mp hw
    have hp' : p' w := (hp w).mpr ⟨hpw, fun hmem => hk (List.mem_filterMap.mpr ⟨w, hmem, hkw⟩)⟩
    exact ⟨hp', (hkey w hp').trans hkw⟩
  · rintro ⟨hw, hkw⟩
    have hpw := (hp w).mp hw
    rw [hkey w hw] at hkw
    have hk : k ∉ vs.filterMap key := fun hk => by
      obtain ⟨v, hv, hkv⟩ := List.mem_filterMap.mp hk
      exact hpw.2 (h.inj (hvs v hv) hpw.1 hkv hkw ▸ hv)
    rw [if_neg hk]
    exact (h k w).mpr ⟨hpw.1, hkw⟩

end Indexes

end LinkedMap

/-! ## Lists by use -/

namespace Recent

variable {α β : Type*} [BEq α] [BEq β]

/-- Take the element out and put it at the end. -/
def use (a : α) (l : List α) : List α :=
  l.erase a ++ [a]

variable [LawfulBEq α] [LawfulBEq β]

theorem mem_use {l : List α} {a b : α} (hl : l.Nodup) : b ∈ use a l ↔ b ∈ l ∨ b = a := by
  rw [use, List.mem_append, List.mem_singleton, hl.mem_erase_iff]
  tauto

theorem perm_use {l : List α} {a : α} (ha : a ∈ l) : (use a l).Perm l := by
  have h : (a :: l.erase a).Perm l := (List.perm_cons_erase ha).symm
  show (l.erase a ++ [a]).Perm l
  exact List.perm_append_comm.trans h

/-- What is last already stays there. -/
theorem use_append {l : List α} {a : α} (ha : a ∉ l) : use a (l ++ [a]) = l ++ [a] := by
  rw [use, List.erase_append_right _ ha, List.erase_cons_head, List.append_nil]

theorem use_of_notMem {l : List α} {a : α} (ha : a ∉ l) : use a l = l ++ [a] := by
  rw [use, List.erase_of_not_mem ha]

theorem nodup_use {l : List α} (hl : l.Nodup) (a : α) : (use a l).Nodup := by
  rw [use, List.nodup_append]
  refine ⟨hl.erase a, List.nodup_singleton a, ?_⟩
  rintro b hb c hc rfl
  exact (hl.mem_erase_iff.mp hb).1 (List.mem_singleton.mp hc)

/-- **An erasure on what the elements are sent to**, where that tells them
apart. -/
theorem map_erase {f : α → β} {l : List α} {a : α} (hf : ∀ b ∈ l, f b = f a → b = a)
    (hl : (l.map f).Nodup) : (l.map f).erase (f a) = (l.erase a).map f := by
  rw [hl.erase_eq_filter, (List.Nodup.of_map f hl).erase_eq_filter, List.filter_map]
  refine congrArg (List.map f) (List.filter_congr fun b hb => ?_)
  rw [Function.comp_apply, Bool.eq_iff_iff, bne_iff_ne, bne_iff_ne, ne_eq, ne_eq, not_iff_not]
  exact ⟨hf b hb, congrArg f⟩

theorem map_use {f : α → β} {l : List α} {a : α} (hf : ∀ b ∈ l, f b = f a → b = a)
    (hl : (l.map f).Nodup) : use (f a) (l.map f) = (use a l).map f := by
  rw [use, use, map_erase hf hl, List.map_append, List.map_singleton]

end Recent

end Muplar
