import Mathlib.Algebra.Group.Nat.Defs
import Mathlib.Data.List.Nodup
import Mathlib.Data.List.Perm.Basic
/-!
# Tables of slots

A table has a fixed number of slots. A slot holds a token and a state, or
is free, which is the token zero; a token is looked up from the first slot
on. What the table is to stand for is a list of objects, each with the
token it was given and the state it is in.

`Same` says the table holds exactly the objects and no token twice, and is
what operations keep; `Keeps` says that every object is found with its
state under a token of its own, and is what is wanted. The one gives the
other (`Same.keeps`), and a creation that has no free slot or no new token
loses an object at once (`not_keeps_put`, `not_keeps_unplaced`).
-/

namespace Muplar

namespace SlotTable

variable {κ σ : Type*} [DecidableEq κ] [Zero κ]

/-- The state under a token. -/
def find (slots : List (κ × σ)) (token : κ) : Option σ :=
  if token = 0 then none else (slots.find? (·.1 = token)).map Prod.snd

/-- The first free slot. -/
def freeSlot (slots : List (κ × σ)) : Option ℕ :=
  slots.findIdx? (·.1 = 0)

/-- The first slot with the token, changed. -/
def modifyFirst (token : κ) (f : κ × σ → κ × σ) : List (κ × σ) → List (κ × σ)
  | [] => []
  | e :: slots => if e.1 = token then f e :: slots else e :: modifyFirst token f slots

/-- The state under a token is changed. -/
def update (slots : List (κ × σ)) (token : κ) (g : σ → σ) : List (κ × σ) :=
  if token = 0 then slots else modifyFirst token (fun e => (e.1, g e.2)) slots

/-- The slot of a token becomes free. -/
def release (slots : List (κ × σ)) (token : κ) (g : σ → σ) : List (κ × σ) :=
  if token = 0 then slots else modifyFirst token (fun e => (0, g e.2)) slots

/-- A token and its state go to the first free slot, if there is one. -/
def place (slots : List (κ × σ)) (token : κ) (st : σ) : List (κ × σ) :=
  match freeSlot slots with
  | some i => slots.set i (token, st)
  | none => slots

/-- The slots that are taken. -/
def taken (slots : List (κ × σ)) : List (κ × σ) :=
  slots.filter (·.1 ≠ 0)

/-! ## Objects -/

/-- The state of the objects under a token is changed. -/
def setObject (objects : List (κ × σ)) (token : κ) (g : σ → σ) : List (κ × σ) :=
  objects.map fun e => if e.1 = token then (e.1, g e.2) else e

/-- The objects without those under a token. -/
def dropObject (objects : List (κ × σ)) (token : κ) : List (κ × σ) :=
  objects.filter (·.1 ≠ token)

/-- **Every object is found** with its state, and under a token of its
own. -/
structure Keeps (slots objects : List (κ × σ)) : Prop where
  distinct : (objects.map Prod.fst).Nodup
  found : ∀ e ∈ objects, find slots e.1 = some e.2

/-- **The table holds the objects**, and no token twice. -/
structure Same (slots objects : List (κ × σ)) : Prop where
  perm : (taken slots).Perm objects
  distinct : (objects.map Prod.fst).Nodup

variable {slots objects : List (κ × σ)} {token : κ} {st : σ} {i : ℕ}

omit [Zero κ] in
theorem find?_of_mem {e : κ × σ} (hmem : e ∈ objects) (h : (objects.map Prod.fst).Nodup) :
    objects.find? (·.1 = e.1) = some e := by
  induction objects with
  | nil => cases hmem
  | cons d objects ih =>
    rw [List.map_cons, List.nodup_cons] at h
    rcases List.mem_cons.mp hmem with rfl | hmem
    · rw [List.find?_cons_of_pos (by simp)]
    · have hne : d.1 ≠ e.1 := fun heq => h.1 (heq ▸ List.mem_map_of_mem hmem)
      rw [List.find?_cons_of_neg (by simpa using hne), ih hmem h.2]

theorem find?_taken (slots : List (κ × σ)) (h : token ≠ 0) :
    (taken slots).find? (·.1 = token) = slots.find? (·.1 = token) := by
  induction slots with
  | nil => rfl
  | cons e slots ih =>
    rw [taken] at ih ⊢
    by_cases htoken : e.1 = token
    · have hne : e.1 ≠ 0 := fun hzero => h (htoken.symm.trans hzero)
      rw [List.filter_cons_of_pos (by simpa using hne),
        List.find?_cons_of_pos (by simpa using htoken),
        List.find?_cons_of_pos (by simpa using htoken)]
    · rw [List.find?_cons_of_neg (by simpa using htoken) (l := slots), ← ih]
      by_cases hzero : e.1 = 0
      · rw [List.filter_cons_of_neg (by simpa using hzero)]
      · rw [List.filter_cons_of_pos (by simpa using hzero),
          List.find?_cons_of_neg (by simpa using htoken)]

namespace Same

theorem ne_zero (h : Same slots objects) {e : κ × σ} (hmem : e ∈ objects) : e.1 ≠ 0 := by
  have htaken := h.perm.mem_iff.mpr hmem
  exact of_decide_eq_true (List.mem_filter.mp htaken).2

/-- Tokens are found in the table as among the objects. -/
theorem find_eq (h : Same slots objects) (token : κ) : find slots token = find objects token := by
  rw [find, find]
  split
  · rfl
  · next hne =>
    rw [← find?_taken slots hne]
    have hnodup : ((taken slots).map Prod.fst).Nodup :=
      (h.perm.map Prod.fst).nodup_iff.mpr h.distinct
    cases hfound : objects.find? (·.1 = token) with
    | some e =>
      have hmem := List.mem_of_find?_eq_some hfound
      have hkey := List.find?_some hfound
      have htoken : e.1 = token := of_decide_eq_true hkey
      rw [← htoken, find?_of_mem (h.perm.mem_iff.mpr hmem) hnodup]
    | none =>
      rw [List.find?_eq_none] at hfound
      rw [List.find?_eq_none.mpr fun e hmem => hfound e (h.perm.mem_iff.mp hmem)]

theorem keeps (h : Same slots objects) : Keeps slots objects where
  distinct := h.distinct
  found := by
    intro e hmem
    rw [h.find_eq, find, if_neg (h.ne_zero hmem), find?_of_mem hmem h.distinct]
    rfl

end Same

/-! ## Changing and releasing -/

theorem taken_cons_of_free {e : κ × σ} (h : e.1 = 0) : taken (e :: slots) = taken slots :=
  List.filter_cons_of_neg (by simpa using h)

theorem taken_cons_of_taken {e : κ × σ} (h : e.1 ≠ 0) : taken (e :: slots) = e :: taken slots :=
  List.filter_cons_of_pos (by simpa using h)

omit [Zero κ] in
theorem setObject_of_not_mem (g : σ → σ) (h : token ∉ objects.map Prod.fst) :
    setObject objects token g = objects := by
  rw [setObject]
  conv_rhs => rw [← List.map_id objects]
  refine List.map_congr_left fun e hmem => ?_
  have hne : e.1 ≠ token := fun heq => h (heq ▸ List.mem_map_of_mem hmem)
  rw [if_neg hne]
  rfl

omit [Zero κ] in
theorem dropObject_of_not_mem (h : token ∉ objects.map Prod.fst) :
    dropObject objects token = objects := by
  refine List.filter_eq_self.mpr fun e hmem => decide_eq_true fun heq => ?_
  exact h (heq ▸ List.mem_map_of_mem hmem)

omit [Zero κ] in
theorem keys_setObject (objects : List (κ × σ)) (token : κ) (g : σ → σ) :
    (setObject objects token g).map Prod.fst = objects.map Prod.fst := by
  rw [setObject, List.map_map]
  refine List.map_congr_left fun e _ => ?_
  rw [Function.comp_apply]
  split <;> rfl

theorem taken_modifyFirst_set (g : σ → σ) (hne : token ≠ 0)
    (h : ((taken slots).map Prod.fst).Nodup) :
    taken (modifyFirst token (fun e => (e.1, g e.2)) slots) =
      setObject (taken slots) token g := by
  induction slots with
  | nil => rfl
  | cons e slots ih =>
    rw [modifyFirst]
    split
    · next htoken =>
      have hfree : e.1 ≠ 0 := htoken ▸ hne
      rw [taken_cons_of_taken hfree, List.map_cons, List.nodup_cons, htoken] at h
      rw [taken_cons_of_taken hfree, taken_cons_of_taken (e := (e.1, g e.2)) hfree, setObject,
        List.map_cons, if_pos htoken]
      exact congrArg _ (setObject_of_not_mem g h.1).symm
    · next htoken =>
      by_cases hfree : e.1 = 0
      · rw [taken_cons_of_free hfree] at h ⊢
        rw [taken_cons_of_free hfree, ih h]
      · rw [taken_cons_of_taken hfree, List.map_cons, List.nodup_cons] at h
        rw [taken_cons_of_taken hfree, taken_cons_of_taken hfree, setObject, List.map_cons,
          if_neg htoken, ih h.2]
        rfl

theorem taken_modifyFirst_release (g : σ → σ) (hne : token ≠ 0)
    (h : ((taken slots).map Prod.fst).Nodup) :
    taken (modifyFirst token (fun e => (0, g e.2)) slots) = dropObject (taken slots) token := by
  induction slots with
  | nil => rfl
  | cons e slots ih =>
    rw [modifyFirst]
    split
    · next htoken =>
      have hfree : e.1 ≠ 0 := htoken ▸ hne
      rw [taken_cons_of_taken hfree, List.map_cons, List.nodup_cons, htoken] at h
      rw [taken_cons_of_taken hfree, taken_cons_of_free rfl, dropObject,
        List.filter_cons_of_neg (by simpa using htoken)]
      exact (dropObject_of_not_mem h.1).symm
    · next htoken =>
      by_cases hfree : e.1 = 0
      · rw [taken_cons_of_free hfree] at h ⊢
        rw [taken_cons_of_free hfree, ih h]
      · rw [taken_cons_of_taken hfree, List.map_cons, List.nodup_cons] at h
        rw [taken_cons_of_taken hfree, taken_cons_of_taken hfree, dropObject,
          List.filter_cons_of_pos (by simpa using htoken), ih h.2]
        rfl

namespace Same

theorem taken_nodup (h : Same slots objects) : ((taken slots).map Prod.fst).Nodup :=
  (h.perm.map Prod.fst).nodup_iff.mpr h.distinct

theorem zero_not_mem (h : Same slots objects) : (0 : κ) ∉ objects.map Prod.fst := by
  intro hmem
  obtain ⟨e, he, hzero⟩ := List.mem_map.mp hmem
  exact h.ne_zero he hzero

/-- **A change** of the table is that of the objects. -/
theorem update (h : Same slots objects) (token : κ) (g : σ → σ) :
    Same (SlotTable.update slots token g) (setObject objects token g) := by
  refine ⟨?_, by rw [keys_setObject]; exact h.distinct⟩
  rw [SlotTable.update]
  split
  · next hzero =>
    rw [hzero, setObject_of_not_mem g h.zero_not_mem]
    exact h.perm
  · next hne =>
    rw [taken_modifyFirst_set g hne h.taken_nodup]
    exact h.perm.map _

/-- **A release** lets go of the object. -/
theorem release (h : Same slots objects) (token : κ) (g : σ → σ) :
    Same (SlotTable.release slots token g) (dropObject objects token) := by
  refine ⟨?_, (List.filter_sublist.map Prod.fst).nodup h.distinct⟩
  rw [SlotTable.release]
  split
  · next hzero =>
    rw [hzero, dropObject_of_not_mem h.zero_not_mem]
    exact h.perm
  · next hne =>
    rw [taken_modifyFirst_release g hne h.taken_nodup]
    exact h.perm.filter _

end Same

/-! ## Creating -/

/-- A slot is free for a token that is new. -/
structure Fits (slots : List (κ × σ)) (i : ℕ) (token : κ) : Prop where
  free : slots[i]?.map Prod.fst = some 0
  ne_zero : token ≠ 0
  fresh : ∀ e ∈ slots, e.1 ≠ token

theorem taken_put (hne : token ≠ 0) {old : σ} (h : slots[i]? = some (0, old)) :
    (taken (slots.set i (token, st))).Perm ((token, st) :: taken slots) := by
  induction slots generalizing i with
  | nil => cases h
  | cons e slots ih =>
    cases i with
    | zero =>
      rw [List.getElem?_cons_zero] at h
      cases h
      rw [List.set_cons_zero, taken_cons_of_taken (e := (token, st)) hne, taken_cons_of_free rfl]
    | succ i =>
      rw [List.getElem?_cons_succ] at h
      rw [List.set_cons_succ]
      by_cases hfree : e.1 = 0
      · rw [taken_cons_of_free hfree, taken_cons_of_free hfree]
        exact ih h
      · rw [taken_cons_of_taken hfree, taken_cons_of_taken hfree]
        exact ((ih h).cons e).trans (List.Perm.swap _ _ _)

omit [DecidableEq κ] [Zero κ] in
theorem nodup_append_single (h : (objects.map Prod.fst).Nodup)
    (hfresh : token ∉ objects.map Prod.fst) :
    ((objects ++ [(token, st)]).map Prod.fst).Nodup := by
  rw [List.map_append, List.map_singleton]
  exact List.nodup_append.mpr ⟨h, List.nodup_singleton _, fun a ha b hb => by
    rw [List.mem_singleton.mp hb]
    rintro rfl
    exact hfresh ha⟩

/-- There is a free slot for a token that is new. -/
def Room (slots : List (κ × σ)) (token : κ) : Prop :=
  (freeSlot slots).isSome ∧ token ≠ 0 ∧ ∀ e ∈ slots, e.1 ≠ token

instance (slots : List (κ × σ)) (token : κ) : Decidable (Room slots token) :=
  inferInstanceAs (Decidable (_ ∧ _ ∧ _))

instance (slots : List (κ × σ)) (i : ℕ) (token : κ) : Decidable (Fits slots i token) :=
  decidable_of_iff
    (slots[i]?.map Prod.fst = some 0 ∧ token ≠ 0 ∧ ∀ e ∈ slots, e.1 ≠ token)
    ⟨fun ⟨h₁, h₂, h₃⟩ => ⟨h₁, h₂, h₃⟩, fun ⟨h₁, h₂, h₃⟩ => ⟨h₁, h₂, h₃⟩⟩

theorem freeSlot_spec (h : freeSlot slots = some i) : slots[i]?.map Prod.fst = some 0 := by
  obtain ⟨hi, hfree, -⟩ := List.findIdx?_eq_some_iff_getElem.mp h
  rw [List.getElem?_eq_getElem hi, Option.map_some, of_decide_eq_true hfree]

theorem freeSlot_lt (h : freeSlot slots = some i) : i < slots.length :=
  (List.findIdx?_eq_some_iff_getElem.mp h).1

theorem not_fits_of_full (h : freeSlot slots = none) : ¬Fits slots i token := by
  intro hfits
  obtain ⟨e, he, hfree⟩ := Option.map_eq_some_iff.mp hfits.free
  have htaken := List.findIdx?_eq_none_iff.mp h e (List.mem_of_getElem? he)
  exact of_decide_eq_false htaken hfree

/-- **A creation in a free slot** adds the object. -/
theorem Same.put (h : Same slots objects) (hfits : Fits slots i token) (st : σ) :
    Same (slots.set i (token, st)) (objects ++ [(token, st)]) where
  perm := by
    obtain ⟨⟨_, old⟩, hold, rfl⟩ := Option.map_eq_some_iff.mp hfits.free
    refine (taken_put hfits.ne_zero hold).trans ?_
    exact (h.perm.cons _).trans (List.perm_append_singleton _ _).symm
  distinct := by
    refine nodup_append_single h.distinct fun hmem => ?_
    obtain ⟨e, he, htoken⟩ := List.mem_map.mp hmem
    exact hfits.fresh e (List.mem_filter.mp (h.perm.mem_iff.mpr he)).1 htoken

theorem not_keeps_zero (slots objects : List (κ × σ)) (st : σ) :
    ¬Keeps slots (objects ++ [(0, st)]) := by
  intro h
  have hfound := h.found (0, st) (List.mem_append_right _ List.mem_cons_self)
  rw [find, if_pos rfl] at hfound
  cases hfound

omit [DecidableEq κ] [Zero κ] in
theorem not_nodup_append (hmem : token ∈ objects.map Prod.fst) (st : σ) :
    ¬((objects ++ [(token, st)]).map Prod.fst).Nodup := by
  rw [List.map_append, List.map_singleton]
  intro h
  exact (List.nodup_append.mp h).2.2 token hmem token List.mem_cons_self rfl

/-- **An object without a slot** is not found. -/
theorem Same.not_keeps_unplaced (h : Same slots objects) (token : κ) (st : σ) :
    ¬Keeps slots (objects ++ [(token, st)]) := by
  intro hkeeps
  have hfound := hkeeps.found (token, st) (List.mem_append_right _ List.mem_cons_self)
  rw [h.find_eq, find] at hfound
  split at hfound
  · cases hfound
  · obtain ⟨e, he, -⟩ := Option.map_eq_some_iff.mp hfound
    have hkey := List.find?_some he
    have htoken : e.1 = token := of_decide_eq_true hkey
    refine not_nodup_append ?_ st hkeeps.distinct
    rw [← htoken]
    exact List.mem_map_of_mem (List.mem_of_find?_eq_some he)

/-- A token whose slot is overwritten is in no slot any more. -/
theorem not_mem_set {old : κ} {s : σ} (hold : old ≠ 0) (hne : token ≠ old)
    (h : ((taken slots).map Prod.fst).Nodup) (hi : slots[i]? = some (old, s)) :
    ∀ e ∈ slots.set i (token, st), e.1 ≠ old := by
  have hmem : ∀ {slots : List (κ × σ)} {e : κ × σ}, e ∈ slots → e.1 = old →
      old ∈ (taken slots).map Prod.fst := by
    intro slots e he heq
    rw [← heq] at hold ⊢
    exact List.mem_map_of_mem (List.mem_filter.mpr ⟨he, decide_eq_true hold⟩)
  induction slots generalizing i with
  | nil => cases hi
  | cons d slots ih =>
    cases i with
    | zero =>
      rw [List.getElem?_cons_zero] at hi
      cases hi
      rw [taken_cons_of_taken (e := (old, s)) hold, List.map_cons, List.nodup_cons] at h
      rw [List.set_cons_zero]
      intro e he
      rcases List.mem_cons.mp he with rfl | he
      · exact hne
      · exact fun heq => h.1 (hmem he heq)
    | succ i =>
      rw [List.getElem?_cons_succ] at hi
      rw [List.set_cons_succ]
      have hold' := hmem (List.mem_of_getElem? hi) rfl
      have hrest : ((taken slots).map Prod.fst).Nodup ∧ d.1 ≠ old := by
        by_cases hfree : d.1 = 0
        · rw [taken_cons_of_free hfree] at h
          exact ⟨h, fun heq => hold (heq.symm.trans hfree)⟩
        · rw [taken_cons_of_taken hfree, List.map_cons, List.nodup_cons] at h
          exact ⟨h.2, fun heq => h.1 (heq ▸ hold')⟩
      intro e he
      rcases List.mem_cons.mp he with rfl | he
      · exact hrest.2
      · exact ih hrest.1 hi e he

/-- **A creation that does not fit** loses an object: the one whose slot is
taken, or the new one. -/
theorem Same.not_keeps_put (h : Same slots objects) (hi : i < slots.length)
    (hfits : ¬Fits slots i token) (st : σ) :
    ¬Keeps (slots.set i (token, st)) (objects ++ [(token, st)]) := by
  intro hkeeps
  by_cases hzero : token = 0
  · rw [hzero] at hkeeps
    exact not_keeps_zero _ _ st hkeeps
  have hfresh : token ∉ objects.map Prod.fst := fun hmem =>
    not_nodup_append hmem st hkeeps.distinct
  have hnew : ∀ e ∈ slots, e.1 ≠ token := by
    intro e he htoken
    refine hfresh ?_
    rw [← htoken]
    refine List.mem_map_of_mem (h.perm.mem_iff.mp (List.mem_filter.mpr ⟨he, ?_⟩))
    exact decide_eq_true (htoken ▸ hzero)
  have hslot : slots[i]? = some slots[i] := List.getElem?_eq_getElem hi
  rcases hcase : slots[i] with ⟨old, s⟩
  rw [hcase] at hslot
  by_cases hold : old = 0
  · exact hfits ⟨by rw [hslot, hold]; rfl, hzero, hnew⟩
  · have htaken : (old, s) ∈ objects :=
      h.perm.mem_iff.mp (List.mem_filter.mpr ⟨List.mem_of_getElem? hslot, decide_eq_true hold⟩)
    have hne : token ≠ old := fun heq => hnew _ (List.mem_of_getElem? hslot) heq.symm
    have hgone : ∀ e ∈ slots.set i (token, st), e.1 ≠ old :=
      not_mem_set hold hne h.taken_nodup hslot
    have hfound := hkeeps.found (old, s) (List.mem_append_left _ htaken)
    rw [find, if_neg hold, List.find?_eq_none.mpr fun e he => by simpa using hgone e he] at hfound
    cases hfound

theorem Same.length_le (h : Same slots objects) : objects.length ≤ slots.length := by
  rw [← h.perm.length_eq]
  exact List.length_filter_le _ _

/-! ## Where there is room -/

theorem Room.fits (h : Room slots token) (hi : freeSlot slots = some i) : Fits slots i token :=
  ⟨freeSlot_spec hi, h.2.1, h.2.2⟩

theorem Same.place (h : Same slots objects) (hroom : Room slots token) (st : σ) :
    Same (place slots token st) (objects ++ [(token, st)]) := by
  obtain ⟨i, hi⟩ := Option.isSome_iff_exists.mp hroom.1
  rw [SlotTable.place, hi]
  exact h.put (hroom.fits hi) st

/-- Without room the object is lost, whatever is given for its token where
no slot is free. -/
theorem Same.not_keeps_place (h : Same slots objects) (hroom : ¬Room slots token) (other : κ)
    (st : σ) :
    ¬Keeps (SlotTable.place slots token st)
      (objects ++ [(if (freeSlot slots).isSome then token else other, st)]) := by
  rw [SlotTable.place]
  rcases Option.eq_none_or_eq_some (freeSlot slots) with hfull | ⟨i, hi⟩
  · rw [hfull]
    exact h.not_keeps_unplaced _ st
  · rw [hi]
    refine h.not_keeps_put (freeSlot_lt hi) (fun hfits => hroom ?_) st
    exact ⟨by rw [hi]; rfl, hfits.ne_zero, hfits.fresh⟩

omit [Zero κ] in
theorem length_modifyFirst (token : κ) (f : κ × σ → κ × σ) (slots : List (κ × σ)) :
    (modifyFirst token f slots).length = slots.length := by
  induction slots with
  | nil => rfl
  | cons e slots ih =>
    rw [modifyFirst]
    split
    · rfl
    · rw [List.length_cons, ih, List.length_cons]

@[simp] theorem length_update (slots : List (κ × σ)) (token : κ) (g : σ → σ) :
    (update slots token g).length = slots.length := by
  rw [update]
  split
  · rfl
  · exact length_modifyFirst _ _ _

end SlotTable

end Muplar
