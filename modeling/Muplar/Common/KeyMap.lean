import Mathlib.Data.List.AList
/-!
# Maps that are walked and pruned

An `std::unordered_map` is an `AList`: finitely many entries, no key
twice, in an order nobody relies on. Mathlib has the lookups of an
insertion and of an erasure; what is added here is the walk that keeps
some of the entries, which is how a loop erasing through an iterator
ends.
-/

namespace Muplar

namespace KeyMap

variable {κ : Type*} [DecidableEq κ] {ν : Type*}

/-- Keep the entries that pass `p` and drop the rest. -/
def retain (p : κ → ν → Bool) (m : AList fun _ : κ => ν) : AList fun _ : κ => ν where
  entries := m.entries.filter fun e => p e.1 e.2
  nodupKeys := m.nodupKeys.sublist List.filter_sublist

omit [DecidableEq κ] in
theorem mem_retain_entries {p : κ → ν → Bool} {m : AList fun _ : κ => ν} {e : Σ _ : κ, ν} :
    e ∈ (retain p m).entries ↔ e ∈ m.entries ∧ p e.1 e.2 = true :=
  List.mem_filter

/-- **What a pruned map holds** is what the map held and the test keeps. -/
theorem lookup_retain_eq_some {p : κ → ν → Bool} {m : AList fun _ : κ => ν} {k : κ} {v : ν} :
    (retain p m).lookup k = some v ↔ m.lookup k = some v ∧ p k v = true := by
  rw [← Option.mem_def, ← Option.mem_def, AList.mem_lookup_iff, AList.mem_lookup_iff,
    mem_retain_entries]

/-- Enter what has a value, and take out what has none. -/
def patch (changes : List (Σ _ : κ, Option ν)) (m : AList fun _ : κ => ν) :
    AList fun _ : κ => ν :=
  changes.foldl (fun m change => match change.2 with
    | some v => m.insert change.1 v
    | none => m.erase change.1) m

/-- **A patched map** has for every key what the changes say, or what it
had; in which order they are made does not matter. -/
theorem lookup_patch {changes : List (Σ _ : κ, Option ν)} (h : changes.NodupKeys)
    {m : AList fun _ : κ => ν} {k : κ} :
    (patch changes m).lookup k = (changes.dlookup k).getD (m.lookup k) := by
  induction changes generalizing m with
  | nil => rfl
  | cons change changes ih =>
    obtain ⟨k', o⟩ := change
    obtain ⟨hk', h⟩ := List.nodupKeys_cons.mp h
    rw [patch, List.foldl_cons]
    refine (ih h).trans ?_
    by_cases hk : k = k'
    · subst hk
      have hnone : changes.dlookup k = none := List.dlookup_eq_none.mpr hk'
      rw [hnone, List.dlookup_cons_eq]
      cases o with
      | none => exact AList.lookup_erase k m
      | some v => exact AList.lookup_insert m
    · rw [List.dlookup_cons_ne changes ⟨k', o⟩ hk]
      cases o with
      | none => exact congrArg _ (AList.lookup_erase_ne hk)
      | some v => exact congrArg _ (AList.lookup_insert_ne hk)

end KeyMap

end Muplar
