import Mathlib.Data.Finset.Basic
import Muplar.Common.LinkedMap
import Muplar.Framework.Action
/-!
# The framework — shared preferences

An editor of `MuplarSharedPreferences` keeps what it is asked to write in
three places: a map of what is put, a set of what is removed, and a flag
for `clear`. `apply` replays them in that order from the back: the flag,
the removals, the puts. So a removal after a put is lost, and since
nothing is taken out of the three places, an editor that is applied again
writes everything again.

`preferences_edited_iff` says for which calls the last one on every key
wins nonetheless, and for which editors a second `apply` leaves what
another has written.
-/

namespace Muplar

namespace Framework

namespace Preferences

open Machine KeyMap

/-! ## Editors -/

/-- A key, which a map takes as `null` too. -/
abbrev Key := Option JavaString

/-- What is stored under a key; a `float` by its bits. -/
inductive Value
  | string (value : JavaString)
  | stringSet (value : Finset JavaString)
  | int (value : Int32)
  | long (value : Int64)
  | float (bits : UInt32)
  | boolean (value : Bool)
  deriving DecidableEq

/-- A call on an editor; what is put may be `null` where it is an object. -/
inductive Call
  | putString (key : Key) (value : Option JavaString)
  | putStringSet (key : Key) (value : Option (Finset JavaString))
  | putInt (key : Key) (value : Int32)
  | putLong (key : Key) (value : Int64)
  | putFloat (key : Key) (bits : UInt32)
  | putBoolean (key : Key) (value : Bool)
  | remove (key : Key)
  | clear
  deriving DecidableEq

/-- `EditorImpl`. -/
structure Editor where
  staged : AList fun _ : Key => Option Value := ∅
  removed : List Key := []
  clear : Bool := false

namespace Editor

/-- What the methods that put have in common. -/
def put (e : Editor) (key : Key) (value : Option Value) : Editor :=
  { e with staged := e.staged.insert key value }

def putString (e : Editor) (key : Key) (value : Option JavaString) : Editor :=
  e.put key (value.map .string)

/-- `putStringSet`, which copies the set. -/
def putStringSet (e : Editor) (key : Key) (value : Option (Finset JavaString)) : Editor :=
  e.put key (value.map .stringSet)

def putInt (e : Editor) (key : Key) (value : Int32) : Editor :=
  e.put key (some (.int value))

def putLong (e : Editor) (key : Key) (value : Int64) : Editor :=
  e.put key (some (.long value))

def putFloat (e : Editor) (key : Key) (bits : UInt32) : Editor :=
  e.put key (some (.float bits))

def putBoolean (e : Editor) (key : Key) (value : Bool) : Editor :=
  e.put key (some (.boolean value))

def remove (e : Editor) (key : Key) : Editor :=
  { e with removed := e.removed.insert key }

def setClear (e : Editor) : Editor :=
  { e with clear := true }

/-- One call. -/
def call (e : Editor) : Call → Editor
  | .putString key value => e.putString key value
  | .putStringSet key value => e.putStringSet key value
  | .putInt key value => e.putInt key value
  | .putLong key value => e.putLong key value
  | .putFloat key bits => e.putFloat key bits
  | .putBoolean key value => e.putBoolean key value
  | .remove key => e.remove key
  | .clear => e.setClear

/-- `apply` on the stored values; `commit` does the same and returns
`true`. -/
def apply (e : Editor) (values : AList fun _ : Key => Value) : AList fun _ : Key => Value :=
  let values := if e.clear then ∅ else values
  let values := e.removed.foldl (fun values key => values.erase key) values
  patch e.staged.entries values

end Editor

/-! ## The store and its editors -/

/-- `MuplarSharedPreferences` and the editors it has given out. -/
structure Store where
  values : AList fun _ : Key => Value := ∅
  editors : List Editor := []

/-- What may happen to them. -/
inductive Event
  /-- `edit`. -/
  | edit
  /-- A call on an editor. -/
  | call (editor : ℕ) (call : Call)
  /-- `apply` or `commit`. -/
  | apply (editor : ℕ)
  deriving DecidableEq

/-- One event; a call on an editor that is not there is none. -/
def next (s : Store) : Event → Store
  | .edit => { s with editors := s.editors ++ [{}] }
  | .call i c => { s with editors := s.editors.modify i fun e => e.call c }
  | .apply i =>
    match s.editors[i]? with
    | some e => { s with values := e.apply s.values }
    | none => s

/-! ## What is promised -/

/-- What a put writes, and under which key. -/
def Call.puts : Call → Option (Key × Option Value)
  | .putString key value => some (key, value.map .string)
  | .putStringSet key value => some (key, value.map .stringSet)
  | .putInt key value => some (key, some (.int value))
  | .putLong key value => some (key, some (.long value))
  | .putFloat key bits => some (key, some (.float bits))
  | .putBoolean key value => some (key, some (.boolean value))
  | .remove _ => none
  | .clear => none

/-- What a put or a removal says about its key. -/
def Call.says : Call → Option (Key × Option Value)
  | .remove key => some (key, none)
  | c => c.puts

/-- What is known of a key after one more call. -/
def heard (f : Call → Option (Key × Option Value)) (k : Key) (last : Option (Option Value))
    (c : Call) : Option (Option Value) :=
  match f c with
  | some (key, o) => if key = k then some o else last
  | none => last

/-- The last that is heard of a key. -/
def lastHeard (f : Call → Option (Key × Option Value)) (calls : List Call) (k : Key) :
    Option (Option Value) :=
  calls.foldl (heard f k) none

/-- **The last call wins**: every key has what the last put or removal said
of it, and the others are kept, or cleared. -/
def LastWins (calls : List Call) (before after : AList fun _ : Key => Value) : Prop :=
  ∀ k, after.lookup k =
    (lastHeard Call.says calls k).getD (if .clear ∈ calls then none else before.lookup k)

/-- What an editor does to a key: it puts a value there or takes it out, or
it does nothing. -/
def Editor.effect (e : Editor) (k : Key) : Option (Option Value) :=
  match e.staged.lookup k with
  | some o => some o
  | none => if k ∈ e.removed ∨ e.clear = true then some none else none

/-- The calls on an editor. -/
def callsOn (i : ℕ) (es : List Event) : List Call :=
  es.filterMap fun
    | .call j c => if j = i then some c else none
    | _ => none

/-- An editor is applied that does something to the key. -/
def Store.writes (s : Store) (k : Key) : Event → Prop
  | .apply i => ∃ e ∈ s.editors[i]?, (e.effect k).isSome = true
  | _ => False

/-- The key has been written in the run. -/
def Written (k : Key) : Store → List Event → Prop
  | _, [] => False
  | s, e :: es => s.writes k e ∨ Written k (next s e) es

/-- **An editor's calls are applied once**: where it is applied first, the
last call on every key wins, and where it is applied again, what others
have written in between stays. -/
structure AppliedOnce (calls : List Call) (first last : Store) (i : ℕ) (between : List Event) :
    Prop where
  lastWins : LastWins calls first.values (next first (.apply i)).values
  others : ∀ k, Written k (next first (.apply i)) between →
    (next last (.apply i)).values.lookup k = last.values.lookup k

/-- **Where they are**: no key is removed after a value was put there, and
what others have written is not the editor's business, or is what it would
write itself. -/
structure Replayable (calls : List Call) (first last : Store) (i : ℕ) (between : List Event) :
    Prop where
  removals : ∀ k, lastHeard Call.says calls k = some none →
    ∀ v, lastHeard Call.puts calls k ≠ some (some v)
  others : ∀ k, Written k (next first (.apply i)) between →
    ∀ o ∈ (calls.foldl Editor.call {}).effect k, last.values.lookup k = o

/-! ## What an editor holds -/

section

variable {e : Editor} {calls : List Call} {k : Key} {values : AList fun _ : Key => Value}

/-- **What `apply` leaves** under a key. -/
theorem lookup_apply : (e.apply values).lookup k = (e.effect k).getD (values.lookup k) := by
  have hstaged : e.staged.entries.dlookup k = e.staged.lookup k := rfl
  rw [Editor.apply, lookup_patch e.staged.nodupKeys, LinkedMap.lookup_foldl_erase, Editor.effect,
    hstaged]
  cases e.staged.lookup k with
  | some o => rfl
  | none =>
    by_cases hr : k ∈ e.removed
    · simp [hr]
    · cases hc : e.clear
      · simp [hr]
      · simp [hr]

theorem staged_put {key : Key} {o : Option Value} : (e.put key o).staged.lookup k =
    if key = k then some o else e.staged.lookup k := by
  by_cases hk : key = k
  · rw [if_pos hk, ← hk]
    exact AList.lookup_insert e.staged
  · rw [if_neg hk]
    exact AList.lookup_insert_ne (Ne.symm hk)

theorem staged_call (c : Call) : (e.call c).staged.lookup k =
    heard Call.puts k (e.staged.lookup k) c := by
  cases c with
  | remove key => rfl
  | clear => rfl
  | putString => exact staged_put
  | putStringSet => exact staged_put
  | putInt => exact staged_put
  | putLong => exact staged_put
  | putFloat => exact staged_put
  | putBoolean => exact staged_put

theorem mem_removed_call {c : Call} :
    k ∈ (e.call c).removed ↔ k ∈ e.removed ∨ c = .remove k := by
  cases c with
  | remove key =>
    have hins : k ∈ e.removed.insert key ↔ k = key ∨ k ∈ e.removed := List.mem_insert_iff
    rw [Editor.call, Editor.remove, hins, Call.remove.injEq, or_comm, eq_comm]
  | _ => exact ⟨Or.inl, fun hr => hr.resolve_right nofun⟩

theorem clear_call {c : Call} : (e.call c).clear = true ↔ e.clear = true ∨ c = .clear := by
  cases c with
  | clear => exact ⟨fun _ => Or.inr rfl, fun _ => rfl⟩
  | _ => exact ⟨Or.inl, fun hc => hc.resolve_right nofun⟩

/-- **What an editor holds** after its calls. -/
theorem staged_calls : (calls.foldl Editor.call e).staged.lookup k =
    calls.foldl (heard Call.puts k) (e.staged.lookup k) := by
  induction calls generalizing e with
  | nil => rfl
  | cons c calls ih => rw [List.foldl_cons, List.foldl_cons, ih, staged_call]

theorem mem_removed_calls : k ∈ (calls.foldl Editor.call e).removed ↔
    k ∈ e.removed ∨ Call.remove k ∈ calls := by
  induction calls generalizing e with
  | nil => simp
  | cons c calls ih =>
    rw [List.foldl_cons, ih, mem_removed_call, List.mem_cons, or_assoc, eq_comm (a := c)]

theorem clear_calls : (calls.foldl Editor.call e).clear = true ↔
    e.clear = true ∨ Call.clear ∈ calls := by
  induction calls generalizing e with
  | nil => simp
  | cons c calls ih =>
    rw [List.foldl_cons, ih, clear_call, List.mem_cons, or_assoc, eq_comm (a := c)]

theorem effect_calls : (calls.foldl Editor.call {}).effect k =
    match lastHeard Call.puts calls k with
    | some o => some o
    | none => if .remove k ∈ calls ∨ .clear ∈ calls then some none else none := by
  have hempty : ({} : Editor).staged.lookup k = none := rfl
  rw [Editor.effect, staged_calls, hempty, lastHeard]
  have hremoved : (k ∈ (calls.foldl Editor.call {}).removed ∨
      (calls.foldl Editor.call {}).clear = true) ↔ (.remove k ∈ calls ∨ .clear ∈ calls) := by
    rw [mem_removed_calls, clear_calls]
    simp
  simp only [hremoved]

/-! ## What is heard of a key -/

theorem lastHeard_concat {f : Call → Option (Key × Option Value)} (c : Call) :
    lastHeard f (calls ++ [c]) k = heard f k (lastHeard f calls k) c := by
  rw [lastHeard, List.foldl_append]
  rfl

theorem says_eq_puts {c : Call} (hc : ∀ key, c ≠ .remove key) : c.says = c.puts := by
  cases c with
  | remove key => exact absurd rfl (hc key)
  | _ => rfl

/-- **Puts and removals.** What is heard of a key is the last put, unless
there is a removal. -/
theorem lastHeard_cases (calls : List Call) (k : Key) :
    (lastHeard Call.says calls k = none →
      lastHeard Call.puts calls k = none ∧ .remove k ∉ calls) ∧
    (∀ v, lastHeard Call.says calls k = some (some v) →
      lastHeard Call.puts calls k = some (some v)) ∧
    (lastHeard Call.says calls k = some none →
      lastHeard Call.puts calls k = some none ∨ .remove k ∈ calls) := by
  induction calls using List.reverseRecOn with
  | nil => exact ⟨fun _ => ⟨rfl, List.not_mem_nil⟩, nofun, nofun⟩
  | append_singleton calls c ih =>
    obtain ⟨hnone, hvalue, hnull⟩ := ih
    rw [lastHeard_concat, lastHeard_concat]
    by_cases hc : ∃ key, c = .remove key
    · obtain ⟨key, rfl⟩ := hc
      by_cases hk : key = k
      · subst hk
        exact ⟨fun h => by simp [heard, Call.says] at h, fun v h => by simp [heard, Call.says] at h,
          fun _ => Or.inr (by simp)⟩
      · have hkeep : ∀ last, heard Call.says k last (.remove key) = last := fun last => by
          simp [heard, Call.says, hk]
        have hmem : .remove k ∈ calls ++ [Call.remove key] ↔ .remove k ∈ calls := by
          simp [Ne.symm hk]
        rw [hkeep, hmem]
        exact ⟨hnone, hvalue, hnull⟩
    · have hc : ∀ key, c ≠ .remove key := fun key he => hc ⟨key, he⟩
      have hmem : .remove k ∈ calls ++ [c] ↔ .remove k ∈ calls := by
        simp [Ne.symm (hc k)]
      rw [hmem, heard, heard, says_eq_puts hc]
      cases c.puts with
      | none => exact ⟨hnone, hvalue, hnull⟩
      | some put =>
        obtain ⟨key, o⟩ := put
        by_cases hk : key = k
        · simp only [hk, if_true]
          exact ⟨nofun, fun v h => h, fun h => Or.inl h⟩
        · simp only [hk, if_false]
          exact ⟨hnone, hvalue, hnull⟩

/-- **One key**: the last call wins exactly where it is no removal of a value
that was put. -/
theorem lastWins_key (o : Option Value) :
    ((calls.foldl Editor.call {}).effect k).getD o =
        (lastHeard Call.says calls k).getD (if .clear ∈ calls then none else o) ↔
      (lastHeard Call.says calls k = some none → ∀ v,
        lastHeard Call.puts calls k ≠ some (some v)) := by
  obtain ⟨hnone, hvalue, hnull⟩ := lastHeard_cases calls k
  rw [effect_calls]
  rcases hsays : lastHeard Call.says calls k with _ | _ | v
  · obtain ⟨hputs, hremove⟩ := hnone hsays
    rw [hputs]
    refine iff_of_true ?_ nofun
    by_cases hclear : .clear ∈ calls
    · simp [hclear]
    · simp [hclear, hremove]
  · rcases hputs : lastHeard Call.puts calls k with _ | _ | v
    · have hremove := (hnull hsays).resolve_left (by rw [hputs]; nofun)
      exact iff_of_true (by simp [hremove]) nofun
    · exact iff_of_true rfl nofun
    · exact iff_of_false nofun fun h => h rfl v rfl
  · rw [hvalue v hsays]
    exact iff_of_true rfl nofun

end

/-! ## Runs -/

variable {s : Store} {es : List Event} {i : ℕ}

theorem editors_apply {j : ℕ} : (next s (.apply j)).editors = s.editors := by
  rw [next]
  split <;> rfl

/-- An editor holds what the calls on it say, whatever else happens. -/
theorem editor_run {e : Editor} (h : s.editors[i]? = some e) :
    (run next s es).editors[i]? = some ((callsOn i es).foldl Editor.call e) := by
  induction es generalizing s e with
  | nil => exact h
  | cons ev es ih =>
    rw [run_cons]
    cases ev with
    | edit =>
      have hlt : i < s.editors.length := (List.getElem?_eq_some_iff.mp h).1
      exact ih ((List.getElem?_append_left hlt).trans h)
    | call j c =>
      by_cases hj : j = i
      · subst hj
        have hcalls : callsOn j (.call j c :: es) = c :: callsOn j es := by simp [callsOn]
        rw [hcalls]
        refine ih (e := e.call c) ?_
        rw [next, List.getElem?_modify, h]
        simp
      · have hcalls : callsOn i (.call j c :: es) = callsOn i es := by simp [callsOn, hj]
        rw [hcalls]
        refine ih ?_
        rw [next, List.getElem?_modify, h]
        simp [hj]
    | apply j => exact ih (by rw [editors_apply]; exact h)

theorem values_apply {e : Editor} (h : s.editors[i]? = some e) :
    (next s (.apply i)).values = e.apply s.values := by
  rw [next, h]

/-- The calls of others are none of an editor's. -/
theorem callsOn_eq_nil (h : ∀ e ∈ es, ∀ c, e ≠ .call i c) : callsOn i es = [] := by
  refine List.filterMap_eq_nil_iff.mpr fun e he => ?_
  cases e with
  | call j c => exact if_neg fun hj => h _ he c (by rw [hj])
  | _ => rfl

/-- **Editors apply the last operation** exactly where they are replayable:
for every store, every run in which an editor is made, called and applied,
and every run without it before it is applied again. -/
theorem preferences_edited_iff (s : Store) (before between : List Event)
    (hb : ∀ e ∈ between, e ≠ .apply s.editors.length ∧ ∀ c, e ≠ .call s.editors.length c) :
    AppliedOnce (callsOn s.editors.length before) (run next (next s .edit) before)
        (run next (next (run next (next s .edit) before) (.apply s.editors.length)) between)
        s.editors.length between ↔
      Replayable (callsOn s.editors.length before) (run next (next s .edit) before)
        (run next (next (run next (next s .edit) before) (.apply s.editors.length)) between)
        s.editors.length between := by
  set i := s.editors.length with hi
  set first := run next (next s .edit) before
  have hnew : (next s .edit).editors[i]? = some {} := by
    simp [next, hi]
  have hfirst : first.editors[i]? = some ((callsOn i before).foldl Editor.call {}) :=
    editor_run hnew
  set last := run next (next first (.apply i)) between
  have hlast : last.editors[i]? = some ((callsOn i before).foldl Editor.call {}) := by
    have hafter := hfirst
    rw [← editors_apply (s := first) (j := i)] at hafter
    have hrun : last.editors[i]? = _ := editor_run hafter
    rwa [callsOn_eq_nil fun e he => (hb e he).2] at hrun
  have hwins : LastWins (callsOn i before) first.values (next first (.apply i)).values ↔
      ∀ k, lastHeard Call.says (callsOn i before) k = some none → ∀ v,
        lastHeard Call.puts (callsOn i before) k ≠ some (some v) := by
    refine forall_congr' fun k => ?_
    rw [values_apply hfirst, lookup_apply]
    exact lastWins_key _
  have hothers : ∀ k, (next last (.apply i)).values.lookup k = last.values.lookup k ↔
      ∀ o ∈ ((callsOn i before).foldl Editor.call {}).effect k, last.values.lookup k = o := by
    intro k
    rw [values_apply hlast, lookup_apply]
    cases ((callsOn i before).foldl Editor.call {}).effect k with
    | none => exact iff_of_true rfl nofun
    | some o => exact ⟨fun h o' ho' => Option.some.inj ho' ▸ h.symm, fun h => (h o rfl).symm⟩
  constructor
  · rintro ⟨h₁, h₂⟩
    exact ⟨hwins.mp h₁, fun k hk => (hothers k).mp (h₂ k hk)⟩
  · rintro ⟨h₁, h₂⟩
    exact ⟨hwins.mpr h₁, fun k hk => (hothers k).mpr (h₂ k hk)⟩

/-- The volume is put twice and an old key removed. -/
def volumePut : List Event :=
  [.call 0 (.putInt (some (java "volume")) 3), .call 0 (.remove (some (java "level"))),
    .call 0 (.putInt (some (java "volume")) 5)]

theorem preferences_edited_volumePut :
    AppliedOnce (callsOn 0 volumePut) (run next (next {} .edit) volumePut)
      (run next (next (run next (next {} .edit) volumePut) (.apply 0)) []) 0 [] := by
  refine (preferences_edited_iff {} volumePut [] nofun).mpr ⟨fun k hlast v hput => ?_, nofun⟩
  have hlevel : lastHeard Call.puts (callsOn 0 volumePut) k ≠ none := fun h => by
    cases hput.symm.trans h
  by_cases hk : some (java "volume") = k
  · subst hk
    exact absurd hlast (by decide +kernel)
  · refine hlevel ?_
    simp [lastHeard, callsOn, volumePut, heard, Call.puts, hk]

/-- **A removal is lost.** The key is put and removed, and it is stored. -/
theorem removal_lost : ¬∀ (s : Store) (before between : List Event),
    (∀ e ∈ between, e ≠ .apply s.editors.length ∧ ∀ c, e ≠ .call s.editors.length c) →
    AppliedOnce (callsOn s.editors.length before) (run next (next s .edit) before)
      (run next (next (run next (next s .edit) before) (.apply s.editors.length)) between)
      s.editors.length between := by
  intro hall
  have hwins := (hall {} [.call 0 (.putInt (some (java "volume")) 3),
    .call 0 (.remove (some (java "volume")))] [] nofun).lastWins (some (java "volume"))
  revert hwins
  decide +kernel

end Preferences

end Framework

end Muplar
