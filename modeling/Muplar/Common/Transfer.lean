import Mathlib.Data.Nat.Notation
import Mathlib.Tactic.Common
/-!
# Streams that move in pieces

A call that writes to a socket takes as much as there is room for, and a
call that reads brings what has come so far; so both stand in loops. An
`Outlet` and an `Inlet` are the two ends of a stream, each with a `Pace`
that says how much a call would move, and `putAll` and `getAll` are the
loops. However the stream is cut, the loops move everything
(`putAll_spec`, `getAll_spec`).

A reader takes items off a stream until it refuses one. `Takes` and
`Refuses` say what it does with what stands at the front, and
`receiveAll_items` what comes of a stream of items.
-/

namespace Muplar

namespace Transfer

variable {α β μ : Type}

/-- How much each call would move: something, always. -/
structure Pace where
  cut : ℕ → ℕ
  pos : ∀ n, 0 < cut n

/-- The end that is written to: the calls so far, and what was sent. -/
structure Outlet (α : Type) where
  pace : Pace
  calls : ℕ := 0
  sent : List α := []

/-- The end that is read from: the calls so far, and what is still to
come before the stream ends. -/
structure Inlet (α : Type) where
  pace : Pace
  calls : ℕ := 0
  left : List α

/-! ## Calls -/

/-- One call that writes: how much it took. -/
def Outlet.put (o : Outlet α) (data : List α) : ℕ × Outlet α :=
  let count := min (o.pace.cut o.calls) data.length
  (count, { o with calls := o.calls + 1, sent := o.sent ++ data.take count })

/-- One call that reads, into a buffer of `size`; nothing comes where the
stream has ended. -/
def Inlet.get (i : Inlet α) (size : ℕ) : List α × Inlet α :=
  let count := min (i.pace.cut i.calls) size
  (i.left.take count, { i with calls := i.calls + 1, left := i.left.drop count })

theorem Outlet.put_pos (o : Outlet α) {data : List α} (h : data ≠ []) : 0 < (o.put data).1 := by
  have hpace := o.pace.pos o.calls
  have hlen := List.length_pos_iff.mpr h
  simp only [Outlet.put]
  omega

/-- The loop that writes: whether everything was taken. -/
def Outlet.putAll (o : Outlet α) (data : List α) : Bool × Outlet α :=
  if data = [] then (true, o)
  else if (o.put data).1 = 0 then (false, (o.put data).2)
  else (o.put data).2.putAll (data.drop (o.put data).1)
termination_by data.length
decreasing_by
  have hlen := List.length_pos_iff.mpr ‹data ≠ []›
  rw [List.length_drop]
  omega

/-- The loop that reads: `size` items, or nothing where the stream ends
before. -/
def Inlet.getAll (i : Inlet α) (size : ℕ) : Option (List α) × Inlet α :=
  if size = 0 then (some [], i)
  else if (i.get size).1 = [] then (none, (i.get size).2)
  else
    let rest := (i.get size).2.getAll (size - (i.get size).1.length)
    (rest.1.map ((i.get size).1 ++ ·), rest.2)
termination_by size
decreasing_by
  have hlen := List.length_pos_iff.mpr ‹(i.get size).1 ≠ []›
  omega

/-! ## What the loops come to -/

/-- **Everything is sent**, in whatever pieces. -/
theorem putAll_spec (o : Outlet α) (data : List α) :
    (o.putAll data).1 = true ∧ (o.putAll data).2.sent = o.sent ++ data := by
  induction o, data using Outlet.putAll.induct with
  | case1 o =>
    rw [Outlet.putAll, if_pos rfl]
    exact ⟨rfl, (List.append_nil _).symm⟩
  | case2 o data hne hzero =>
    have hpos := o.put_pos hne
    omega
  | case3 o data hne hcount ih =>
    rw [Outlet.putAll, if_neg hne, if_neg hcount]
    refine ⟨ih.1, ih.2.trans ?_⟩
    simp only [Outlet.put]
    rw [List.append_assoc, List.take_append_drop]

/-- **What is read is what stands at the front**, in whatever pieces. -/
theorem getAll_spec (i : Inlet α) (size : ℕ) :
    (i.getAll size).1 = (if size ≤ i.left.length then some (i.left.take size) else none) ∧
      (i.getAll size).2.left = i.left.drop size := by
  induction i, size using Inlet.getAll.induct with
  | case1 i =>
    rw [Inlet.getAll, if_pos rfl]
    exact ⟨by simp, rfl⟩
  | case2 i size hsize hnil =>
    have hpace := i.pace.pos i.calls
    -- a call brings nothing only where nothing is left
    have hleft : i.left = [] := by
      rcases List.take_eq_nil_iff.mp hnil with hzero | hleft
      · omega
      · exact hleft
    rw [Inlet.getAll, if_neg hsize, if_pos hnil]
    simp only [Inlet.get]
    rw [hleft, if_neg (by rw [List.length_nil]; omega)]
    exact ⟨rfl, by rw [List.drop_nil, List.drop_nil]⟩
  | case3 i size hsize hne ih =>
    rw [Inlet.getAll, if_neg hsize, if_neg hne]
    dsimp only
    rw [ih.1, ih.2]
    simp only [Inlet.get, List.length_take, List.length_drop, List.drop_drop]
    generalize hcount : min (i.pace.cut i.calls) size = count
    have hle : count ≤ size := by omega
    by_cases hroom : size ≤ i.left.length
    · have hmin : min count i.left.length = count := by omega
      rw [hmin, if_pos (by omega), if_pos hroom, Option.map_some, ← List.take_add,
        Nat.add_sub_cancel' hle]
      exact ⟨rfl, rfl⟩
    · rw [if_neg hroom, if_neg (by omega)]
      refine ⟨rfl, ?_⟩
      rw [List.drop_eq_nil_of_le (by omega), List.drop_eq_nil_of_le (by omega)]

/-- What is asked for is there. -/
theorem getAll_append {i : Inlet α} {data rest : List α} {size : ℕ} (hleft : i.left = data ++ rest)
    (hsize : data.length = size) : ∃ i', i.getAll size = (some data, i') ∧ i'.left = rest := by
  obtain ⟨hread, hrest⟩ := getAll_spec i size
  subst hsize
  rw [hleft, if_pos (by simp), List.take_left] at hread
  rw [hleft, List.drop_left] at hrest
  exact ⟨_, Prod.ext hread rfl, hrest⟩

/-! ## Readers -/

/-- A reader of items: what it makes of the front of a stream, or nothing
where it gives up. -/
abbrev Reader (α β : Type) := Inlet α → Option β × Inlet α

variable {read : Reader α β}

/-- The reader takes the piece off the front as the item. -/
def Takes (read : Reader α β) (piece : List α) (item : β) : Prop :=
  ∀ i rest, i.left = piece ++ rest → ∃ i', read i = (some item, i') ∧ i'.left = rest

/-- The reader gives up before this. -/
def Refuses (read : Reader α β) (piece : List α) : Prop :=
  ∀ i rest, i.left = piece ++ rest → (read i).1 = none

/-- Items until the reader gives up, or has had so many turns. -/
def drain (read : Reader α β) : ℕ → Inlet α → List β × Inlet α
  | 0, i => ([], i)
  | n + 1, i =>
    match read i with
    | (none, i) => ([], i)
    | (some item, i) => (item :: (drain read n i).1, (drain read n i).2)

/-- Items until the reader gives up. An item takes something off the
stream, so there are no more turns than that. -/
def receiveAll (read : Reader α β) (i : Inlet α) : List β × Inlet α :=
  drain read (i.left.length + 1) i

theorem drain_refuses {n : ℕ} {i : Inlet α} (h : (read i).1 = none) :
    drain read (n + 1) i = ([], (read i).2) := by
  rw [drain]
  split
  · next i' hread => rw [hread]
  · next item i' hread =>
    rw [hread] at h
    cases h

variable {encode : μ → List α} {value : μ → β}

/-- Items that are taken come first. -/
theorem drain_append {ms : List μ} (htakes : ∀ m ∈ ms, Takes read (encode m) (value m))
    {i : Inlet α} {rest : List α} (hleft : i.left = ms.flatMap encode ++ rest) (n : ℕ) :
    ∃ i', i'.left = rest ∧ drain read (ms.length + n) i =
      (ms.map value ++ (drain read n i').1, (drain read n i').2) := by
  induction ms generalizing i with
  | nil => exact ⟨i, hleft, by rw [List.length_nil, Nat.zero_add]; rfl⟩
  | cons m ms ih =>
    rw [List.forall_mem_cons] at htakes
    rw [List.flatMap_cons, List.append_assoc] at hleft
    obtain ⟨i₁, hread, hleft₁⟩ := htakes.1 i _ hleft
    obtain ⟨i', hrest, hdrain⟩ := ih htakes.2 hleft₁
    refine ⟨i', hrest, ?_⟩
    rw [List.length_cons, Nat.add_right_comm, drain, hread]
    dsimp only
    rw [hdrain]
    rfl

theorem length_le_flatMap (ms : List μ) (hpos : ∀ m, 0 < (encode m).length) :
    ms.length ≤ (ms.flatMap encode).length := by
  induction ms with
  | nil => exact Nat.le_refl _
  | cons m ms ih =>
    have hm := hpos m
    rw [List.flatMap_cons, List.length_append, List.length_cons]
    omega

variable (hpos : ∀ m, 0 < (encode m).length)
include hpos

/-- **A stream of items that are taken** is read to its end, if the reader
gives up where nothing is left. -/
theorem receiveAll_all {ms : List μ} (htakes : ∀ m ∈ ms, Takes read (encode m) (value m))
    (hend : ∀ i : Inlet α, i.left = [] → (read i).1 = none ∧ (read i).2.left = [])
    {i : Inlet α} (hleft : i.left = ms.flatMap encode) :
    (receiveAll read i).1 = ms.map value ∧ (receiveAll read i).2.left = [] := by
  have hlen := length_le_flatMap ms hpos
  obtain ⟨k, hk⟩ : ∃ k, i.left.length + 1 = ms.length + (k + 1) :=
    ⟨i.left.length - ms.length, by rw [hleft]; omega⟩
  rw [← List.append_nil (ms.flatMap encode)] at hleft
  obtain ⟨i', hrest, hdrain⟩ := drain_append htakes hleft (k + 1)
  obtain ⟨hnone, hnil⟩ := hend i' hrest
  rw [receiveAll, hk, hdrain, drain_refuses hnone]
  exact ⟨List.append_nil _, hnil⟩

/-- **And one with an item that is refused** is read up to there. -/
theorem receiveAll_refuses {ms later : List μ} {m : μ}
    (htakes : ∀ m ∈ ms, Takes read (encode m) (value m)) (hrefuses : Refuses read (encode m))
    {i : Inlet α} (hleft : i.left = (ms ++ m :: later).flatMap encode) :
    (receiveAll read i).1 = ms.map value := by
  have hlen := length_le_flatMap (ms ++ m :: later) hpos
  rw [List.length_append, List.length_cons] at hlen
  rw [List.flatMap_append] at hleft hlen
  obtain ⟨k, hk⟩ : ∃ k, i.left.length + 1 = ms.length + (k + 1) :=
    ⟨i.left.length - ms.length, by rw [hleft]; omega⟩
  obtain ⟨i', hrest, hdrain⟩ := drain_append htakes hleft (k + 1)
  rw [List.flatMap_cons] at hrest
  rw [receiveAll, hk, hdrain, drain_refuses (hrefuses i' _ hrest)]
  exact List.append_nil _

/-- Where the reader makes something of an item, one more comes out. -/
theorem length_lt_receiveAll {ms later : List μ} {m : μ}
    (htakes : ∀ m ∈ ms, Takes read (encode m) (value m))
    (hsome : ∀ i rest, i.left = encode m ++ rest → (read i).1.isSome = true)
    {i : Inlet α} (hleft : i.left = (ms ++ m :: later).flatMap encode) :
    ms.length < (receiveAll read i).1.length := by
  have hlen := length_le_flatMap (ms ++ m :: later) hpos
  rw [List.length_append, List.length_cons] at hlen
  rw [List.flatMap_append] at hleft hlen
  obtain ⟨k, hk⟩ : ∃ k, i.left.length + 1 = ms.length + (k + 1) :=
    ⟨i.left.length - ms.length, by rw [hleft]; omega⟩
  obtain ⟨i', hrest, hdrain⟩ := drain_append htakes hleft (k + 1)
  rw [List.flatMap_cons] at hrest
  have hitem := hsome i' _ hrest
  rw [receiveAll, hk, hdrain, drain]
  split
  · next i'' hread =>
    rw [hread] at hitem
    cases hitem
  · simp only [List.length_append, List.length_map, List.length_cons]
    omega

end Transfer

end Muplar
