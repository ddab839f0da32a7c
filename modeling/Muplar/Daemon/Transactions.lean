import Muplar.Common.Lines
import Muplar.Common.Loop
import Muplar.Common.Search
import Muplar.Daemon.Desk
/-!
# muplard — surface transactions

The loop of `apply_surface_transaction`, as it walks through the text: it
works on a copy of the map, writes a field as soon as its number is read,
and stops at the first line that is not valid. What a line says is an
operation on the map, and the loop is shown to be all of the operations
one after the other or none.
-/

namespace Muplar

namespace Daemon

namespace Transaction

variable {F : Floats}

/-! ## Operations -/

/-- What can be changed of a surface that is there. -/
inductive SurfaceChange (F : Floats)
  | visible (visible : Bool)
  | layer (layer : ℤ)
  | alpha (alpha : F.Float)
  | position (x y : F.Float)
  | crop (width height : ℤ)

/-- What a line of a transaction asks for. -/
inductive SurfaceOperation (F : Floats)
  | create (id : UInt64) (name : Bytes) (width height : ℤ)
  | remove (id : UInt64)
  | change (id : UInt64) (change : SurfaceChange F)

/-- The surface after a change. -/
def SurfaceChange.apply (surface : SurfaceState F) : SurfaceChange F → SurfaceState F
  | .visible shown => { surface with visible := shown }
  | .layer z => { surface with layer := z }
  | .alpha value => { surface with alpha := value }
  | .position x y => { surface with x, y }
  | .crop cropWidth cropHeight => { surface with cropWidth, cropHeight }

/-- The surface a `create` makes. -/
def created (name : Bytes) (width height : ℤ) : SurfaceState F :=
  { name, width, height, cropWidth := width, cropHeight := height }

/-- The map after an operation; `none` where the operation fails: a
surface is created under a new id other than zero and with no negative
size, and only a surface that is there is changed. Removing a surface that
is not there removes nothing. -/
def SurfaceOperation.apply (surfaces : Surfaces F) : SurfaceOperation F → Option (Surfaces F)
  | .create id name width height =>
    if id ≠ 0 ∧ width ≥ 0 ∧ height ≥ 0 ∧ id ∉ surfaces then
      some (surfaces.insert id (created name width height))
    else none
  | .remove id => some (surfaces.erase id)
  | .change id what =>
    (surfaces.lookup id).map fun surface => surfaces.insert id (what.apply surface)

/-- The map after an operation, which is the old one where it fails. -/
def SurfaceOperation.perform (surfaces : Surfaces F) (operation : SurfaceOperation F) :
    Surfaces F :=
  (operation.apply surfaces).getD surfaces

/-- Every operation succeeds on the map the ones before it have made. -/
def Succeed : Surfaces F → List (SurfaceOperation F) → Prop
  | _, [] => True
  | surfaces, operation :: operations =>
    (operation.apply surfaces).isSome ∧ Succeed (operation.perform surfaces) operations

/-- The change a line asks for, by its verb and the fields after the id. -/
def readChange (verb : Bytes) (rest : List Bytes) : Option (SurfaceChange F) :=
  if verb = ascii "show" then some (.visible true)
  else if verb = ascii "hide" then some (.visible false)
  else match rest with
    | [value] =>
      if verb = ascii "layer" then (stoi value).map .layer
      else if verb = ascii "alpha" then (F.read value).map .alpha
      else none
    | [first, second] =>
      if verb = ascii "position" then do
        let x ← F.read first
        let y ← F.read second
        some (.position x y)
      else if verb = ascii "crop" then do
        let width ← stoi first
        let height ← stoi second
        some (.crop width height)
      else none
    | _ => none

/-- The operation the fields of a line ask for; `none` where the verb is
unknown, the fields are too few or too many, or a number cannot be read. -/
def readFields : List Bytes → Option (SurfaceOperation F)
  | verb :: id :: rest =>
    if verb = ascii "remove" then (stoull id).map .remove
    else if verb = ascii "create" then match rest with
      | [name, width, height] => do
        let id ← stoull id
        let width ← stoi width
        let height ← stoi height
        some (.create id name width height)
      | _ => none
    else do
      let id ← stoull id
      let change ← readChange verb rest
      some (.change id change)
  | _ => none

/-- The operation a line asks for. -/
def readOperation (line : Bytes) : Option (SurfaceOperation F) :=
  readFields (line.splitOn tabulator)

/-! ## The loop -/

/-- The `else if`s on a surface that was found, which is changed in the
working copy: the surface as the line leaves it, and `valid`. The first of
two numbers is written before the second is read, so a line that fails at
the second has changed the copy. -/
def changeFields (surface : SurfaceState F) (fields : List Bytes) : SurfaceState F × Bool :=
  let field := fun i => (fields[i]?).getD []
  if field 0 = ascii "show" then ({ surface with visible := true }, true)
  else if field 0 = ascii "hide" then ({ surface with visible := false }, true)
  else if fields.length = 3 ∧ field 0 = ascii "layer" then
    match stoi (field 2) with
    | some layer => ({ surface with layer }, true)
    | none => (surface, false)
  else if fields.length = 3 ∧ field 0 = ascii "alpha" then
    match F.read (field 2) with
    | some alpha => ({ surface with alpha }, true)
    | none => (surface, false)
  else if fields.length = 4 ∧ field 0 = ascii "position" then
    match F.read (field 2) with
    | none => (surface, false)
    | some x => match F.read (field 3) with
      | none => ({ surface with x }, false)
      | some y => ({ surface with x, y }, true)
  else if fields.length = 4 ∧ field 0 = ascii "crop" then
    match stoi (field 2) with
    | none => (surface, false)
    | some cropWidth => match stoi (field 3) with
      | none => ({ surface with cropWidth }, false)
      | some cropHeight => ({ surface with cropWidth, cropHeight }, true)
  else (surface, false)

/-- The `try` of one line and its `catch`: the working copy as the line
leaves it, and `valid`. -/
def applyFields (updated : Surfaces F) (fields : List Bytes) : Surfaces F × Bool :=
  let field := fun i => (fields[i]?).getD []
  if fields.length ≥ 2 ∧ field 0 = ascii "remove" then
    match stoull (field 1) with
    | some id => (updated.erase id, true)
    | none => (updated, false)
  else if fields.length = 5 ∧ field 0 = ascii "create" then
    match stoull (field 1), stoi (field 3), stoi (field 4) with
    | some id, some width, some height =>
      if id ≠ 0 ∧ width ≥ 0 ∧ height ≥ 0 ∧ id ∉ updated then
        (updated.insert id
          { name := field 2, width, height, cropWidth := width, cropHeight := height }, true)
      else (updated, false)
    | _, _, _ => (updated, false)
  else if fields.length ≥ 2 then
    match stoull (field 1) with
    | none => (updated, false)
    | some id => match updated.lookup id with
      | none => (updated, false)
      | some surface =>
        let (surface, valid) := changeFields surface fields
        (updated.insert id surface, valid)
  else (updated, false)

/-- The variables of the loop. -/
structure Working (F : Floats) where
  updated : Surfaces F
  valid : Bool := true
  start : ℕ := 0

/-- One turn of the loop: the line from `start` to the next newline. -/
def transactionTurn (payload : Bytes) (w : Working F) : Except Empty (Working F ⊕ Working F) :=
  if w.valid && decide (w.start < payload.length) then
    let stop := find payload [newline] w.start
    let line := match stop with
      | some stop => slice payload w.start (stop - w.start)
      | none => payload.drop w.start
    let (updated, valid) := applyFields w.updated (line.splitOn tabulator)
    match stop with
    | none => .ok (.inr { updated, valid, start := w.start })
    | some stop => .ok (.inl { updated, valid, start := stop + 1 })
  else .ok (.inr w)

/-- `apply_surface_transaction`: the map it leaves, and what it returns. -/
def applySurfaceTransaction (surfaces : Surfaces F) (payload : Bytes) :
    Loop.Fueled Empty (Surfaces F × Bool) := fun n => do
  let w ← Loop.run (transactionTurn payload) { updated := surfaces } n
  pure (if w.valid then (w.updated, true) else (surfaces, false))

/-- The surfaces on the screen, and `surface_generation`. -/
structure Screen (F : Floats) where
  surfaces : Surfaces F
  generation : UInt64

/-- The branch of the loop for `ApplySurfaceTransaction`: the variables it
leaves, its `valid`, and its reply. -/
def serveTransaction (screen : Screen F) (payload : Bytes) :
    Loop.Fueled Empty (Screen F × Bool × Bytes) := fun n => do
  let (surfaces, valid) ← applySurfaceTransaction screen.surfaces payload n
  let generation := if valid then screen.generation + 1 else screen.generation
  pure ({ surfaces, generation }, valid, if valid then decimal generation.toNat else ascii "0")

/-! ## One line -/

/-- The map after a line; `none` where its operation fails. -/
def applyLine (surfaces : Surfaces F) (line : Bytes) : Option (Surfaces F) :=
  (readOperation line).bind fun operation => operation.apply surfaces

/-- What the working copy and `valid` have come to is what an operation
comes to: its map, or that it failed. -/
def Settles (out : Surfaces F × Bool) : Option (Surfaces F) → Prop
  | some surfaces => out = (surfaces, true)
  | none => out.2 = false

theorem changeFields_eq (surface : SurfaceState F) (verb id : Bytes) (rest : List Bytes) :
    match readChange verb rest with
    | some change => changeFields surface (verb :: id :: rest) = (change.apply surface, true)
    | none => (changeFields surface (verb :: id :: rest)).2 = false := by
  by_cases hshow : verb = ascii "show"
  · simp [readChange, changeFields, eq_true hshow, SurfaceChange.apply]
  by_cases hhide : verb = ascii "hide"
  · simp [readChange, changeFields, eq_false hshow, eq_true hhide, SurfaceChange.apply]
  rcases rest with _ | ⟨first, _ | ⟨second, _ | ⟨third, rest⟩⟩⟩
  · simp [readChange, changeFields, eq_false hshow, eq_false hhide]
  · by_cases hlayer : verb = ascii "layer"
    · cases h : stoi first <;>
        simp [readChange, changeFields, eq_false hshow, eq_false hhide, eq_true hlayer, h,
          SurfaceChange.apply]
    by_cases halpha : verb = ascii "alpha"
    · cases h : F.read first <;>
        simp [readChange, changeFields, eq_false hshow, eq_false hhide, eq_false hlayer,
          eq_true halpha, h, SurfaceChange.apply]
    simp [readChange, changeFields, eq_false hshow, eq_false hhide, eq_false hlayer,
      eq_false halpha]
  · by_cases hposition : verb = ascii "position"
    · -- where the second number cannot be read the first is written all the same
      cases h : F.read first <;> cases h' : F.read second <;>
        simp [readChange, changeFields, eq_false hshow, eq_false hhide, eq_true hposition, h, h',
          SurfaceChange.apply]
    by_cases hcrop : verb = ascii "crop"
    · cases h : stoi first <;> cases h' : stoi second <;>
        simp [readChange, changeFields, eq_false hshow, eq_false hhide, eq_false hposition,
          eq_true hcrop, h, h', SurfaceChange.apply]
    simp [readChange, changeFields, eq_false hshow, eq_false hhide, eq_false hposition,
      eq_false hcrop]
  · simp [readChange, changeFields, eq_false hshow, eq_false hhide]

/-- The branch of a line that is neither `remove` nor a `create` of five
fields. -/
theorem applyFields_change (updated : Surfaces F) (verb id : Bytes) (rest : List Bytes)
    (hremove : verb ≠ ascii "remove") (hcreate : ¬(rest.length = 3 ∧ verb = ascii "create")) :
    Settles (applyFields updated (verb :: id :: rest))
      ((stoull id).bind fun id => (readChange verb rest).bind fun change =>
        (SurfaceOperation.change id change).apply updated) := by
  have hfields : ¬((verb :: id :: rest).length = 5 ∧ verb = ascii "create") := by
    rintro ⟨hlength, hverb⟩
    exact hcreate ⟨by simpa using hlength, hverb⟩
  rw [applyFields]
  dsimp only [List.getElem?_cons_zero, List.getElem?_cons_succ, Option.getD_some]
  rw [if_neg fun h => hremove h.2, if_neg hfields, if_pos (by simp)]
  cases stoull id with
  | none => rfl
  | some key =>
    rw [Option.bind_some]
    dsimp only
    cases hlookup : updated.lookup key with
    | none => cases readChange verb rest <;> simp [SurfaceOperation.apply, hlookup, Settles]
    | some surface =>
      dsimp only
      have hfields := changeFields_eq surface verb id rest
      cases hchange : readChange verb rest with
      | none =>
        rw [hchange] at hfields
        exact hfields
      | some change =>
        rw [hchange] at hfields
        dsimp only at hfields
        rw [hfields, Option.bind_some, SurfaceOperation.apply, hlookup]
        rfl

/-- A `create` asks for no change of a surface. -/
theorem readChange_create (rest : List Bytes) :
    readChange (F := F) (ascii "create") rest = none := by
  rcases rest with _ | ⟨first, _ | ⟨second, _ | ⟨third, rest⟩⟩⟩ <;> rfl

/-- **A line of the loop** leaves what its operation makes of the map, or
is not valid. -/
theorem applyFields_settles (updated : Surfaces F) (fields : List Bytes) :
    Settles (applyFields updated fields)
      ((readFields fields).bind fun operation => operation.apply updated) := by
  rcases fields with _ | ⟨verb, _ | ⟨id, rest⟩⟩
  · simp [applyFields, readFields, Settles]
  · simp [applyFields, readFields, Settles]
  by_cases hremove : verb = ascii "remove"
  · cases h : stoull id <;>
      simp [applyFields, readFields, eq_true hremove, h, Settles, SurfaceOperation.apply]
  by_cases hcreate : verb = ascii "create"
  · subst hcreate
    by_cases hthree : rest.length = 3
    · obtain ⟨name, width, height, rfl⟩ := List.length_eq_three.mp hthree
      cases hid : stoull id <;> cases hwidth : stoi width <;> cases hheight : stoi height
      case some.some.some key w h =>
        by_cases hnew : key ≠ 0 ∧ w ≥ 0 ∧ h ≥ 0 ∧ key ∉ updated
        · simp [applyFields, readFields, eq_false hremove, hid, hwidth, hheight, Settles,
            SurfaceOperation.apply, created, hnew]
        · simp [applyFields, readFields, eq_false hremove, hid, hwidth, hheight, Settles,
            SurfaceOperation.apply, created, eq_false hnew]
      all_goals simp [applyFields, readFields, eq_false hremove, hid, hwidth, hheight, Settles]
    · have hchange := applyFields_change updated (ascii "create") id rest hremove
        fun h => hthree h.1
      have hread : readFields (F := F) (ascii "create" :: id :: rest) = none := by
        rw [readFields, if_neg hremove, if_pos rfl]
        rintro name width height rfl
        exact hthree rfl
      rw [hread, Option.bind_none]
      simpa [readChange_create] using hchange
  · have hchange := applyFields_change updated verb id rest hremove fun h => hcreate h.2
    have hread : readFields (F := F) (verb :: id :: rest) =
        (stoull id).bind fun id => (readChange verb rest).bind fun change =>
          some (.change id change) := by
      unfold readFields
      dsimp only
      rw [if_neg hremove, if_neg hcreate]
      rfl
    rw [hread, Option.bind_assoc]
    simpa only [Option.bind_assoc, Option.bind_some] using hchange

theorem applyLine_settles (updated : Surfaces F) (line : Bytes) :
    Settles (applyFields updated (line.splitOn tabulator)) (applyLine updated line) :=
  applyFields_settles updated (line.splitOn tabulator)

/-! ## The text -/

section Text

variable {payload line more : Bytes} {start : ℕ}

theorem find_newline (hrest : payload.drop start = line ++ newline :: more) (hline : newline ∉ line)
    (hstart : start ≤ payload.length) :
    find payload [newline] start = some (start + line.length) := by
  have hat : search [newline] (newline :: more) = some 0 := search_of_isPrefix ⟨more, rfl⟩
  rw [find, if_neg (by omega), hrest, search_skip hline, hat]
  rfl

theorem find_no_newline (hrest : newline ∉ payload.drop start) :
    find payload [newline] start = none := by
  rw [find]
  split
  · rfl
  · rw [search_eq_none hrest]
    rfl

variable {w : Working F}

/-- A turn that ends the loop: a line was not valid, or none is left. -/
theorem turn_done (h : w.valid = false ∨ payload.length ≤ w.start) :
    transactionTurn payload w = .ok (.inr w) := by
  rw [transactionTurn, if_neg]
  rw [Bool.and_eq_true, decide_eq_true_eq]
  rintro ⟨hvalid, hstart⟩
  rcases h with h | h
  · rw [hvalid] at h
    cases h
  · omega

/-- A turn at a line with a newline behind it. -/
theorem turn_line (hvalid : w.valid = true)
    (hrest : payload.drop w.start = line ++ newline :: more) (hline : newline ∉ line) :
    transactionTurn payload w = .ok (.inl
      { updated := (applyFields w.updated (line.splitOn tabulator)).1
        valid := (applyFields w.updated (line.splitOn tabulator)).2
        start := w.start + line.length + 1 }) := by
  have hlength := congrArg List.length hrest
  rw [List.length_drop, List.length_append, List.length_cons] at hlength
  have hslice : slice payload w.start (w.start + line.length - w.start) = line := by
    rw [slice, hrest, Nat.add_sub_cancel_left, List.take_left]
  rw [transactionTurn, if_pos (by simp [hvalid]; omega), find_newline hrest hline (by omega)]
  dsimp only
  rw [hslice]

/-- A turn at a last line, with no newline behind it. -/
theorem turn_last (hvalid : w.valid = true) (hrest : newline ∉ payload.drop w.start)
    (hstart : w.start < payload.length) :
    transactionTurn payload w = .ok (.inr
      { updated := (applyFields w.updated ((payload.drop w.start).splitOn tabulator)).1
        valid := (applyFields w.updated ((payload.drop w.start).splitOn tabulator)).2
        start := w.start }) := by
  rw [transactionTurn, if_pos (by simp [hvalid, hstart]), find_no_newline hrest]

end Text

/-- **The loop** from a line on: the map of the lines that are left, or a
line that is not valid. -/
theorem transactionLoop (payload : Bytes) (w : Working F) (hvalid : w.valid = true)
    (hstart : w.start ≤ payload.length) :
    ∃ w', Loop.Yields (Loop.run (transactionTurn payload) w) (.ok w') ∧
      Settles (w'.updated, w'.valid)
        ((getlines newline (payload.drop w.start)).foldlM applyLine w.updated) := by
  -- on the bytes that are left
  induction hk : payload.length - w.start using Nat.strongRecOn generalizing w with
  | ind k ih =>
    subst hk
    rcases Nat.eq_or_lt_of_le hstart with hend | hlt
    · refine ⟨w, Loop.yields_return (turn_done (.inr hend.ge)), ?_⟩
      rw [hend, List.drop_length, getlines_nil]
      exact congrArg (Prod.mk w.updated) hvalid
    by_cases hmem : newline ∈ payload.drop w.start
    · obtain ⟨line, more, hrest, hline⟩ := List.eq_append_cons_of_mem hmem
      have hnext := turn_line hvalid hrest hline
      have hsettles := applyLine_settles w.updated line
      rw [hrest, getlines_line_append hline, List.foldlM_cons]
      cases happly : applyLine w.updated line with
      | none =>
        rw [happly] at hsettles
        refine ⟨_, (Loop.yields_next hnext).mpr (Loop.yields_return (turn_done (.inl hsettles))), ?_⟩
        exact hsettles
      | some surfaces =>
        rw [happly] at hsettles
        have hfields : applyFields w.updated (line.splitOn tabulator) = (surfaces, true) := hsettles
        rw [hfields] at hnext
        have hlength := congrArg List.length hrest
        rw [List.length_drop, List.length_append, List.length_cons] at hlength
        have hmore : payload.drop (w.start + line.length + 1) = more := by
          rw [Nat.add_assoc, ← List.drop_drop, hrest, ← List.drop_drop, List.drop_left]
          rfl
        obtain ⟨w', hyields, hw'⟩ := ih (payload.length - (w.start + line.length + 1)) (by omega)
          { updated := surfaces, valid := true, start := w.start + line.length + 1 } rfl
          (by dsimp only; omega) rfl
        refine ⟨w', (Loop.yields_next hnext).mpr hyields, ?_⟩
        rw [hmore] at hw'
        exact hw'
    · have hne : payload.drop w.start ≠ [] := by
        rw [Ne, List.drop_eq_nil_iff]
        omega
      refine ⟨_, Loop.yields_return (turn_last hvalid hmem hlt), ?_⟩
      rw [getlines_of_not_mem hne hmem, List.foldlM_cons]
      have hsettles := applyLine_settles w.updated (payload.drop w.start)
      cases happly : applyLine w.updated (payload.drop w.start) with
      | none =>
        rw [happly] at hsettles
        exact hsettles
      | some surfaces =>
        rw [happly] at hsettles
        exact hsettles

/-- What a transaction comes to. -/
def outcome (surfaces : Surfaces F) (payload : Bytes) : Surfaces F × Bool :=
  match (getlines newline payload).foldlM applyLine surfaces with
  | some updated => (updated, true)
  | none => (surfaces, false)

theorem applySurfaceTransaction_yields (surfaces : Surfaces F) (payload : Bytes) :
    Loop.Yields (applySurfaceTransaction surfaces payload) (.ok (outcome surfaces payload)) := by
  obtain ⟨w, ⟨n, hn⟩, hw⟩ := transactionLoop payload { updated := surfaces } rfl (Nat.zero_le _)
  refine ⟨n, (Loop.run_bind_ok hn).trans ?_⟩
  rw [outcome]
  dsimp only at hw
  rw [List.drop_zero] at hw
  cases hfold : (getlines newline payload).foldlM applyLine surfaces with
  | none =>
    rw [hfold] at hw
    have hvalid : w.valid = false := hw
    rw [hvalid]
    rfl
  | some updated =>
    rw [hfold] at hw
    obtain ⟨hupdated, hvalid⟩ := Prod.mk.inj (show (w.updated, w.valid) = (updated, true) from hw)
    rw [hvalid, hupdated]
    rfl

/-- What the branch of the loop comes to. -/
def served (screen : Screen F) (payload : Bytes) : Screen F × Bool × Bytes :=
  match (getlines newline payload).foldlM applyLine screen.surfaces with
  | some surfaces =>
    ({ surfaces, generation := screen.generation + 1 }, true,
      decimal (screen.generation + 1).toNat)
  | none => (screen, false, ascii "0")

theorem serveTransaction_yields (screen : Screen F) (payload : Bytes) :
    Loop.Yields (serveTransaction screen payload) (.ok (served screen payload)) := by
  obtain ⟨n, hn⟩ := applySurfaceTransaction_yields screen.surfaces payload
  refine ⟨n, (Loop.run_bind_ok hn).trans ?_⟩
  rw [outcome, served]
  cases (getlines newline payload).foldlM applyLine screen.surfaces <;> rfl

/-! ## All or nothing -/

theorem apply_eq_perform {surfaces : Surfaces F} {operation : SurfaceOperation F}
    (h : (operation.apply surfaces).isSome = true) :
    operation.apply surfaces = some (operation.perform surfaces) := by
  obtain ⟨updated, happly⟩ := Option.isSome_iff_exists.mp h
  rw [SurfaceOperation.perform, happly, Option.getD_some]

/-- **The lines succeed** where each asks for an operation and these
succeed one after the other; the map is then their left fold. -/
theorem foldlM_applyLine_iff {lines : List Bytes} {surfaces updated : Surfaces F} :
    lines.foldlM applyLine surfaces = some updated ↔
      ∃ operations : List (SurfaceOperation F), lines.map readOperation = operations.map some ∧
        Succeed surfaces operations ∧
        updated = operations.foldl SurfaceOperation.perform surfaces := by
  induction lines generalizing surfaces with
  | nil =>
    constructor
    · intro h
      exact ⟨[], rfl, trivial, (Option.some.inj h).symm⟩
    · rintro ⟨operations, hread, -, rfl⟩
      rw [List.map_eq_nil_iff.mp hread.symm]
      rfl
  | cons line lines ih =>
    rw [List.foldlM_cons, Option.bind_eq_bind, Option.bind_eq_some_iff]
    constructor
    · rintro ⟨next, hline, hrest⟩
      obtain ⟨operation, hread, happly⟩ := Option.bind_eq_some_iff.mp hline
      have hnext : operation.perform surfaces = next := by
        rw [SurfaceOperation.perform, happly, Option.getD_some]
      obtain ⟨operations, hreads, hsucceed, hfold⟩ := ih.mp hrest
      refine ⟨operation :: operations, ?_, ⟨by rw [happly]; rfl, hnext ▸ hsucceed⟩, ?_⟩
      · rw [List.map_cons, List.map_cons, hread, hreads]
      · rw [List.foldl_cons, hnext]
        exact hfold
    · rintro ⟨operations, hreads, hsucceed, hfold⟩
      cases operations with
      | nil => cases hreads
      | cons operation operations =>
        rw [List.map_cons, List.map_cons] at hreads
        obtain ⟨hread, hreads⟩ := List.cons.inj hreads
        refine ⟨operation.perform surfaces, ?_, ih.mpr ⟨operations, hreads, hsucceed.2, hfold⟩⟩
        rw [applyLine, hread, Option.bind_some]
        exact apply_eq_perform hsucceed.1

theorem foldlM_applyLine_eq_none {before after : List Bytes} {line : Bytes}
    {surfaces reached : Surfaces F} (hbefore : before.foldlM applyLine surfaces = some reached)
    (hline : applyLine reached line = none) :
    (before ++ line :: after).foldlM applyLine surfaces = none := by
  rw [List.foldlM_append, hbefore, Option.bind_eq_bind, Option.bind_some, List.foldlM_cons, hline]
  rfl

/-- **All or nothing**, of the variables and the answer a transaction
leaves. -/
structure Atomic (screen : Screen F) (payload : Bytes) (screen' : Screen F) (valid : Bool)
    (reply : Bytes) : Prop where
  /-- success: the operations of all the lines, one after the other -/
  success : valid = true → ∃ operations : List (SurfaceOperation F),
    (getlines newline payload).map readOperation = operations.map some ∧
      Succeed screen.surfaces operations ∧
      screen'.surfaces = operations.foldl SurfaceOperation.perform screen.surfaces ∧
      screen'.generation = screen.generation + 1 ∧
      reply = decimal (screen.generation + 1).toNat
  /-- failure: nothing changes -/
  failure : valid = false → screen' = screen ∧ reply = ascii "0"
  /-- a line that asks for no operation makes it fail, wherever it stands -/
  unread : ∀ line ∈ getlines newline payload, readOperation (F := F) line = none → valid = false
  /-- so does a line whose operation fails on the map it comes to -/
  failed : ∀ before line after reached, getlines newline payload = before ++ line :: after →
    before.foldlM applyLine screen.surfaces = some reached → applyLine reached line = none →
    valid = false

theorem served_atomic (screen : Screen F) (payload : Bytes) :
    Atomic screen payload (served screen payload).1 (served screen payload).2.1
      (served screen payload).2.2 := by
  cases hfold : (getlines newline payload).foldlM applyLine screen.surfaces with
  | none =>
    simp only [served, hfold]
    exact {
      success := fun h => nomatch h
      failure := fun _ => ⟨rfl, rfl⟩
      unread := fun _ _ _ => rfl
      failed := fun _ _ _ _ _ _ _ => rfl }
  | some surfaces =>
    obtain ⟨operations, hreads, hsucceed, hsurfaces⟩ := foldlM_applyLine_iff.mp hfold
    simp only [served, hfold]
    exact {
      success := fun _ => ⟨operations, hreads, hsucceed, hsurfaces, rfl, rfl⟩
      failure := fun h => nomatch h
      unread := by
        -- every line of a text that succeeds has asked for an operation
        intro line hline hread
        have hmem := List.mem_map_of_mem (f := readOperation (F := F)) hline
        rw [hreads, hread] at hmem
        obtain ⟨_, -, hsome⟩ := List.mem_map.mp hmem
        cases hsome
      failed := by
        intro before line after reached hlines hbefore hnone
        rw [hlines, foldlM_applyLine_eq_none hbefore hnone] at hfold
        cases hfold }

/-- **Transactions are atomic.** The loop ends, and it has done every
operation of the text or none. -/
theorem transaction_atomic (screen : Screen F) (payload : Bytes) :
    ∃ screen' valid reply,
      Loop.Yields (serveTransaction screen payload) (.ok (screen', valid, reply)) ∧
        Atomic screen payload screen' valid reply :=
  ⟨_, _, _, serveTransaction_yields screen payload, served_atomic screen payload⟩

/-! ## In the daemon -/

theorem updateSurface_eq (surface : SurfaceState F) (verb : Bytes) (rest : List Bytes) :
    updateSurface surface verb rest =
      (readChange verb rest).map fun change => change.apply surface := by
  unfold updateSurface readChange
  by_cases hshow : verb = ascii "show"
  · rw [if_pos hshow, if_pos hshow]
    rfl
  by_cases hhide : verb = ascii "hide"
  · rw [if_neg hshow, if_neg hshow, if_pos hhide, if_pos hhide]
    rfl
  rw [if_neg hshow, if_neg hshow, if_neg hhide, if_neg hhide]
  rcases rest with _ | ⟨first, _ | ⟨second, _ | ⟨third, rest⟩⟩⟩
  · rfl
  · dsimp only
    split_ifs
    · cases stoi first <;> rfl
    · cases F.read first <;> rfl
    · rfl
  · dsimp only
    split_ifs
    · cases F.read first <;> cases F.read second <;> rfl
    · cases stoi first <;> cases stoi second <;> rfl
    · rfl
  · rfl

theorem changeSurface_eq (surfaces : Surfaces F) (verb id : Bytes) (rest : List Bytes) :
    changeSurface surfaces verb id rest =
      (stoull id).bind fun id => (readChange verb rest).bind fun change =>
        (SurfaceOperation.change id change).apply surfaces := by
  unfold changeSurface
  cases stoull id with
  | none => rfl
  | some key =>
    cases hlookup : surfaces.lookup key <;> cases hchange : readChange (F := F) verb rest <;>
      simp [updateSurface_eq, hlookup, hchange, SurfaceOperation.apply]

/-- The line as the daemon's state takes it is the line of the loop. -/
theorem applySurfaceLine_eq (surfaces : Surfaces F) (line : Bytes) :
    applySurfaceLine surfaces line = applyLine surfaces line := by
  rw [applySurfaceLine, applyLine, readOperation]
  rcases line.splitOn tabulator with _ | ⟨verb, _ | ⟨id, rest⟩⟩
  · rfl
  · rfl
  dsimp only
  unfold readFields
  dsimp only
  by_cases hremove : verb = ascii "remove"
  · rw [if_pos hremove, if_pos hremove]
    cases stoull id <;> rfl
  rw [if_neg hremove, if_neg hremove]
  by_cases hcreate : verb = ascii "create"
  · subst hcreate
    rw [if_pos rfl]
    rcases rest with _ | ⟨name, _ | ⟨width, _ | ⟨height, _ | ⟨more, rest⟩⟩⟩⟩
    case cons.cons.cons.nil =>
      dsimp only
      rw [if_pos rfl, createSurface]
      cases stoull id <;> cases stoi width <;> cases stoi height <;> rfl
    all_goals
      dsimp only
      rw [changeSurface_eq, readChange_create]
      cases stoull id <;> rfl
  · have hchange : changeSurface surfaces verb id rest =
        ((stoull id).bind fun id => (readChange verb rest).bind fun change =>
          some (SurfaceOperation.change id change)).bind fun operation =>
            operation.apply surfaces := by
      rw [changeSurface_eq]
      cases stoull id with
      | none => rfl
      | some key => cases readChange (F := F) verb rest <;> rfl
    rw [if_neg hcreate]
    refine Eq.trans ?_ hchange
    split
    · rw [if_neg hcreate]
    · rfl

theorem transactionLines_eq (payload : Bytes) :
    transactionLines payload = getlines newline payload := by
  obtain ⟨init, last, hparts, -⟩ := exists_unlines newline payload
  rw [transactionLines, getlines, hparts, List.getLast?_concat, List.getLastD_concat]
  cases last <;> rfl

theorem applySurfaceTransaction_eq (surfaces : Surfaces F) (payload : Bytes) :
    Daemon.applySurfaceTransaction surfaces payload =
      (getlines newline payload).foldlM applyLine surfaces := by
  rw [Daemon.applySurfaceTransaction, transactionLines_eq,
    funext fun surfaces => funext (applySurfaceLine_eq surfaces)]

/-- **The daemon** serves a transaction as the loop does. -/
theorem serveVariables_transaction (env : Environment) (d : State (Variables F))
    (info : ClientInfo) (payload : Bytes) :
    let r := serveVariables env d info .applySurfaceTransaction payload
    ∃ valid, Loop.Yields (serveTransaction ⟨d.desk.surfaces, d.desk.surfaceGeneration⟩ payload)
      (.ok (⟨r.desk.surfaces, r.desk.surfaceGeneration⟩, valid, r.reply)) := by
  have hyields := serveTransaction_yields ⟨d.desk.surfaces, d.desk.surfaceGeneration⟩ payload
  dsimp only [serveVariables]
  rw [applySurfaceTransaction_eq]
  rw [served] at hyields
  dsimp only at hyields
  cases hfold : (getlines newline payload).foldlM applyLine d.desk.surfaces with
  | none =>
    rw [hfold] at hyields
    exact ⟨false, hyields⟩
  | some surfaces =>
    rw [hfold] at hyields
    exact ⟨true, hyields⟩

end Transaction

end Daemon

end Muplar
