import Muplar.Common.Counter
import Muplar.Daemon.History
import Muplar.Daemon.SurfaceList
/-!
# muplard — what a generation says

The screen, the last action, the last input, the last closed tab and the
package registry each have a generation of 64 bits, and a client that asks
again compares generations. Every event counts what it changes, so a
generation that is the same stands for the same content
(`generations_tell`), as long as fewer than 2^64 events lie between.

What one event can do to the desk is said once (`next_desk`); it also
shows that in every run the daemon's screen is one that whole transactions
lead to (`screen_reachable`).
-/

namespace Muplar

namespace Daemon

open Machine

variable {F : Floats} {env : Environment} {d : State (Variables F)} {e : Event}

/-- **One event at the desk**: nothing, a request, or a look at the
registry. -/
theorem next_desk (env : Environment) (hadm : d.Admits e) :
    (d.next (desk F env) e).desk = d.desk ∨
      (∃ info op payload,
        (d.next (desk F env) e).desk = (serveVariables env d info op payload).desk) ∨
      (d.next (desk F env) e).desk = (tickVariables env d.desk).1 := by
  have hdid := step_did (desk F env) hadm
  rw [State.next]
  generalize d.step (desk F env) e = r at hdid
  cases hdid with
  | accepted => exact .inl rfl
  | announced => exact .inr (.inr rfl)
  | aside _ _ hapart => exact .inl hapart.desk
  | left => exact .inl rfl
  | served => exact .inr (.inl ⟨_, _, _, rfl⟩)

/-! ## Cells -/

/-- The variables that have a generation. -/
inductive Cell
  | surfaces
  | deviceState
  | deviceInputState
  | tabFinishedState
  | packages
  deriving DecidableEq

namespace Cell

def generation (v : Variables F) : Cell → UInt64
  | surfaces => v.surfaceGeneration
  | deviceState => v.deviceState.generation
  | deviceInputState => v.deviceInputState.generation
  | tabFinishedState => v.tabFinishedState.generation
  | packages => v.packageGeneration

/-- What the generation counts. -/
def Content (F : Floats) : Cell → Type
  | surfaces => Surfaces F
  | deviceState => DeviceState
  | deviceInputState => DeviceInputState F
  | tabFinishedState => TabFinishedState
  | packages => UInt64

/-- The content; of the registry the daemon knows the stamp. -/
def content (v : Variables F) : (cell : Cell) → cell.Content F
  | surfaces => v.surfaces
  | deviceState => v.deviceState
  | deviceInputState => v.deviceInputState
  | tabFinishedState => v.tabFinishedState
  | packages => v.previousRegistryStamp

/-- From one state of the variables to another, the cell counts what
changes. -/
def Counts (cell : Cell) (v v' : Variables F) : Prop :=
  Machine.Counts (fun v => cell.generation v) (fun v => cell.content v) v v'

end Cell

theorem applyTabFinished_generation {state state' : TabFinishedState} {payload : Bytes}
    (h : applyTabFinished state payload = some state') :
    state'.generation = state.generation + 1 := by
  rw [applyTabFinished] at h
  split_ifs at h
  rw [← Option.some.inj h]

/-- A state that is replaced where a request is understood. -/
theorem counts_getD {α : Type} {generation : α → UInt64} {state : α} {applied : Option α}
    (h : ∀ state', applied = some state' → generation state' = generation state + 1) :
    Machine.Counts generation id state (applied.getD state) := by
  cases applied with
  | none => exact .inr ⟨rfl, rfl⟩
  | some state' => exact .inl (h state' rfl)

/-- **A request** counts what it changes. -/
theorem counts_serve (cell : Cell) (info : ClientInfo) (op : Opcode) (payload : Bytes) :
    cell.Counts d.desk (serveVariables env d info op payload).desk := by
  cases op
  case applySurfaceTransaction =>
    rw [serveVariables]
    cases applySurfaceTransaction d.desk.surfaces payload with
    | none => cases cell <;> exact .inr ⟨rfl, rfl⟩
    | some surfaces =>
      cases cell
      case surfaces => exact .inl rfl
      all_goals exact .inr ⟨rfl, rfl⟩
  case deviceAction =>
    cases cell
    case deviceState => exact counts_getD fun _ h => applyDeviceAction_generation h
    all_goals exact .inr ⟨rfl, rfl⟩
  case deviceInput =>
    cases cell
    case deviceInputState => exact counts_getD fun _ h => applyDeviceInput_generation h
    all_goals exact .inr ⟨rfl, rfl⟩
  case tabFinished =>
    cases cell
    case tabFinishedState => exact counts_getD fun _ h => applyTabFinished_generation h
    all_goals exact .inr ⟨rfl, rfl⟩
  all_goals cases cell <;> exact .inr ⟨rfl, rfl⟩

/-- **A look at the registry** counts it where the stamp changed. -/
theorem counts_tick (cell : Cell) (v : Variables F) : cell.Counts v (tickVariables env v).1 := by
  simp only [tickVariables]
  split
  · cases cell
    case packages => exact .inl rfl
    all_goals exact .inr ⟨rfl, rfl⟩
  · cases cell <;> exact .inr ⟨rfl, rfl⟩

theorem counts_next (cell : Cell) (hadm : d.Admits e) :
    cell.Counts d.desk (d.next (desk F env) e).desk := by
  rcases next_desk env hadm with h | ⟨info, op, payload, h⟩ | h
  · rw [h]
    exact .inr ⟨rfl, rfl⟩
  · rw [h]
    exact counts_serve cell info op payload
  · rw [h]
    exact counts_tick cell d.desk

/-! ## Every run -/

variable (F) (env)
variable (loaded : Settings) (stamp : UInt64)

/-- **Generations tell.** Of two states of a run with fewer than 2^64
events between them, where the generation of a cell is the same, so is its
content. -/
theorem generations_tell {before after : List Event}
    (hpossible : Possible F env loaded stamp (before ++ after)) (hshort : after.length < 2 ^ 64)
    (cell : Cell) (hsame : cell.generation (stateAfter F env loaded stamp (before ++ after)).desk =
      cell.generation (stateAfter F env loaded stamp before).desk) :
    cell.content (stateAfter F env loaded stamp (before ++ after)).desk =
      cell.content (stateAfter F env loaded stamp before).desk := by
  have hcounts : ∀ (d : State (Variables F)) (e : Event), d.Admits e →
      Machine.Counts (fun d => cell.generation d.desk) (fun d => cell.content d.desk) d
        (d.next (desk F env) e) := fun d e hadm => counts_next cell hadm
  have hafter := (meets_append.mp hpossible).2
  rw [stateAfter, run_append] at hsame ⊢
  exact value_eq_of_counter_eq hcounts hafter hshort hsame

/-- A request that is refused leaves the generation of the actions, and so
the action. -/
theorem generations_tell_refused :
    let before : List Event := [.accept 4 1 1, .turn 0 (message 23 8 (ascii "back\ntab"))]
    let after : List Event := [.turn 0 (message 23 9 (ascii "jump")), .announce]
    (stateAfter wholeNumbers stillness ∅ 0 (before ++ after)).desk.deviceState =
      (stateAfter wholeNumbers stillness ∅ 0 before).desk.deviceState :=
  generations_tell wholeNumbers stillness ∅ 0 (by decide) (by decide) .deviceState (by decide)

/-- **The screen in every run** is one that whole transactions lead to. -/
theorem screen_reachable {es : List Event} (hpossible : Possible F env loaded stamp es) :
    Throughout (State.next (desk F env))
      (fun d => Transaction.Reachable (Transaction.screen d.desk)) (State.boot loaded stamp)
      es := by
  refine throughout_of_invariant (fun d e h hadm => ?_) Transaction.Reachable.start hpossible
  rcases next_desk env hadm with hdesk | ⟨info, op, payload, hdesk⟩ | hdesk
  · rw [hdesk]
    exact h
  · rw [hdesk]
    exact h.serve info op payload
  · rw [hdesk]
    simp only [tickVariables]
    split <;> exact h

/-- A desktop is put on the screen, and a transaction is refused. -/
theorem screen_reachable_desktop :
    Throughout (State.next (desk wholeNumbers stillness))
      (fun d => Transaction.Reachable (Transaction.screen d.desk)) (State.boot ∅ 0)
      [.accept 4 1 1, .turn 0 (message 21 8 (ascii "create\t7\tdesk top\t8\t6\nshow\t7")),
        .turn 0 (message 21 9 (ascii "create\t8\tdock\t8\t6\nshow\t9"))] :=
  screen_reachable wholeNumbers stillness ∅ 0 (by decide)

end Daemon

end Muplar
