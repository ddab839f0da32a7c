import Muplar.Common.Run
import Muplar.Shim.Graphics
/-!
# Saved frames

A canvas has 512 places for saved frames. A save in a canvas whose places
are taken keeps nothing, but answers like the save before it, and the
restore that belongs to it takes the frame of another.

As long as a place is left for every save, the saves that were not undone
lie on the stack as they were answered, so each is found by its count, and
what is balanced changes nothing (`saves_nest_iff`).
-/

namespace Muplar

namespace Shim

namespace CanvasState

variable {φ δ : Type}

/-! ## Calls -/

/-- What `Canvas_nSave` returns. -/
def saveResult (c : CanvasState φ) : ℤ :=
  c.save.stack.length

/-- `Canvas_nGetSaveCount`. -/
def getSaveCount (c : CanvasState φ) : ℤ :=
  c.stack.length + 1

/-- The calls on a canvas that has a state; the bitmap stays. -/
inductive StackCall (φ : Type)
  | save (flags : ℤ)
  | saveLayer (l t r b : φ)
  | saveLayerAlpha (l t r b : φ) (alpha : ℤ)
  | saveUnclippedLayer (left top right bottom : ℤ)
  | restore
  | restoreToCount (saveCount : ℤ)
  | restoreUnclippedLayer (saveCount : ℤ)
  | translate (dx dy : φ)
  | scale (sx sy : φ)
  | setMatrix
  | clipRect (left top right bottom : φ)

namespace StackCall

/-- What a call does to the canvas. -/
def exec (R : Raster φ δ) (c : CanvasState φ) : StackCall φ → CanvasState φ
  | .save _ => c.save
  | .saveLayer l t r b => c.saveLayer R l t r b
  | .saveLayerAlpha l t r b _ => c.saveLayer R l t r b
  | .saveUnclippedLayer _ _ _ _ => c.save
  | .restore => c.restore
  | .restoreToCount saveCount => c.restoreToCount saveCount
  | .restoreUnclippedLayer saveCount => c.restoreToCount saveCount
  | .translate dx dy => c.translate R dx dy
  | .scale sx sy => c.scale R sx sy
  | .setMatrix => c.setMatrix R
  | .clipRect left top right bottom => c.clipRect R left top right bottom

/-- The calls that save; each returns what `nSave` does. -/
def saves : StackCall φ → Bool
  | .save _ | .saveLayer .. | .saveLayerAlpha .. | .saveUnclippedLayer .. => true
  | _ => false

/-- The calls that change the frame and nothing else. -/
def draws : StackCall φ → Bool
  | .translate .. | .scale .. | .setMatrix | .clipRect .. => true
  | _ => false

end StackCall

/-! ## What is remembered of the saves -/

/-- A save: what it returned, and how it found the canvas. -/
structure Saved (φ : Type) where
  returned : ℤ
  frame : Frame φ
  count : ℤ

/-- A canvas and the saves that were not undone, the last one first. -/
structure Tracked (φ : Type) where
  canvas : CanvasState φ
  saved : List (Saved φ)

/-- A call undoes the last save, or those down to a count. -/
def StackCall.undo : StackCall φ → List (Saved φ) → List (Saved φ)
  | .restore, saved => saved.tail
  | .restoreToCount k, saved => saved.dropWhile (k ≤ ·.returned)
  | .restoreUnclippedLayer k, saved => saved.dropWhile (k ≤ ·.returned)
  | _, saved => saved

namespace Tracked

def step (R : Raster φ δ) (t : Tracked φ) (call : StackCall φ) : Tracked φ where
  canvas := call.exec R t.canvas
  saved :=
    if call.saves then ⟨t.canvas.saveResult, t.canvas.frame, t.canvas.getSaveCount⟩ :: t.saved
    else call.undo t.saved

/-- A canvas that no save is known of. -/
def of (c : CanvasState φ) : Tracked φ := ⟨c, []⟩

/-- **Every save can be undone**: restoring to what it returned leaves
translation, scale and clip as they were before it, and the count. -/
def Undoable (t : Tracked φ) : Prop :=
  ∀ s ∈ t.saved, (t.canvas.restoreToCount s.returned).frame = s.frame ∧
    (t.canvas.restoreToCount s.returned).getSaveCount = s.count

/-- A save has a place. -/
def HasPlace (t : Tracked φ) (call : StackCall φ) : Prop :=
  call.saves = true → t.canvas.stack.length < 512

end Tracked

/-! ## Balanced sequences -/

/-- Calls in which every save is undone, and nothing else. -/
inductive Nested : List (StackCall φ) → Prop
  | nil : Nested []
  | draw {call : StackCall φ} {rest : List (StackCall φ)} (h : call.draws = true)
    (hrest : Nested rest) : Nested (call :: rest)
  | pair {call : StackCall φ} {inner rest : List (StackCall φ)} (h : call.saves = true)
    (hinner : Nested inner) (hrest : Nested rest) : Nested (call :: (inner ++ .restore :: rest))

/-- A balanced sequence of saves and restores; the frame may be changed
between a save and its restore. -/
inductive Balanced : List (StackCall φ) → Prop
  | nil : Balanced []
  | pair {call : StackCall φ} {inner rest : List (StackCall φ)} (h : call.saves = true)
    (hinner : Nested inner) (hrest : Balanced rest) :
    Balanced (call :: (inner ++ .restore :: rest))

/-! ## What a call leaves -/

section

variable {R : Raster φ δ} {c : CanvasState φ} {call : StackCall φ} {t : Tracked φ}
variable {saved : List (Saved φ)} {s : Saved φ} {k : ℤ}

theorem save_of_place (h : c.stack.length < 512) :
    c.save.stack = c.frame :: c.stack ∧ c.save.frame = c.frame := by
  rw [save, dif_pos h]
  exact ⟨rfl, rfl⟩

theorem save_of_full (h : ¬c.stack.length < 512) : c.save = c := by
  rw [save, dif_neg h]

/-- A save of either kind leaves the stack that `nSave` leaves. -/
theorem stack_exec_of_saves (h : call.saves = true) : (call.exec R c).stack = c.save.stack := by
  cases call with
  | save | saveUnclippedLayer => rfl
  | saveLayer l t r b | saveLayerAlpha l t r b =>
    show (c.saveLayer R l t r b).stack = _
    unfold saveLayer
    split <;> rfl
  | _ => cases h

theorem stack_exec_of_draws (h : call.draws = true) : (call.exec R c).stack = c.stack := by
  cases call with
  | translate | scale | setMatrix | clipRect => rfl
  | _ => cases h

theorem restore_of_cons {f : Frame φ} {stack : List (Frame φ)} (h : c.stack = f :: stack) :
    c.restore.frame = f ∧ c.restore.stack = stack := by
  show c.stack.head?.getD c.frame = f ∧ c.stack.tail = stack
  rw [h]
  exact ⟨rfl, rfl⟩

theorem bitmapToken_save : c.save.bitmapToken = c.bitmapToken := by
  unfold save
  split <;> rfl

theorem bitmapToken_restoreToCount : (c.restoreToCount k).bitmapToken = c.bitmapToken := by
  induction c using restoreToCount.induct k with
  | case1 c h ih =>
    rw [restoreToCount, if_pos h, ih]
    rfl
  | case2 c h => rw [restoreToCount, if_neg h]

theorem bitmapToken_exec : (call.exec R c).bitmapToken = c.bitmapToken := by
  cases call with
  | save | saveUnclippedLayer => exact bitmapToken_save
  | saveLayer l t r b | saveLayerAlpha l t r b =>
    show (c.saveLayer R l t r b).bitmapToken = _
    unfold saveLayer
    split <;> exact bitmapToken_save
  | restoreToCount | restoreUnclippedLayer => exact bitmapToken_restoreToCount
  | restore | translate | scale | setMatrix | clipRect => rfl

/-- Fewer frames are left than counted to. -/
theorem length_restoreToCount (hk : 0 < k) : ((c.restoreToCount k).stack.length : ℤ) < k := by
  induction c using restoreToCount.induct k with
  | case1 c h ih =>
    rw [restoreToCount, if_pos h]
    exact ih
  | case2 c h =>
    rw [restoreToCount, if_neg h]
    omega

/-! ## Saves on the stack -/

/-- The saves lie on the stack as they were answered. -/
def OnStack : List (Saved φ) → List (Frame φ) → Prop
  | [], _ => True
  | _ :: _, [] => False
  | s :: saved, f :: stack =>
    s = ⟨stack.length + 1, f, stack.length + 1⟩ ∧ OnStack saved stack

theorem OnStack.tail {stack : List (Frame φ)} (h : OnStack saved stack) :
    OnStack saved.tail stack.tail := by
  cases saved with
  | nil => trivial
  | cons s saved =>
    cases stack with
    | nil => exact h.elim
    | cons f stack => exact h.2

theorem OnStack.returned {stack : List (Frame φ)} (h : OnStack saved stack) (hs : s ∈ saved) :
    0 < s.returned ∧ s.returned ≤ stack.length := by
  induction saved generalizing stack with
  | nil => exact absurd hs List.not_mem_nil
  | cons s' saved ih =>
    cases stack with
    | nil => exact h.elim
    | cons f stack =>
      obtain ⟨rfl, hrest⟩ := h
      rw [List.length_cons]
      rcases List.mem_cons.mp hs with rfl | hs
      · dsimp only
        omega
      · obtain ⟨hpos, hle⟩ := ih hrest hs
        omega

/-- Restoring to a count undoes the saves down to it. -/
theorem onStack_restoreToCount (h : OnStack saved c.stack) :
    OnStack (saved.dropWhile (k ≤ ·.returned)) (c.restoreToCount k).stack := by
  induction c using restoreToCount.induct k generalizing saved with
  | case1 c hmore ih =>
    -- one frame goes, and with it the save it was of
    rw [restoreToCount, if_pos hmore]
    have hih := ih h.tail
    cases saved with
    | nil => exact hih
    | cons s saved =>
      cases hstack : c.stack with
      | nil =>
        rw [hstack] at h
        exact h.elim
      | cons f stack =>
        rw [hstack] at h hmore
        obtain ⟨rfl, -⟩ := h
        rw [List.length_cons] at hmore
        rwa [List.dropWhile_cons_of_pos (by simp; omega)]
  | case2 c hdone =>
    rw [restoreToCount, if_neg hdone]
    cases saved with
    | nil => exact h
    | cons s saved =>
      obtain ⟨hpos, hle⟩ := h.returned List.mem_cons_self
      rwa [List.dropWhile_cons_of_neg (by simp; omega)]

/-- **A save on the stack is found** by what it returned. -/
theorem undoable_of_onStack (h : OnStack saved c.stack) (hs : s ∈ saved) :
    (c.restoreToCount s.returned).frame = s.frame ∧
      (c.restoreToCount s.returned).getSaveCount = s.count := by
  induction saved generalizing c with
  | nil => exact absurd hs List.not_mem_nil
  | cons s' saved ih =>
    obtain ⟨hpos, hle⟩ := h.returned hs
    rw [restoreToCount, if_pos ⟨hle, by omega⟩]
    cases hstack : c.stack with
    | nil =>
      rw [hstack] at h
      exact h.elim
    | cons f stack =>
      rw [hstack] at h
      obtain ⟨hframe, hrest⟩ := restore_of_cons hstack
      obtain ⟨rfl, htail⟩ := h
      rcases List.mem_cons.mp hs with rfl | hs
      · -- the frame is restored, and the count stops here
        rw [restoreToCount, if_neg (by rw [hrest]; dsimp only; omega), getSaveCount, hframe, hrest]
        exact ⟨rfl, rfl⟩
      · rw [← hrest] at htail
        exact ih htail hs

/-! ## Whole runs -/

open Machine

theorem stack_step_of_saves (h : call.saves = true) (hplace : t.HasPlace call) :
    (t.step R call).canvas.stack = t.canvas.frame :: t.canvas.stack := by
  rw [Tracked.step, stack_exec_of_saves h, (save_of_place (hplace h)).1]

/-- A call with a place keeps the saves on the stack. -/
theorem onStack_step (h : OnStack t.saved t.canvas.stack) (hplace : t.HasPlace call) :
    OnStack (t.step R call).saved (t.step R call).canvas.stack := by
  cases hsaves : call.saves with
  | true =>
    rw [stack_step_of_saves hsaves hplace, Tracked.step, if_pos hsaves]
    refine ⟨?_, h⟩
    rw [saveResult, getSaveCount, (save_of_place (hplace hsaves)).1, List.length_cons]
    push_cast
    rfl
  | false =>
    rw [Tracked.step, hsaves, if_neg Bool.false_ne_true]
    cases call with
    | restore => exact h.tail
    | restoreToCount | restoreUnclippedLayer => exact onStack_restoreToCount h
    | translate | scale | setMatrix | clipRect => exact h
    | _ => cases hsaves

/-- **A save without a place cannot be undone**: it counts as if it had been
one. -/
theorem not_undoable_of_full (h : ¬t.HasPlace call) : ¬(t.step R call).Undoable := by
  rw [Tracked.HasPlace, Classical.not_imp] at h
  obtain ⟨hsaves, hfull⟩ := h
  have hlength : t.canvas.stack.length = 512 := by
    have hdepth := t.canvas.depth
    omega
  have hreturned : t.canvas.saveResult = 512 := by
    rw [saveResult, save_of_full hfull, hlength]
    rfl
  have hcount : t.canvas.getSaveCount = 513 := by
    rw [getSaveCount, hlength]
    rfl
  -- the full stack returns 512 for a save that left nothing on it
  intro hall
  have hlast := (hall ⟨512, t.canvas.frame, 513⟩ (by
    rw [Tracked.step, if_pos hsaves, hreturned, hcount]
    exact List.mem_cons_self)).2
  have hleft := @length_restoreToCount _ (t.step R call).canvas 512 (by decide)
  rw [getSaveCount] at hlast
  dsimp only at hlast
  omega

theorem eq_of_parts {c' : CanvasState φ} (htoken : c.bitmapToken = c'.bitmapToken)
    (hframe : c.frame = c'.frame) (hstack : c.stack = c'.stack) : c = c' := by
  cases c
  cases c'
  cases htoken
  cases hframe
  cases hstack
  rfl

/-- A save, and the restore after calls that leave the stack as they find
it. -/
theorem canvas_pair {inner : List (StackCall φ)} (hsaves : call.saves = true)
    (hplace : t.HasPlace call)
    (hinner : (run (Tracked.step R) (t.step R call) inner).canvas.stack =
      (t.step R call).canvas.stack)
    (htoken : (run (Tracked.step R) (t.step R call) inner).canvas.bitmapToken =
      (t.step R call).canvas.bitmapToken) :
    (run (Tracked.step R) t (call :: (inner ++ [.restore]))).canvas = t.canvas := by
  rw [stack_step_of_saves hsaves hplace] at hinner
  obtain ⟨hframe, hstack⟩ := restore_of_cons hinner
  rw [run_cons, run_concat]
  exact eq_of_parts (htoken.trans bitmapToken_exec) hframe hstack

theorem bitmapToken_run (calls : List (StackCall φ)) :
    (run (Tracked.step R) t calls).canvas.bitmapToken = t.canvas.bitmapToken := by
  induction calls generalizing t with
  | nil => rfl
  | cons call calls ih =>
    rw [run_cons, ih]
    exact bitmapToken_exec

/-- So what comes after such a pair starts from the same canvas. -/
theorem exists_after_pair {inner rest : List (StackCall φ)} (hsaves : call.saves = true)
    (hmeets : Meets (Tracked.step R) Tracked.HasPlace t (call :: (inner ++ .restore :: rest)))
    (hinner : Meets (Tracked.step R) Tracked.HasPlace (t.step R call) inner →
      (run (Tracked.step R) (t.step R call) inner).canvas.stack =
        (t.step R call).canvas.stack) :
    ∃ t' : Tracked φ, t'.canvas = t.canvas ∧ Meets (Tracked.step R) Tracked.HasPlace t' rest ∧
      run (Tracked.step R) t (call :: (inner ++ .restore :: rest)) =
        run (Tracked.step R) t' rest := by
  obtain ⟨hplace, hmeets⟩ := hmeets
  obtain ⟨hmeetsInner, -, hrest⟩ := meets_append.mp hmeets
  have hpair := canvas_pair hsaves hplace (hinner hmeetsInner) (bitmapToken_run inner)
  rw [run_cons, run_concat] at hpair
  refine ⟨_, hpair, hrest, ?_⟩
  rw [run_cons, run_append, run_cons]

theorem stack_nested {calls : List (StackCall φ)} (h : Nested calls) :
    ∀ {t : Tracked φ}, Meets (Tracked.step R) Tracked.HasPlace t calls →
      (run (Tracked.step R) t calls).canvas.stack = t.canvas.stack := by
  induction h with
  | nil => exact fun _ => rfl
  | draw hdraws _ ih =>
    intro t hmeets
    rw [run_cons, ih hmeets.2]
    exact stack_exec_of_draws hdraws
  | @pair call inner rest hsaves _ _ ihInner ihRest =>
    intro t hmeets
    obtain ⟨t', hcanvas, hrest, hrun⟩ := exists_after_pair hsaves hmeets ihInner
    rw [hrun, ihRest hrest, hcanvas]

theorem canvas_balanced {calls : List (StackCall φ)} (h : Balanced calls) :
    ∀ {t : Tracked φ}, Meets (Tracked.step R) Tracked.HasPlace t calls →
      (run (Tracked.step R) t calls).canvas = t.canvas := by
  induction h with
  | nil => exact fun _ => rfl
  | @pair call inner rest hsaves hinnerNested _ ihRest =>
    intro t hmeets
    obtain ⟨t', hcanvas, hrest, hrun⟩ :=
      exists_after_pair hsaves hmeets (stack_nested hinnerNested)
    rw [hrun, ihRest hrest, hcanvas]

/-- **Saves nest** in a run from any canvas exactly where every save has a
place: in every state each save that was not undone can be, and what is
balanced leaves the canvas as it was. -/
theorem saves_nest_iff (R : Raster φ δ) (c : CanvasState φ) (calls : List (StackCall φ)) :
    (Throughout (Tracked.step R) Tracked.Undoable (Tracked.of c) calls ∧
        (Balanced calls → (run (Tracked.step R) (Tracked.of c) calls).canvas = c)) ↔
      Meets (Tracked.step R) Tracked.HasPlace (Tracked.of c) calls := by
  have hstart : OnStack (Tracked.of c).saved (Tracked.of c).canvas.stack := trivial
  have hundoable : Throughout (Tracked.step R) Tracked.Undoable (Tracked.of c) calls ↔
      Meets (Tracked.step R) Tracked.HasPlace (Tracked.of c) calls :=
    throughout_iff_meets_of_breaks (K := fun t : Tracked φ => OnStack t.saved t.canvas.stack)
      (fun _ _ => onStack_step) (fun _ h _ hs => undoable_of_onStack h hs)
      (fun _ _ _ => not_undoable_of_full) hstart
  refine ⟨fun h => hundoable.mp h.1, fun h => ⟨hundoable.mpr h, fun hbalanced => ?_⟩⟩
  exact canvas_balanced hbalanced h

/-- Whole numbers in the place of floats. -/
def wholeNumbers : Raster ℤ Unit where
  zero := 0
  one := 1
  four := 4
  add := (· + ·)
  mul := (· * ·)
  lt := fun x y => decide (x < y)
  floorToInt := id
  ceilToInt := id
  lineWidth := id
  draw := fun _ _ _ b => b.pixels

def wholeFrame : Frame ℤ := ⟨0, 0, 1, 1, 0, 0, 1080, 1920⟩

theorem length_wholeFrames : (List.replicate 512 wholeFrame).length ≤ 512 :=
  List.length_replicate.le

/-- A canvas after 512 saves. -/
def fullCanvas : CanvasState ℤ where
  bitmapToken := 0
  frame := wholeFrame
  stack := List.replicate 512 wholeFrame
  depth := length_wholeFrames

/-- The next save answers 512, and restoring to 512 leaves a frame less. -/
theorem next_save_not_undoable :
    ¬Throughout (Tracked.step wholeNumbers) Tracked.Undoable (Tracked.of fullCanvas)
      [.save 0] := by
  rintro ⟨-, hlast⟩
  refine not_undoable_of_full (fun hplace => ?_) hlast
  have hroom := hplace rfl
  rw [Tracked.of, fullCanvas, List.length_replicate] at hroom
  exact absurd hroom (by decide)

end

end CanvasState

end Shim

end Muplar
