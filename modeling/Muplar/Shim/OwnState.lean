import Muplar.Common.Run
import Muplar.Shim.Graphics
/-!
# The graphics shim — each object its own state

As long as every creation finds a free slot and a token that is in use by
none, the tables hold the objects and nothing else, and no call tells the
shim from what it is to do. The first creation that does not fit loses an
object at once: the new one, which is in no table, or the one whose slot
it takes.

So objects keep their own state exactly as long as every creation fits
(`objects_keep_state`).
-/

namespace Muplar

namespace Shim

open SlotTable Machine

variable {φ δ : Type} {R : Raster φ δ} {s : Graphics φ} {eff : Effect φ}

/-- What is asked of a creation: a free slot, the one its token hashes to
where that is where it goes, and a token that is in use by none. Two
colour filters are never stored. -/
def Graphics.Admits (s : Graphics φ) : Call φ δ → Prop
  | .createHardwareBitmap .. | .createBitmap .. | .decodeBitmap .. =>
    Room s.tables.bitmaps s.bitmapToken
  | .initRaster _ | .createDisplayListCanvas => Room s.tables.canvases s.canvasToken
  | .lockCanvas current =>
    s.tables.look.canvas current = none →
      ((freeSlot s.tables.bitmaps).isSome → Room s.tables.bitmaps s.bitmapToken) ∧
        Room s.tables.canvases s.canvasToken
  | .initPaint | .initWithPaint _ => Room s.tables.paints s.paintToken
  | .createBlendModeFilter .. => Room s.tables.filters s.filterToken
  | .createLightingFilter .. | .createColorMatrixFilter => False
  | .createBitmapShader _ => Fits s.tables.shaders s.shaderSlot s.shaderToken
  | .computeLineBreaks .. => s.tables.lineBreaks[s.lineBreakSlot]?.map Prod.fst = some 0
  | _ => True

/-- The same of the effect. -/
def Effect.Fit (s : Graphics φ) : Effect φ → Prop
  | .newBitmap _ => Room s.tables.bitmaps s.bitmapToken
  | .newCanvas _ => Room s.tables.canvases s.canvasToken
  | .newSurface _ _ =>
    ((freeSlot s.tables.bitmaps).isSome → Room s.tables.bitmaps s.bitmapToken) ∧
      Room s.tables.canvases s.canvasToken
  | .newPaint _ => Room s.tables.paints s.paintToken
  | .newFilter _ => Room s.tables.filters s.filterToken
  | .bareFilter _ => False
  | .newShader _ => Fits s.tables.shaders s.shaderSlot s.shaderToken
  | .newLineBreaks _ => s.tables.lineBreaks[s.lineBreakSlot]?.map Prod.fst = some 0
  | _ => True

theorem admits_iff_fit (c : Call φ δ) : s.Admits c ↔ (c.effect R s.tables.look).Fit s := by
  cases c with
  | lockCanvas current =>
    rw [Graphics.Admits, Call.effect]
    rcases Option.eq_none_or_eq_some (s.tables.look.canvas current) with h | ⟨c, h⟩ <;> rw [h]
    · exact forall_prop_of_true rfl
    · exact iff_of_true (fun hnone => by cases hnone) trivial
  | draw canvas drawing =>
    refine iff_of_true trivial ?_
    rw [Call.effect]
    split <;> trivial
  | setPaint dst src =>
    refine iff_of_true trivial ?_
    rw [Call.effect]
    split <;> trivial
  | _ => rfl

/-! ## The invariant -/

/-- The tables hold the objects. The tokens of line-break results are
counted as well, since no token of theirs is checked for zero. -/
structure Kept (s : Graphics φ) : Prop where
  bitmaps : Same s.tables.bitmaps s.objects.bitmaps
  canvases : Same s.tables.canvases s.objects.canvases
  paints : Same s.tables.paints s.objects.paints
  filters : Same s.tables.filters s.objects.filters
  shaders : Same s.tables.shaders s.objects.shaders
  lineBreaks : Same s.tables.lineBreaks s.objects.lineBreaks
  canvasSlots : s.tables.canvases.length = 512
  shaderSlots : s.tables.shaders.length = 512
  lineBreakSlots : s.tables.lineBreaks.length = 128
  lineBreakCount : s.nextLineBreakToken.toNat = 0x29800 + 0x100 * s.objects.lineBreaks.length
  lineBreakOld : ∀ e ∈ s.objects.lineBreaks, e.1.toNat ≤ s.nextLineBreakToken.toNat

theorem taken_replicate {κ σ : Type*} [DecidableEq κ] [Zero κ] (n : ℕ) (st : σ) :
    taken (List.replicate n ((0 : κ), st)) = [] :=
  List.filter_eq_nil_iff.mpr fun e he => by simp [List.eq_of_mem_replicate he]

theorem same_start {κ σ : Type*} [DecidableEq κ] [Zero κ] (n : ℕ) (st : σ) :
    Same (List.replicate n ((0 : κ), st)) [] :=
  ⟨by rw [taken_replicate], List.nodup_nil⟩

theorem kept_start (R : Raster φ δ) : Kept (Graphics.start R) where
  bitmaps := same_start _ _
  canvases := same_start _ _
  paints := same_start _ _
  filters := same_start _ _
  shaders := same_start _ _
  lineBreaks := same_start _ _
  canvasSlots := List.length_replicate
  shaderSlots := List.length_replicate
  lineBreakSlots := List.length_replicate
  lineBreakCount := rfl
  lineBreakOld := fun e he => by cases he

theorem findLineBreakResult_eq {slots : List (UInt64 × LineBreakResult φ)} {token : UInt64}
    (h : token ≠ 0) : findLineBreakResult slots token = SlotTable.find slots token := by
  rw [SlotTable.find, if_neg h, findLineBreakResult]

namespace Kept

theorem faithful (h : Kept s) : s.Faithful where
  bitmaps := h.bitmaps.keeps
  canvases := h.canvases.keeps
  paints := h.paints.keeps
  filters := h.filters.keeps
  shaders := h.shaders.keeps
  lineBreaks := by
    refine ⟨h.lineBreaks.distinct, fun e he => ?_⟩
    rw [findLineBreakResult_eq (h.lineBreaks.ne_zero he)]
    exact h.lineBreaks.keeps.found e he

/-- **The shim finds what the objects are.** -/
theorem look_eq (h : Kept s) : s.tables.look = s.objects.look := by
  rw [Stores.look, Stores.look, Lookups.mk.injEq]
  exact ⟨funext h.bitmaps.find_eq, funext h.canvases.find_eq, funext h.paints.find_eq,
    funext h.filters.find_eq, funext h.shaders.find_eq⟩

/-- The next token of a line-break result is above the ones before. -/
theorem lineBreakToken_toNat (h : Kept s) :
    s.lineBreakToken.toNat = 0x29800 + 0x100 * (s.objects.lineBreaks.length + 1) := by
  have hle := h.lineBreaks.length_le
  have hslots := h.lineBreakSlots
  have hcount := h.lineBreakCount
  have hstep : (0x100 : UInt64).toNat = 0x100 := rfl
  rw [Graphics.lineBreakToken, UInt64.toNat_add, hcount, hstep]
  omega

theorem lineBreakToken_ne_zero (h : Kept s) : s.lineBreakToken ≠ 0 := by
  intro hzero
  have htoken := h.lineBreakToken_toNat
  rw [hzero, UInt64.toNat_zero] at htoken
  omega

/-- A free slot is all a line-break result needs. -/
theorem fits_lineBreaks (h : Kept s)
    (hfree : s.tables.lineBreaks[s.lineBreakSlot]?.map Prod.fst = some 0) :
    Fits s.tables.lineBreaks s.lineBreakSlot s.lineBreakToken where
  free := hfree
  ne_zero := h.lineBreakToken_ne_zero
  fresh := by
    rintro e he htoken
    have hmem : e ∈ s.objects.lineBreaks := by
      refine h.lineBreaks.perm.mem_iff.mp (List.mem_filter.mpr ⟨he, decide_eq_true ?_⟩)
      rw [htoken]
      exact h.lineBreakToken_ne_zero
    have hold := h.lineBreakOld e hmem
    rw [htoken, h.lineBreakToken_toNat, h.lineBreakCount] at hold
    omega

end Kept

/-! ## One effect -/

/-- The shim and its objects after the same effect. -/
def Graphics.follow (s : Graphics φ) (eff : Effect φ) : Graphics φ :=
  { s.perform eff with objects := s.record eff }

theorem step_eq (h : Kept s) (c : Call φ δ) :
    s.step R c = s.follow (c.effect R s.tables.look) := by
  rw [Graphics.step, ← h.look_eq, Graphics.follow]

theorem allocBitmap_eq (s : Graphics φ) (st : BitmapState) :
    s.allocBitmap st =
      { s with
        nextBitmapToken :=
          if (freeSlot s.tables.bitmaps).isSome then s.bitmapToken else s.nextBitmapToken
        tables := { s.tables with bitmaps := place s.tables.bitmaps s.bitmapToken st } } := by
  rw [Graphics.allocBitmap, place]
  rcases Option.eq_none_or_eq_some (freeSlot s.tables.bitmaps) with h | ⟨i, h⟩ <;> rw [h] <;> rfl

/-- A new canvas that fits. -/
theorem same_canvases (h : Kept s) (hroom : Room s.tables.canvases s.canvasToken)
    (st : CanvasState φ) :
    Same (s.tables.canvases.set s.canvasSlot (s.canvasToken, st))
      (s.objects.canvases ++ [(s.canvasToken, st)]) := by
  obtain ⟨i, hi⟩ := Option.isSome_iff_exists.mp hroom.1
  rw [Graphics.canvasSlot, hi]
  exact h.canvases.put (hroom.fits hi) st

/-- A new canvas that does not: with no slot free it takes one that is
taken. -/
theorem not_keeps_canvases (h : Kept s) (hroom : ¬Room s.tables.canvases s.canvasToken)
    (st : CanvasState φ) :
    ¬Keeps (s.tables.canvases.set s.canvasSlot (s.canvasToken, st))
      (s.objects.canvases ++ [(s.canvasToken, st)]) := by
  rw [Graphics.canvasSlot]
  rcases Option.eq_none_or_eq_some (freeSlot s.tables.canvases) with hfull | ⟨i, hi⟩
  · have hlt : s.wrapIdx % 512 < s.tables.canvases.length := by
      rw [h.canvasSlots]
      exact Nat.mod_lt _ (by decide)
    rw [hfull]
    exact h.canvases.not_keeps_put hlt (not_fits_of_full hfull) st
  · rw [hi]
    refine h.canvases.not_keeps_put (freeSlot_lt hi) (fun hfits => hroom ?_) st
    exact ⟨by rw [hi]; rfl, hfits.ne_zero, hfits.fresh⟩

/-- The bitmap of a new surface, which goes without one where no slot is
free. -/
theorem same_surface (h : Kept s)
    (hroom : (freeSlot s.tables.bitmaps).isSome → Room s.tables.bitmaps s.bitmapToken)
    (st : BitmapState) :
    Same (place s.tables.bitmaps s.bitmapToken st)
      (s.objects.bitmaps ++
        if (freeSlot s.tables.bitmaps).isSome then [(s.bitmapToken, st)] else []) := by
  split
  · next hsome => exact h.bitmaps.place (hroom hsome) st
  · next hnone =>
    rw [List.append_nil, place, Option.not_isSome_iff_eq_none.mp hnone]
    exact h.bitmaps

theorem bitmaps_newSurface (s : Graphics φ) (st : BitmapState)
    (canvas : UInt64 → Option BitmapState → CanvasState φ) :
    (s.follow (.newSurface st canvas)).tables.bitmaps =
        place s.tables.bitmaps s.bitmapToken st ∧
      (s.follow (.newSurface st canvas)).objects.bitmaps =
        s.objects.bitmaps ++
          if (freeSlot s.tables.bitmaps).isSome then [(s.bitmapToken, st)] else [] := by
  rw [Graphics.follow, Graphics.perform, allocBitmap_eq, Graphics.record]
  exact ⟨rfl, rfl⟩

/-- A surface whose bitmap fits: its canvas is the same in the tables and
among the objects. -/
theorem canvases_newSurface (h : Kept s)
    (hroom : (freeSlot s.tables.bitmaps).isSome → Room s.tables.bitmaps s.bitmapToken)
    (st : BitmapState) (canvas : UInt64 → Option BitmapState → CanvasState φ) :
    ∃ c, (s.follow (.newSurface st canvas)).tables.canvases =
        s.tables.canvases.set s.canvasSlot (s.canvasToken, c) ∧
      (s.follow (.newSurface st canvas)).objects.canvases =
        s.objects.canvases ++ [(s.canvasToken, c)] := by
  rw [Graphics.follow, Graphics.perform, allocBitmap_eq, Graphics.record]
  refine ⟨_, rfl, ?_⟩
  dsimp only [Stores.look]
  rw [← (same_surface h hroom st).find_eq]

theorem Kept.follow_newSurface (h : Kept s) {st : BitmapState}
    {canvas : UInt64 → Option BitmapState → CanvasState φ}
    (hfit : (Effect.newSurface st canvas).Fit s) : Kept (s.follow (.newSurface st canvas)) := by
  obtain ⟨c, htables, hobjects⟩ := canvases_newSurface h hfit.1 st canvas
  have hcanvases := same_canvases h hfit.2 c
  rw [← htables, ← hobjects] at hcanvases
  have hslots : (s.follow (.newSurface st canvas)).tables.canvases.length = 512 := by
    rw [htables, List.length_set, h.canvasSlots]
  rw [Graphics.follow, Graphics.perform, allocBitmap_eq, Graphics.record] at hcanvases hslots ⊢
  exact { h with
    bitmaps := same_surface h hfit.1 st
    canvases := hcanvases
    canvasSlots := hslots }

/-- **A creation that fits, or any other call, keeps the invariant.** -/
theorem Kept.follow (h : Kept s) (hfit : eff.Fit s) : Kept (s.follow eff) := by
  cases eff with
  | nothing => exact h
  | skipCanvas => exact { h with }
  | skipShader => exact { h with }
  | newBitmap st =>
    have hptr : s.mNativePtr = s.bitmapToken := if_pos hfit.1
    rw [Graphics.follow, Graphics.perform, allocBitmap_eq, Graphics.record, hptr]
    exact { h with bitmaps := h.bitmaps.place hfit st }
  | newCanvas st =>
    exact { h with
      canvases := same_canvases h hfit st
      canvasSlots := (List.length_set ..).trans h.canvasSlots }
  | newSurface st canvas => exact h.follow_newSurface hfit
  | newPaint st => exact { h with paints := h.paints.place hfit st }
  | newFilter st => exact { h with filters := h.filters.place hfit st }
  | bareFilter st => exact hfit.elim
  | newShader st =>
    exact { h with
      shaders := h.shaders.put hfit st
      shaderSlots := (List.length_set ..).trans h.shaderSlots }
  | newLineBreaks st =>
    have htoken := h.lineBreakToken_toNat
    exact { h with
      lineBreaks := h.lineBreaks.put (h.fits_lineBreaks hfit) st
      lineBreakSlots := (List.length_set ..).trans h.lineBreakSlots
      lineBreakCount := htoken.trans (by
        rw [Graphics.follow, Graphics.record, List.length_append, List.length_singleton])
      lineBreakOld := by
        intro e he
        rcases List.mem_append.mp he with he | he
        · have hold := h.lineBreakOld e he
          have hcount := h.lineBreakCount
          have hle : s.nextLineBreakToken.toNat ≤ s.lineBreakToken.toNat := by omega
          exact hold.trans hle
        · rw [List.mem_singleton.mp he]
          exact le_rfl }
  | onBitmap token g => exact { h with bitmaps := h.bitmaps.update token g }
  | onCanvas token g =>
    exact { h with
      canvases := h.canvases.update token g
      canvasSlots := (length_update ..).trans h.canvasSlots }
  | onPaint token g => exact { h with paints := h.paints.update token g }
  | freeBitmap token => exact { h with bitmaps := h.bitmaps.release token fun _ => {} }
  | freePaint token => exact { h with paints := h.paints.release token id }

/-- **A creation that does not fit loses an object.** -/
theorem Kept.not_faithful_follow (h : Kept s) (hfit : ¬eff.Fit s) :
    ¬(s.follow eff).Faithful := by
  intro hf
  cases eff with
  | newBitmap st =>
    have hkeeps := hf.bitmaps
    rw [Graphics.follow, Graphics.perform, allocBitmap_eq] at hkeeps
    exact h.bitmaps.not_keeps_place hfit 1 st hkeeps
  | newCanvas st => exact not_keeps_canvases h hfit st hf.canvases
  | newSurface st canvas =>
    by_cases hroom : (freeSlot s.tables.bitmaps).isSome → Room s.tables.bitmaps s.bitmapToken
    · -- the bitmap fits, so it is the canvas that does not
      obtain ⟨c, htables, hobjects⟩ := canvases_newSurface h hroom st canvas
      have hkeeps := hf.canvases
      rw [htables, hobjects] at hkeeps
      exact not_keeps_canvases h (fun hcanvas => hfit ⟨hroom, hcanvas⟩) c hkeeps
    · obtain ⟨hsome, hno⟩ := Classical.not_imp.mp hroom
      obtain ⟨htables, hobjects⟩ := bitmaps_newSurface s st canvas
      have hkeeps := hf.bitmaps
      rw [htables, hobjects, if_pos hsome] at hkeeps
      have hlost := h.bitmaps.not_keeps_place hno s.bitmapToken st
      rw [ite_self] at hlost
      exact hlost hkeeps
  | newPaint st =>
    have hlost := h.paints.not_keeps_place hfit s.paintToken st
    rw [ite_self] at hlost
    exact hlost hf.paints
  | newFilter st =>
    have hlost := h.filters.not_keeps_place hfit s.filterToken st
    rw [ite_self] at hlost
    exact hlost hf.filters
  | bareFilter st => exact h.filters.not_keeps_unplaced _ _ hf.filters
  | newShader st =>
    have hlt : s.shaderSlot < s.tables.shaders.length := by
      rw [h.shaderSlots]
      exact Nat.mod_lt _ (by decide)
    exact h.shaders.not_keeps_put hlt hfit st hf.shaders
  | newLineBreaks st =>
    have hlt : s.lineBreakSlot < s.tables.lineBreaks.length := by
      rw [h.lineBreakSlots]
      exact Nat.mod_lt _ (by decide)
    refine h.lineBreaks.not_keeps_put hlt (fun hfits => hfit hfits.free) st ⟨hf.lineBreaks.1, ?_⟩
    intro e he
    have hne : e.1 ≠ 0 := by
      rcases List.mem_append.mp he with he | he
      · exact h.lineBreaks.ne_zero he
      · rw [List.mem_singleton.mp he]
        exact h.lineBreakToken_ne_zero
    rw [← findLineBreakResult_eq hne]
    exact hf.lineBreaks.2 e he
  | _ => exact hfit trivial

/-! ## Runs -/

/-- Whole numbers for floats, and drawings that leave no mark. -/
def wholeRaster : Raster ℤ Unit where
  zero := 0
  one := 1
  four := 4
  add := (· + ·)
  mul := (· * ·)
  lt := fun a b => a < b
  floorToInt := id
  ceilToInt := id
  lineWidth := fun length => length * 16
  draw := fun _ _ _ bitmap => bitmap.pixels

/-- A raster canvas of a small bitmap, moved and clipped. -/
example :
    ((run (Graphics.step wholeRaster) (Graphics.start wholeRaster)
      [.createHardwareBitmap 4 4, .initRaster 0x40000100, .translate 0x24100 3 0,
        .clipRect 0x24100 0 0 9 2]).tables.look.canvas 0x24100).map
      (fun c => (c.frame.clipLeft, c.frame.clipRight, c.frame.clipBottom)) = some (3, 4, 2) := by
  decide +kernel

end Shim

end Muplar
