import Muplar.Common.SlotTable
import Mathlib.Data.UInt
/-!
# The graphics shim — its objects

Bitmaps, canvases, paints, colour filters, bitmap shaders and line-break
results are native objects: Java holds a token, and the shim looks the
token up in a table of its kind. The tables are of fixed size, and each
kind has its own way when there is no slot: a bitmap keeps the token the
Java side began with, a paint or a filter gets a token without a state, a
canvas takes the slot of another, and shaders and line-break results go
where their token hashes to, taken or not.

Beside its tables a state carries the objects that were created and not
freed, each in the state it was last set to. That second store is not the
shim's: it says what the first is for.
-/

namespace Muplar

namespace Shim

variable {φ δ : Type}

/-! ## States -/

/-- `muplar_bitmap_state`; `pixels` row by row. -/
structure BitmapState where
  width : ℤ := 0
  height : ℤ := 0
  bytesPerPixel : ℤ := 0
  config : ℤ := 0
  pixels : List UInt32 := []

/-- A transform and a clip, as `muplar_canvas_stack_entry` has them. -/
structure Frame (φ : Type) where
  tx : φ
  ty : φ
  sx : φ
  sy : φ
  clipLeft : ℤ
  clipTop : ℤ
  clipRight : ℤ
  clipBottom : ℤ

/-- `muplar_canvas_state`; the top of the stack first. -/
structure CanvasState (φ : Type) where
  bitmapToken : UInt64
  frame : Frame φ
  stack : List (Frame φ)
  depth : stack.length ≤ 512

/-- `muplar_paint_state`. -/
structure PaintState (φ : Type) where
  color : UInt32
  colorFilter : UInt64
  maskFilter : UInt64
  shader : UInt64
  textSize : φ
  strokeWidth : φ
  strokeMiter : φ
  style : ℤ
  strokeCap : ℤ
  strokeJoin : ℤ

/-- `muplar_filter_state`. -/
structure FilterState where
  color : UInt32
  mode : ℤ

/-- `muplar_shader_state`. -/
structure ShaderState where
  bitmapToken : UInt64

/-- `muplar_line_break_result`. -/
structure LineBreakResult (φ : Type) where
  endOffset : ℤ
  width : φ

/-- A state under each token, kind by kind. -/
structure Stores (φ : Type) where
  bitmaps : List (UInt64 × BitmapState)
  canvases : List (UInt64 × CanvasState φ)
  paints : List (UInt64 × PaintState φ)
  filters : List (UInt64 × FilterState)
  shaders : List (UInt64 × ShaderState)
  lineBreaks : List (UInt64 × LineBreakResult φ)

/-- What a call may look up: `muplar_find_bitmap` and its siblings. -/
structure Lookups (φ : Type) where
  bitmap : UInt64 → Option BitmapState
  canvas : UInt64 → Option (CanvasState φ)
  paint : UInt64 → Option (PaintState φ)
  filter : UInt64 → Option FilterState
  shader : UInt64 → Option ShaderState

def Stores.look (t : Stores φ) : Lookups φ where
  bitmap := SlotTable.find t.bitmaps
  canvas := SlotTable.find t.canvases
  paint := SlotTable.find t.paints
  filter := SlotTable.find t.filters
  shader := SlotTable.find t.shaders

/-- `muplar_find_line_break_result`, which does not mind a token of zero. -/
def findLineBreakResult (slots : List (UInt64 × LineBreakResult φ)) (token : UInt64) :
    Option (LineBreakResult φ) :=
  (slots.find? (·.1 = token)).map Prod.snd

/-- The arithmetic of floats, and `draw`, which stands for the drawing
functions of a canvas: the pixels its bitmap has afterwards. -/
structure Raster (φ δ : Type) where
  zero : φ
  one : φ
  four : φ
  add : φ → φ → φ
  mul : φ → φ → φ
  lt : φ → φ → Bool
  floorToInt : φ → ℤ
  ceilToInt : φ → ℤ
  lineWidth : ℤ → φ
  draw : δ → Lookups φ → CanvasState φ → BitmapState → List UInt32

/-! ## Bitmaps -/

namespace BitmapState

/-- What `muplar_alloc_bitmap` leaves in a slot. -/
def blank (width height : ℤ) : BitmapState where
  width := if width ≤ 0 then 1 else width
  height := if height ≤ 0 then 1 else height
  bytesPerPixel := 4
  config := 5
  pixels := List.replicate
    ((if height ≤ 0 then 1 else height).toNat * (if width ≤ 0 then 1 else width).toNat) 0

/-- `bytes_per_pixel` as `nativeCreate` sets it. -/
def bytesPerPixelOf (config : ℤ) : ℤ :=
  if config = 1 then 1
  else if config = 3 ∨ config = 4 then 2
  else if config = 6 then 8
  else 4

/-- `Bitmap_nativeCreate`; the colours by their index in the array. -/
def create (colors : Option (ℤ → UInt32)) (offset stride width height config : ℤ) :
    BitmapState :=
  let b := blank width height
  { b with
    config := if config = 0 then 5 else config
    bytesPerPixel := bytesPerPixelOf config
    pixels :=
      match colors with
      | some color =>
        if 0 < width ∧ 0 < height then
          (List.range (height.toNat * width.toNat)).map fun i =>
            color (offset + (i / width.toNat : ℕ) * stride + (i % width.toNat : ℕ))
        else b.pixels
      | none => b.pixels }

def iconColors : List UInt32 :=
  [0xff4f46e5, 0xff10b981, 0xffef4444, 0xfff59e0b, 0xff8b5cf6, 0xffec4899, 0xff06b6d4,
    0xff3b82f6]

/-- The bitmap `ImageDecoder_nDecodeBitmap` makes up: one colour, and a
border. -/
def decoded (width height : ℤ) : BitmapState :=
  let w := if 0 < width then width else 48
  let h := if 0 < height then height else 48
  { blank w h with
    pixels := (List.range (h.toNat * w.toNat)).map fun i =>
      let x := i % w.toNat
      let y := i / w.toNat
      if x = 0 ∨ y = 0 ∨ x = w.toNat - 1 ∨ y = h.toNat - 1 then 0xff1e293b
      else iconColors.getD ((w + h).toNat % 8) 0 }

/-- `Bitmap_nativeSetPixel`. -/
def setPixel (x y : ℤ) (color : UInt32) (b : BitmapState) : BitmapState :=
  if 0 ≤ x ∧ x < b.width ∧ 0 ≤ y ∧ y < b.height then
    { b with pixels := b.pixels.set (y * b.width + x).toNat color }
  else b

/-- `Bitmap_nativeErase`. -/
def erase (color : UInt32) (b : BitmapState) : BitmapState :=
  { b with pixels := b.pixels.map fun _ => color }

/-- A pixel of two bytes, widened to eight bits a channel. -/
def widen565 (p : UInt32) : UInt32 :=
  let r := ((p >>> 11) &&& 0x1f) * 255 / 31
  let g := ((p >>> 5) &&& 0x3f) * 255 / 63
  let bv := (p &&& 0x1f) * 255 / 31
  (0xff000000 : UInt32) ||| (r <<< 16) ||| (g <<< 8) ||| bv

/-- `Bitmap_nativeCopyPixelsFromBuffer`; the bytes of the buffer from its
position on. -/
def copyPixelsFromBuffer (src : ℕ → UInt8) (b : BitmapState) : BitmapState :=
  let bpp := if 0 < b.bytesPerPixel then b.bytesPerPixel else 4
  { b with
    pixels := (List.range b.pixels.length).map fun i =>
      if bpp = 1 then ((src i).toUInt32 <<< 24) ||| 0x00ffffff
      else if bpp = 2 then widen565 ((src (2 * i)).toUInt32 ||| (src (2 * i + 1)).toUInt32 <<< 8)
      else (src (4 * i)).toUInt32 ||| (src (4 * i + 1)).toUInt32 <<< 8 |||
        (src (4 * i + 2)).toUInt32 <<< 16 ||| (src (4 * i + 3)).toUInt32 <<< 24 }

end BitmapState

/-! ## Canvases -/

namespace CanvasState

/-- `muplar_canvas_reset` of a canvas for `bitmapToken`. -/
def reset (R : Raster φ δ) (bitmapToken : UInt64) (bitmap : Option BitmapState) :
    CanvasState φ where
  bitmapToken := bitmapToken
  frame :=
    { tx := R.zero, ty := R.zero, sx := R.one, sy := R.one
      clipLeft := 0, clipTop := 0
      clipRight := (bitmap.map (·.width)).getD 1080
      clipBottom := (bitmap.map (·.height)).getD 1920 }
  stack := []
  depth := Nat.zero_le _

/-- `Canvas_nSave`: where the stack is full, nothing is saved. -/
def save (c : CanvasState φ) : CanvasState φ :=
  if h : c.stack.length < 512 then
    { c with stack := c.frame :: c.stack, depth := h }
  else c

/-- `Canvas_nRestore`. -/
def restore (c : CanvasState φ) : CanvasState φ where
  bitmapToken := c.bitmapToken
  frame := c.stack.head?.getD c.frame
  stack := c.stack.tail
  depth := by
    rw [List.length_tail]
    exact (Nat.sub_le _ _).trans c.depth

/-- `Canvas_nRestoreToCount`. -/
def restoreToCount (saveCount : ℤ) (c : CanvasState φ) : CanvasState φ :=
  if saveCount ≤ c.stack.length ∧ 0 < c.stack.length then
    restoreToCount saveCount c.restore
  else c
termination_by c.stack.length
decreasing_by
  rw [restore, List.length_tail]
  omega

/-- `Canvas_nClipRect`: the corners are taken through the transform. -/
def clipRect (R : Raster φ δ) (left top right bottom : φ) (c : CanvasState φ) :
    CanvasState φ :=
  let f := c.frame
  let cl := R.floorToInt (R.add (R.mul left f.sx) f.tx)
  let ct := R.floorToInt (R.add (R.mul top f.sy) f.ty)
  let cr := R.ceilToInt (R.add (R.mul right f.sx) f.tx)
  let cb := R.ceilToInt (R.add (R.mul bottom f.sy) f.ty)
  { c with
    frame :=
      { f with
        clipLeft := max cl f.clipLeft
        clipTop := max ct f.clipTop
        clipRight := min cr f.clipRight
        clipBottom := min cb f.clipBottom } }

/-- `Canvas_nSaveLayer` and `nSaveLayerAlpha`. -/
def saveLayer (R : Raster φ δ) (l t r b : φ) (c : CanvasState φ) : CanvasState φ :=
  if R.lt l r && R.lt t b then c.save.clipRect R l t r b else c.save

/-- `Canvas_nSetMatrix`, which reads no matrix. -/
def setMatrix (R : Raster φ δ) (c : CanvasState φ) : CanvasState φ :=
  { c with
    frame := { c.frame with tx := R.zero, ty := R.zero, sx := R.one, sy := R.one } }

/-- `Canvas_nTranslate`. -/
def translate (R : Raster φ δ) (dx dy : φ) (c : CanvasState φ) : CanvasState φ :=
  { c with
    frame :=
      { c.frame with
        tx := R.add c.frame.tx (R.mul dx c.frame.sx)
        ty := R.add c.frame.ty (R.mul dy c.frame.sy) } }

/-- `Canvas_nScale`. -/
def scale (R : Raster φ δ) (sx sy : φ) (c : CanvasState φ) : CanvasState φ :=
  { c with frame := { c.frame with sx := R.mul c.frame.sx sx, sy := R.mul c.frame.sy sy } }

/-- `RecordingCanvas_nResetDisplayListCanvas`. -/
def resetDisplayList (R : Raster φ δ) (width height : ℤ) : CanvasState φ :=
  let c := reset R 0 none
  if 0 < width ∧ 0 < height then
    { c with frame := { c.frame with clipRight := width, clipBottom := height } }
  else c

end CanvasState

/-! ## Paints -/

namespace PaintState

/-- What `muplar_alloc_paint` leaves in a slot. -/
def new (R : Raster φ δ) (color : UInt32) : PaintState φ where
  color := color
  colorFilter := 0
  maskFilter := 0
  shader := 0
  textSize := R.zero
  strokeWidth := R.zero
  strokeMiter := R.four
  style := 0
  strokeCap := 0
  strokeJoin := 0

/-- `Paint_nSetAlpha`. -/
def setAlpha (alpha : UInt32) (p : PaintState φ) : PaintState φ :=
  { p with color := (p.color &&& (0x00ffffff : UInt32)) ||| ((alpha &&& (0xff : UInt32)) <<< 24) }

/-- `Paint_nReset`. -/
def reset (p : PaintState φ) : PaintState φ :=
  { p with color := 0, colorFilter := 0, maskFilter := 0, shader := 0 }

end PaintState

/-! ## Calls -/

/-- The calls, under the names of the native methods. -/
inductive Call (φ δ : Type)
  | createHardwareBitmap (width height : ℤ)
  | createBitmap (colors : Option (ℤ → UInt32)) (offset stride width height config : ℤ)
  | decodeBitmap (width height : ℤ)
  | setPixel (bitmap : UInt64) (x y : ℤ) (color : UInt32)
  | erase (bitmap : UInt64) (color : UInt32)
  | copyPixelsFromBuffer (bitmap : UInt64) (src : ℕ → UInt8)
  | recycle (bitmap : UInt64)
  | initRaster (bitmap : UInt64)
  | createDisplayListCanvas
  | beginRecording
  | lockCanvas (current : UInt64)
  | resetDisplayListCanvas (canvas : UInt64) (width height : ℤ)
  | setBitmap (canvas bitmap : UInt64)
  | save (canvas : UInt64)
  | saveLayer (canvas : UInt64) (l t r b : φ)
  | restore (canvas : UInt64)
  | restoreToCount (canvas : UInt64) (saveCount : ℤ)
  | clipRect (canvas : UInt64) (left top right bottom : φ)
  | setMatrix (canvas : UInt64)
  | translate (canvas : UInt64) (dx dy : φ)
  | scale (canvas : UInt64) (sx sy : φ)
  | draw (canvas : UInt64) (drawing : δ)
  | initPaint
  | initWithPaint (paint : UInt64)
  | setPaint (dst src : UInt64)
  | setTextSize (paint : UInt64) (size : φ)
  | setColor (paint : UInt64) (color : UInt32)
  | setStrokeWidth (paint : UInt64) (width : φ)
  | setStrokeMiter (paint : UInt64) (miter : φ)
  | setStrokeCap (paint : UInt64) (cap : ℤ)
  | setStrokeJoin (paint : UInt64) (join : ℤ)
  | setStyle (paint : UInt64) (style : ℤ)
  | setShader (paint shader : UInt64)
  | setColorFilter (paint filter : UInt64)
  | setMaskFilter (paint filter : UInt64)
  | setAlpha (paint : UInt64) (alpha : UInt32)
  | resetPaint (paint : UInt64)
  | setColorLong (paint : UInt64) (colorLong : UInt64)
  | freePaint (paint : UInt64)
  | createBlendModeFilter (color : UInt32) (mode : ℤ)
  | createLightingFilter (mul add : UInt32)
  | createColorMatrixFilter
  | createGradient
  | createBitmapShader (bitmap : UInt64)
  | computeLineBreaks (text : Option ℕ) (length : ℤ)

/-- What a call does to the tables. -/
inductive Effect (φ : Type)
  | nothing
  | skipCanvas
  | skipShader
  | newBitmap (st : BitmapState)
  | newCanvas (st : CanvasState φ)
  | newSurface (st : BitmapState) (canvas : UInt64 → Option BitmapState → CanvasState φ)
  | newPaint (st : PaintState φ)
  | newFilter (st : FilterState)
  | bareFilter (st : FilterState)
  | newShader (st : ShaderState)
  | newLineBreaks (st : LineBreakResult φ)
  | onBitmap (token : UInt64) (g : BitmapState → BitmapState)
  | onCanvas (token : UInt64) (g : CanvasState φ → CanvasState φ)
  | onPaint (token : UInt64) (g : PaintState φ → PaintState φ)
  | freeBitmap (token : UInt64)
  | freePaint (token : UInt64)

/-- The effect of a call, given what the tokens in it stand for. -/
def Call.effect (R : Raster φ δ) (look : Lookups φ) : Call φ δ → Effect φ
  | .createHardwareBitmap width height => .newBitmap (.blank width height)
  | .createBitmap colors offset stride width height config =>
    .newBitmap (.create colors offset stride width height config)
  | .decodeBitmap width height => .newBitmap (.decoded width height)
  | .setPixel bitmap x y color => .onBitmap bitmap (.setPixel x y color)
  | .erase bitmap color => .onBitmap bitmap (.erase color)
  | .copyPixelsFromBuffer bitmap src => .onBitmap bitmap (.copyPixelsFromBuffer src)
  | .recycle bitmap => .freeBitmap bitmap
  | .initRaster bitmap => .newCanvas (.reset R bitmap (look.bitmap bitmap))
  | .createDisplayListCanvas => .newCanvas (.reset R 0 (look.bitmap 0))
  | .beginRecording => .skipCanvas
  | .lockCanvas current =>
    match look.canvas current with
    | none => .newSurface (.blank 1080 1920) (.reset R)
    | some c => .onCanvas current fun c' => .reset R c'.bitmapToken (look.bitmap c.bitmapToken)
  | .resetDisplayListCanvas canvas width height =>
    .onCanvas canvas fun _ => .resetDisplayList R width height
  | .setBitmap canvas bitmap => .onCanvas canvas fun _ => .reset R bitmap (look.bitmap bitmap)
  | .save canvas => .onCanvas canvas .save
  | .saveLayer canvas l t r b => .onCanvas canvas (.saveLayer R l t r b)
  | .restore canvas => .onCanvas canvas .restore
  | .restoreToCount canvas saveCount => .onCanvas canvas (.restoreToCount saveCount)
  | .clipRect canvas left top right bottom => .onCanvas canvas (.clipRect R left top right bottom)
  | .setMatrix canvas => .onCanvas canvas (.setMatrix R)
  | .translate canvas dx dy => .onCanvas canvas (.translate R dx dy)
  | .scale canvas sx sy => .onCanvas canvas (.scale R sx sy)
  | .draw canvas drawing =>
    match look.canvas canvas with
    | none => .nothing
    | some c => .onBitmap c.bitmapToken fun b => { b with pixels := R.draw drawing look c b }
  | .initPaint => .newPaint (.new R 0xff000000)
  | .initWithPaint paint => .newPaint ((look.paint paint).getD (.new R 0xff000000))
  | .setPaint dst src =>
    match look.paint src with
    | none => .nothing
    -- every field but the token is copied
    | some p => .onPaint dst fun _ => p
  | .setTextSize paint size => .onPaint paint fun p => { p with textSize := size }
  | .setColor paint color => .onPaint paint fun p => { p with color := color }
  | .setStrokeWidth paint width => .onPaint paint fun p => { p with strokeWidth := width }
  | .setStrokeMiter paint miter => .onPaint paint fun p => { p with strokeMiter := miter }
  | .setStrokeCap paint cap => .onPaint paint fun p => { p with strokeCap := cap }
  | .setStrokeJoin paint join => .onPaint paint fun p => { p with strokeJoin := join }
  | .setStyle paint style => .onPaint paint fun p => { p with style := style }
  | .setShader paint shader => .onPaint paint fun p => { p with shader := shader }
  | .setColorFilter paint filter => .onPaint paint fun p => { p with colorFilter := filter }
  | .setMaskFilter paint filter => .onPaint paint fun p => { p with maskFilter := filter }
  | .setAlpha paint alpha => .onPaint paint (.setAlpha alpha)
  | .resetPaint paint => .onPaint paint .reset
  | .setColorLong paint colorLong =>
    .onPaint paint fun p => { p with color := (colorLong >>> 32).toUInt32 }
  | .freePaint paint => .freePaint paint
  | .createBlendModeFilter color mode => .newFilter ⟨color, mode⟩
  -- no state is stored for these two
  | .createLightingFilter mul add => .bareFilter ⟨mul, add.toNat⟩
  | .createColorMatrixFilter => .bareFilter ⟨0, 0⟩
  | .createGradient => .skipShader
  | .createBitmapShader bitmap => .newShader ⟨bitmap⟩
  | .computeLineBreaks text length =>
    let length := if length ≤ 0 then (text.map fun n => (n : ℤ)).getD length else length
    let length := if length ≤ 0 then 1 else length
    .newLineBreaks ⟨length, R.lineWidth length⟩

/-! ## The shim -/

/-- The tables and the counters tokens are taken from, and the objects. -/
structure Graphics (φ : Type) where
  tables : Stores φ
  nextBitmapToken : UInt64 := 0x40000000
  nextCanvasToken : UInt64 := 0x24000
  nextPaintToken : UInt64 := 0x1e000
  nextFilterToken : UInt64 := 0x30000
  nextShaderToken : UInt64 := 0x20000
  nextLineBreakToken : UInt64 := 0x29800
  wrapIdx : ℕ := 0
  objects : Stores φ := ⟨[], [], [], [], [], []⟩

namespace Graphics

open SlotTable

/-- The shim as it is loaded: tables of zeroes. -/
def start (R : Raster φ δ) : Graphics φ where
  tables :=
    { bitmaps := List.replicate 2048 (0, {})
      canvases := List.replicate 512 (0, .reset R 0 none)
      paints := List.replicate 8192 (0, .new R 0)
      filters := List.replicate 512 (0, ⟨0, 0⟩)
      shaders := List.replicate 512 (0, ⟨0⟩)
      lineBreaks := List.replicate 128 (0, ⟨0, R.zero⟩) }

variable (s : Graphics φ)

/-- The token `muplar_alloc_bitmap` would hand out. -/
def bitmapToken : UInt64 := s.nextBitmapToken + 0x100
def canvasToken : UInt64 := s.nextCanvasToken + 0x100
def paintToken : UInt64 := s.nextPaintToken + 0x100
def filterToken : UInt64 := s.nextFilterToken + 0x100
def shaderToken : UInt64 := s.nextShaderToken + 0x100
def lineBreakToken : UInt64 := s.nextLineBreakToken + 0x100

/-- `muplar_alloc_bitmap`. -/
def allocBitmap (st : BitmapState) : Graphics φ :=
  if (freeSlot s.tables.bitmaps).isSome then
    { s with
      nextBitmapToken := s.bitmapToken
      tables := { s.tables with bitmaps := place s.tables.bitmaps s.bitmapToken st } }
  else s

/-- The slot of a new canvas: the first free one, or else the next in
turn. -/
def canvasSlot : ℕ :=
  (freeSlot s.tables.canvases).getD (s.wrapIdx % 512)

/-- `muplar_alloc_canvas`. -/
def allocCanvas (st : CanvasState φ) : Graphics φ :=
  { s with
    nextCanvasToken := s.canvasToken
    wrapIdx := if (freeSlot s.tables.canvases).isSome then s.wrapIdx else s.wrapIdx + 1
    tables :=
      { s.tables with canvases := s.tables.canvases.set s.canvasSlot (s.canvasToken, st) } }

/-- The slot a shader's token hashes to. -/
def shaderSlot : ℕ :=
  (s.shaderToken / 0x100).toNat % 512

/-- The slot a line-break result's token hashes to. -/
def lineBreakSlot : ℕ :=
  (s.lineBreakToken >>> 8).toNat % 128

/-- The tables and the counters after a call. -/
def perform : Effect φ → Graphics φ
  | .nothing => s
  | .skipCanvas => { s with nextCanvasToken := s.canvasToken }
  | .skipShader => { s with nextShaderToken := s.shaderToken }
  | .newBitmap st => s.allocBitmap st
  | .newCanvas st => s.allocCanvas st
  | .newSurface st canvas =>
    let token := if (freeSlot s.tables.bitmaps).isSome then s.bitmapToken else 0
    let s' := s.allocBitmap st
    s'.allocCanvas (canvas token (s'.tables.look.bitmap token))
  -- the token moves on whether or not there is a slot for it
  | .newPaint st =>
    { s with
      nextPaintToken := s.paintToken
      tables := { s.tables with paints := place s.tables.paints s.paintToken st } }
  | .newFilter st =>
    { s with
      nextFilterToken := s.filterToken
      tables := { s.tables with filters := place s.tables.filters s.filterToken st } }
  | .bareFilter _ => { s with nextFilterToken := s.filterToken }
  | .newShader st =>
    { s with
      nextShaderToken := s.shaderToken
      tables :=
        { s.tables with shaders := s.tables.shaders.set s.shaderSlot (s.shaderToken, st) } }
  | .newLineBreaks st =>
    { s with
      nextLineBreakToken := s.lineBreakToken
      tables :=
        { s.tables with
          lineBreaks := s.tables.lineBreaks.set s.lineBreakSlot (s.lineBreakToken, st) } }
  | .onBitmap token g =>
    { s with tables := { s.tables with bitmaps := update s.tables.bitmaps token g } }
  | .onCanvas token g =>
    { s with tables := { s.tables with canvases := update s.tables.canvases token g } }
  | .onPaint token g =>
    { s with tables := { s.tables with paints := update s.tables.paints token g } }
  | .freeBitmap token =>
    { s with tables := { s.tables with bitmaps := release s.tables.bitmaps token fun _ => {} } }
  | .freePaint token =>
    { s with tables := { s.tables with paints := release s.tables.paints token id } }

/-- The token a new bitmap has on the Java side: `createBitmap` begins with
one, and it is overwritten where there is a slot. -/
def mNativePtr : UInt64 :=
  if (freeSlot s.tables.bitmaps).isSome then s.bitmapToken else 1

/-- The objects after a call: a created one under the token handed out. -/
def record : Effect φ → Stores φ
  | .nothing | .skipCanvas | .skipShader => s.objects
  | .newBitmap st =>
    { s.objects with bitmaps := s.objects.bitmaps ++ [(s.mNativePtr, st)] }
  | .newCanvas st =>
    { s.objects with canvases := s.objects.canvases ++ [(s.canvasToken, st)] }
  -- a surface goes without a bitmap where there is no slot
  | .newSurface st canvas =>
    let made := (freeSlot s.tables.bitmaps).isSome
    let token := if made then s.bitmapToken else 0
    let bitmaps := s.objects.bitmaps ++ if made then [(s.bitmapToken, st)] else []
    { s.objects with
      bitmaps := bitmaps
      canvases :=
        s.objects.canvases ++ [(s.canvasToken, canvas token (SlotTable.find bitmaps token))] }
  | .newPaint st => { s.objects with paints := s.objects.paints ++ [(s.paintToken, st)] }
  | .newFilter st | .bareFilter st =>
    { s.objects with filters := s.objects.filters ++ [(s.filterToken, st)] }
  | .newShader st => { s.objects with shaders := s.objects.shaders ++ [(s.shaderToken, st)] }
  | .newLineBreaks st =>
    { s.objects with lineBreaks := s.objects.lineBreaks ++ [(s.lineBreakToken, st)] }
  | .onBitmap token g => { s.objects with bitmaps := setObject s.objects.bitmaps token g }
  | .onCanvas token g => { s.objects with canvases := setObject s.objects.canvases token g }
  | .onPaint token g => { s.objects with paints := setObject s.objects.paints token g }
  | .freeBitmap token => { s.objects with bitmaps := dropObject s.objects.bitmaps token }
  | .freePaint token => { s.objects with paints := dropObject s.objects.paints token }

/-- One call: the shim looks tokens up in its tables, and what it should do
is what the objects say. -/
def step (R : Raster φ δ) (s : Graphics φ) (c : Call φ δ) : Graphics φ :=
  { s.perform (c.effect R s.tables.look) with
    objects := s.record (c.effect R s.objects.look) }

/-- **Native objects keep their own state**: the tokens of a kind are
different, and under each its object is found in the state it was last
set to. -/
structure Faithful : Prop where
  bitmaps : Keeps s.tables.bitmaps s.objects.bitmaps
  canvases : Keeps s.tables.canvases s.objects.canvases
  paints : Keeps s.tables.paints s.objects.paints
  filters : Keeps s.tables.filters s.objects.filters
  shaders : Keeps s.tables.shaders s.objects.shaders
  lineBreaks : (s.objects.lineBreaks.map Prod.fst).Nodup ∧
    ∀ e ∈ s.objects.lineBreaks, findLineBreakResult s.tables.lineBreaks e.1 = some e.2

end Graphics

end Shim

end Muplar
