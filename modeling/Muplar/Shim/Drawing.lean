import Muplar.Common.Bytes
import Muplar.Common.ForLoop
import Muplar.Shim.Graphics
/-!
# Drawing

What the drawing functions of a canvas do to pixels. Everything is drawn
by four functions of the shim: `muplar_fill_rect` and `muplar_fill_circle`
fill a part of a bitmap, `muplar_draw_text` puts glyphs over it, and
`muplar_blit_bitmap` scales another bitmap into it, which may be the same.
A native method looks its objects up and calls one of them, or goes
through a list of points.

The pixels of all bitmaps are one memory, and every pixel that is read or
written is noted. Floats are whatever they are, and so is what becomes of
them as integers; integers are `int`s, and wrap around. Parameters that a
method ignores are left out.
-/

namespace Muplar

namespace Shim

namespace Drawing

open ForLoop

variable {φ : Type}

/-! ## What is there -/

/-- The floats of the drawing functions, with the constants they use. -/
structure Floats (φ : Type) where
  ofInt : ℤ → φ
  zero : φ
  half : φ
  one : φ
  /-- 11.0, the row of the baseline -/
  baseline : φ
  /-- 0.495 and 0.22, half the side of a squircle and its corners -/
  squircleSide : φ
  squircleCorner : φ
  add : φ → φ → φ
  sub : φ → φ → φ
  mul : φ → φ → φ
  abs : φ → φ
  sqrt : φ → φ
  lt : φ → φ → Bool
  le : φ → φ → Bool
  /-- `muplar_floor_to_int`, `muplar_ceil_to_int` and the cast -/
  floorToInt : φ → ℤ
  ceilToInt : φ → ℤ
  truncToInt : φ → ℤ
  toByte : φ → UInt8

/-- The font: the alpha of a pixel of a glyph, and how far it goes. -/
structure Font where
  alpha : ℕ → ℕ → UInt8
  advance : ℕ → ℤ

/-- A bitmap that was found, with its token. -/
structure Bitmap where
  token : UInt64
  width : ℤ
  height : ℤ

/-- What the tables hold, but for pixels: `muplar_find_bitmap` and its
siblings. Bitmaps have the size that `muplar_alloc_bitmap` gives. -/
structure Scene (φ : Type) where
  findBitmap : UInt64 → Option Bitmap
  findPaint : UInt64 → Option (PaintState φ)
  findFilter : UInt64 → Option FilterState
  findShader : UInt64 → Option ShaderState
  bitmap_token : ∀ {token b}, findBitmap token = some b → b.token = token
  width_pos : ∀ {token b}, findBitmap token = some b → 0 < b.width
  width_lt : ∀ {token b}, findBitmap token = some b → b.width < 2 ^ 31
  height_pos : ∀ {token b}, findBitmap token = some b → 0 < b.height
  height_lt : ∀ {token b}, findBitmap token = some b → b.height < 2 ^ 31

/-- The pixels, and the indices that were read or written. -/
structure Memory where
  pixel : UInt64 → ℤ → UInt32
  accesses : List (UInt64 × ℤ)

def Memory.read (m : Memory) (b : Bitmap) (index : ℤ) : Memory :=
  { m with accesses := (b.token, index) :: m.accesses }

def Memory.write (m : Memory) (b : Bitmap) (index : ℤ) (color : UInt32) : Memory where
  pixel := fun token i => if token = b.token ∧ i = index then color else m.pixel token i
  accesses := (b.token, index) :: m.accesses

/-- An `int` holds a number up to a multiple of 2^32. -/
def int (n : ℤ) : ℤ :=
  n.bmod (2 ^ 32)

/-- A byte of a color. -/
def channel (color shift : UInt32) : UInt32 :=
  (color >>> shift) &&& 0xff

/-! ## Rectangles and circles -/

/-- What a color that is not opaque leaves over another. -/
def fillOver (color dst : UInt32) : UInt32 :=
  let alpha := channel color 24
  let inv := 255 - alpha
  let nr := (channel color 16 * alpha + channel dst 16 * inv) / 255
  let ng := (channel color 8 * alpha + channel dst 8 * inv) / 255
  let nb := (channel color 0 * alpha + channel dst 0 * inv) / 255
  ((0xff : UInt32) <<< 24) ||| (nr <<< 16) ||| (ng <<< 8) ||| nb

/-- `muplar_fill_rect`. -/
def fillRect (b : Bitmap) (left top right bottom : ℤ) (color : UInt32) (m : Memory) : Memory :=
  let left := if left < 0 then 0 else left
  let top := if top < 0 then 0 else top
  let right := if right > b.width then b.width else right
  let bottom := if bottom > b.height then b.height else bottom
  if right ≤ left ∨ bottom ≤ top then m
  else if channel color 24 = 0 then m
  else
    loop top bottom (fun y => loop left right fun x m =>
      let index := y * b.width + x
      if channel color 24 = 255 then m.write b index color
      else (m.read b index).write b index (fillOver color (m.pixel b.token index))) m

/-- A pixel of a circle. -/
def inCircle (F : Floats φ) (cx cy radius : φ) (x y : ℤ) : Bool :=
  let dx := F.sub (F.add (F.ofInt x) F.half) cx
  let dy := F.sub (F.add (F.ofInt y) F.half) cy
  F.le (F.add (F.mul dx dx) (F.mul dy dy)) (F.mul radius radius)

/-- `muplar_fill_circle`. -/
def fillCircle (F : Floats φ) (b : Bitmap) (cx cy radius : φ) (color : UInt32) (m : Memory) :
    Memory :=
  let left := F.floorToInt (F.sub cx radius)
  let top := F.floorToInt (F.sub cy radius)
  let right := F.ceilToInt (F.add cx radius)
  let bottom := F.ceilToInt (F.add cy radius)
  if F.le radius F.zero then m
  else
    let left := if left < 0 then 0 else left
    let top := if top < 0 then 0 else top
    let right := if right > b.width then b.width else right
    let bottom := if bottom > b.height then b.height else bottom
    loop top bottom (fun y => loop left right fun x m =>
      if inCircle F cx cy radius x y then m.write b (y * b.width + x) color else m) m

/-! ## Text -/

/-- The color of a paint, or of its filter. -/
def paintColor (S : Scene φ) (token : UInt64) (fallback : UInt32) : UInt32 :=
  match S.findPaint token with
  | none => fallback
  | some paint =>
    match if paint.colorFilter ≠ 0 then S.findFilter paint.colorFilter else none with
    | none => paint.color
    | some f =>
      if f.color ≠ 0 then
        let pa := channel paint.color 24
        if pa ≠ 0 ∧ pa ≠ 255 then
          (f.color &&& (0x00ffffff : UInt32)) ||| (channel f.color 24 * pa / 255) <<< 24
        else f.color
      else paint.color

/-- A glyph's pixel over another, of alpha `a`. -/
def glyphOver (tr tg tb a dp : UInt32) : UInt32 :=
  let outR := (tr * a + channel dp 16 * (255 - a)) / 255
  let outG := (tg * a + channel dp 8 * (255 - a)) / 255
  let outB := (tb * a + channel dp 0 * (255 - a)) / 255
  let outA := a + channel dp 24 * (255 - a) / 255
  (outA <<< 24) ||| (outR <<< 16) ||| (outG <<< 8) ||| outB

/-- A pixel is in the clip and in the bitmap, as the loops test it. -/
def visible (clip : Frame φ) (b : Bitmap) (px py : ℤ) : Bool :=
  !(py < clip.clipTop || py ≥ clip.clipBottom || py < 0 || py ≥ b.height) &&
    !(px < clip.clipLeft || px ≥ clip.clipRight || px < 0 || px ≥ b.width)

/-- A glyph at a place; rows and columns are 16. -/
def drawGlyph (font : Font) (clip : Frame φ) (b : Bitmap) (tr tg tb baseAlpha : UInt32)
    (glyph : ℕ) (gx gy : ℤ) (m : Memory) : Memory :=
  loop 0 16 (fun r => loop 0 16 fun col m =>
    let py := int (gy + r)
    let px := int (gx + col)
    let ga := font.alpha glyph (r * 16 + col).toNat
    if !visible clip b px py then m
    else if ga = 0 then m
    else
      let a := ga.toUInt32 * baseAlpha / 255
      let index := py * b.width + px
      (m.read b index).write b index (glyphOver tr tg tb a (m.pixel b.token index))) m

/-- The loop over characters, from `curX` on. -/
def drawChars (F : Floats φ) (font : Font) (c : CanvasState φ) (b : Bitmap)
    (tr tg tb baseAlpha : UInt32) (y : φ) : Bytes → φ → Memory → Memory
  | [], _, m => m
  | ch :: text, curX, m =>
    if ch = 13 ∨ ch = 10 then drawChars F font c b tr tg tb baseAlpha y text curX m
    else
      let glyph := if 32 ≤ ch ∧ ch ≤ 126 then ch.toNat - 32 else 63 - 32
      let gx := F.floorToInt (F.add (F.mul curX c.frame.sx) c.frame.tx)
      let gy := F.floorToInt (F.add (F.mul (F.sub y F.baseline) c.frame.sy) c.frame.ty)
      drawChars F font c b tr tg tb baseAlpha y text
        (F.add curX (F.ofInt (font.advance glyph)))
        (drawGlyph font c.frame b tr tg tb baseAlpha glyph gx gy m)

/-- `muplar_draw_text`. -/
def drawText (F : Floats φ) (font : Font) (S : Scene φ) (c : CanvasState φ) (b : Bitmap)
    (text : Bytes) (x y : φ) (paint : UInt64) (m : Memory) : Memory :=
  let color := paintColor S paint 0xff000000
  let baseAlpha := if channel color 24 = 0 then 255 else channel color 24
  if text = ascii "null" then
    drawChars F font c b 128 128 128 baseAlpha y (ascii "Search apps...") x m
  else
    drawChars F font c b (channel color 16) (channel color 8) (channel color 0) baseAlpha y text
      x m

/-! ## Bitmaps over bitmaps -/

/-- The squircle of a destination. -/
structure Squircle (φ : Type) where
  cx : φ
  cy : φ
  hw : φ
  hh : φ
  r : φ

def Squircle.of (F : Floats φ) (dstX dstY dstW dstH : ℤ) : Squircle φ where
  cx := F.add (F.ofInt dstX) (F.mul (F.ofInt dstW) F.half)
  cy := F.add (F.ofInt dstY) (F.mul (F.ofInt dstH) F.half)
  hw := F.mul (F.ofInt dstW) F.squircleSide
  hh := F.mul (F.ofInt dstH) F.squircleSide
  r := F.mul (if F.lt (F.ofInt dstW) (F.ofInt dstH) then F.ofInt dstW else F.ofInt dstH)
    F.squircleCorner

namespace Squircle

variable (F : Floats φ) (q : Squircle φ) (px py : ℤ)

def ox : φ := F.abs (F.sub (F.add (F.ofInt px) F.half) q.cx)

def oy : φ := F.abs (F.sub (F.add (F.ofInt py) F.half) q.cy)

def inCorner : Bool :=
  F.lt (F.sub q.hw q.r) (q.ox F px) && F.lt (F.sub q.hh q.r) (q.oy F py)

def dist : φ :=
  let cdx := F.sub (q.ox F px) (F.sub q.hw q.r)
  let cdy := F.sub (q.oy F py) (F.sub q.hh q.r)
  F.sqrt (F.add (F.mul cdx cdx) (F.mul cdy cdy))

/-- The pixel is outside. -/
def masked : Bool :=
  F.le q.hw (q.ox F px) || F.le q.hh (q.oy F py) ||
    q.inCorner F px py && F.le q.r (q.dist F px py)

/-- The alpha at the edge, or nothing if that is zero. -/
def soften (alpha : UInt8) : Option UInt8 :=
  if q.inCorner F px py && F.lt (F.sub q.r F.one) (q.dist F px py) then
    let maskA := F.sub q.r (q.dist F px py)
    let maskA := if F.lt maskA F.zero then F.zero else maskA
    let maskA := if F.lt F.one maskA then F.one else maskA
    let alpha := F.toByte (F.mul (F.ofInt alpha.toNat) maskA)
    if alpha = 0 then none else some alpha
  else some alpha

end Squircle

/-- The tint of a filter, and the alpha of a paint. -/
structure Tint where
  filterColor : UInt32
  rgb : UInt32
  alpha : UInt32
  paintAlpha : UInt32

def Tint.of (S : Scene φ) (paint : UInt64) : Tint :=
  let p := S.findPaint paint
  let f := p.bind fun p => if p.colorFilter ≠ 0 then S.findFilter p.colorFilter else none
  { filterColor := (f.map FilterState.color).getD 0
    rgb := (f.map fun f => f.color &&& (0x00ffffff : UInt32)).getD 0
    alpha := (f.map fun f => channel f.color 24).getD 255
    paintAlpha :=
      (p.bind fun p => if p.color ≠ 0 then some (channel p.color 24) else none).getD 255 }

/-- The color of the source after the paint and the filter, with its
alpha. -/
def Tint.apply (t : Tint) (srcColor : UInt32) (alpha : UInt8) : UInt32 × UInt8 :=
  let painted := if t.paintAlpha < 255 then (alpha.toUInt32 * t.paintAlpha / 255).toUInt8 else alpha
  if t.filterColor ≠ 0 then
    let tinted := (painted.toUInt32 * t.alpha / 255).toUInt8
    ((tinted.toUInt32 <<< 24) ||| t.rgb, tinted)
  else if t.paintAlpha < 255 then
    ((painted.toUInt32 <<< 24) ||| (srcColor &&& (0x00ffffff : UInt32)), painted)
  else (srcColor, painted)

/-- A source's color over another, of some alpha. -/
def blitOver (srcColor : UInt32) (alpha : UInt8) (dst : UInt32) : UInt32 :=
  let a := alpha.toUInt32
  let outR := (channel srcColor 16 * a + channel dst 16 * (255 - a)) / 255
  let g := (channel srcColor 8 * a + channel dst 8 * (255 - a)) / 255
  let b := (channel srcColor 0 * a + channel dst 0 * (255 - a)) / 255
  (0xff000000 : UInt32) ||| (outR <<< 16) ||| (g <<< 8) ||| b

/-- What is blitted, and where to: rectangles by corner and size. -/
structure Blit where
  src : Bitmap
  dstX : ℤ
  dstY : ℤ
  dstW : ℤ
  dstH : ℤ
  srcX : ℤ
  srcY : ℤ
  srcW : ℤ
  srcH : ℤ
  paint : UInt64
  maskSquircle : Bool

/-- The pixels of the source that are counted for a message. -/
def countNonZero (src : Bitmap) (m : Memory) : Memory :=
  loop 0 (min src.height 100) (fun y => loop 0 (min src.width 100) fun x m =>
    m.read src (int (int (y * src.width) + x))) m

/-- A pixel of the destination that is visible. -/
def blitPixel (F : Floats φ) (S : Scene φ) (dst : Bitmap) (blit : Blit) (x sy px py : ℤ)
    (m : Memory) : Memory :=
  let q := Squircle.of F blit.dstX blit.dstY blit.dstW blit.dstH
  -- the mask is looked at before the source, and softens its alpha afterwards
  if blit.maskSquircle && q.masked F px py then m
  else
    let sx := int (blit.srcX + int ((x * blit.srcW).tdiv blit.dstW))
    if sx < 0 ∨ sx ≥ blit.src.width then m
    else
      let srcIndex := sy * blit.src.width + sx
      let srcColor := m.pixel blit.src.token srcIndex
      let m := m.read blit.src srcIndex
      let alpha := (srcColor >>> 24).toUInt8
      if alpha = 0 then m
      else
        match if blit.maskSquircle then q.soften F px py alpha else some alpha with
        | none => m
        | some alpha =>
          let (color, alpha) := (Tint.of S blit.paint).apply srcColor alpha
          let index := py * dst.width + px
          if alpha = 255 then m.write dst index color
          else (m.read dst index).write dst index (blitOver color alpha (m.pixel dst.token index))

/-- `muplar_blit_bitmap`. -/
def blitBitmap (F : Floats φ) (S : Scene φ) (dst : Bitmap) (clip : Frame φ) (blit : Blit)
    (m : Memory) : Memory :=
  if blit.dstW ≤ 0 ∨ blit.dstH ≤ 0 ∨ blit.srcW ≤ 0 ∨ blit.srcH ≤ 0 then m
  else
    loop 0 blit.dstH (fun y m =>
      let py := int (blit.dstY + y)
      if py < clip.clipTop ∨ py ≥ clip.clipBottom ∨ py < 0 ∨ py ≥ dst.height then m
      else
        let sy := int (blit.srcY + int ((y * blit.srcH).tdiv blit.dstH))
        if sy < 0 ∨ sy ≥ blit.src.height then m
        else
          loop 0 blit.dstW (fun x m =>
            let px := int (blit.dstX + x)
            if px < clip.clipLeft ∨ px ≥ clip.clipRight ∨ px < 0 ∨ px ≥ dst.width then m
            else blitPixel F S dst blit x sy px py m) m) (countNonZero blit.src m)

/-! ## The native methods -/

/-- A call of one of the four functions. -/
inductive Primitive (φ : Type)
  | fillRect (left top right bottom : ℤ) (color : UInt32)
  | fillCircle (cx cy radius : φ) (color : UInt32)
  | drawText (text : Bytes) (x y : φ) (paint : UInt64)
  | blitBitmap (blit : Blit)

/-- The drawing methods; strings and arrays are null or not. -/
inductive Draw (φ : Type)
  | color (color : UInt32)
  | colorLong (color : UInt64)
  | paint (paint : UInt64)
  | rect (left top right bottom : φ) (paint : UInt64)
  | roundRect (left top right bottom : φ) (paint : UInt64)
  | oval (left top right bottom : φ) (paint : UInt64)
  | arc (left top right bottom : φ) (paint : UInt64)
  | line (x1 y1 x2 y2 : φ) (paint : UInt64)
  | lines (lines : Option (ℤ → φ)) (offset count : ℤ) (paint : UInt64)
  | point (x y : φ) (paint : UInt64)
  | points (points : Option (ℤ → φ)) (offset count : ℤ) (paint : UInt64)
  | circle (cx cy radius : φ) (paint : UInt64)
  | path (paint : UInt64)
  | textString (text : Option (List UInt16)) (start stop : ℤ) (x y : φ) (paint : UInt64)
  | textRunString (text : Option (List UInt16)) (start stop : ℤ) (x y : φ) (paint : UInt64)
  | textChars (text : Option (List UInt16)) (index count : ℤ) (x y : φ) (paint : UInt64)
  | textRunChars (text : Option (List UInt16)) (index count : ℤ) (x y : φ) (paint : UInt64)
  | glyphs (glyphIds : Option (List ℤ)) (positions : Option (List φ))
    (glyphOffset positionOffset glyphCount : ℤ) (paint : UInt64)
  | bitmap (bitmap : UInt64) (left top : φ) (paint : UInt64)
  | bitmapMatrix (bitmap : UInt64) (paint : UInt64)
  | bitmapRect (bitmap : UInt64) (srcLeft srcTop srcRight srcBottom : φ)
    (dstLeft dstTop dstRight dstBottom : φ) (paint : UInt64)
  | ninePatch (bitmap : UInt64) (dstLeft dstTop dstRight dstBottom : φ) (paint : UInt64)

section

variable (F : Floats φ) (S : Scene φ) (c : CanvasState φ) (dst : Bitmap)

/-- The bitmap of a paint's shader. -/
def shaderBitmap (paint : UInt64) : Option Bitmap :=
  (S.findPaint paint).bind fun p =>
    if p.shader ≠ 0 then (S.findShader p.shader).bind fun s => S.findBitmap s.bitmapToken
    else none

/-- A coordinate in the bitmap. -/
def toX (x : φ) : φ := F.add (F.mul x c.frame.sx) c.frame.tx

def toY (y : φ) : φ := F.add (F.mul y c.frame.sy) c.frame.ty

/-- `nDrawColor`. -/
def nDrawColor (color : UInt32) : List (Primitive φ) :=
  [.fillRect c.frame.clipLeft c.frame.clipTop c.frame.clipRight c.frame.clipBottom color]

/-- `nDrawRect`. -/
def nDrawRect (left top right bottom : φ) (paint : UInt64) : List (Primitive φ) :=
  let l := F.floorToInt (toX F c left)
  let t := F.floorToInt (toY F c top)
  let r := F.ceilToInt (toX F c right)
  let b := F.ceilToInt (toY F c bottom)
  let l := if l < c.frame.clipLeft then c.frame.clipLeft else l
  let t := if t < c.frame.clipTop then c.frame.clipTop else t
  let r := if r > c.frame.clipRight then c.frame.clipRight else r
  let b := if b > c.frame.clipBottom then c.frame.clipBottom else b
  if r > l ∧ b > t then
    match shaderBitmap S paint with
    | some src => [.blitBitmap ⟨src, l, t, int (r - l), int (b - t), 0, 0, src.width, src.height,
        paint, false⟩]
    | none => [.fillRect l t r b (paintColor S paint 0xffdadce0)]
  else []

/-- `nDrawLine`. -/
def nDrawLine (x1 y1 x2 y2 : φ) (paint : UInt64) : List (Primitive φ) :=
  let left := if F.lt x1 x2 then x1 else x2
  let right := if F.lt x2 x1 then x1 else x2
  let top := if F.lt y1 y2 then y1 else y2
  let bottom := if F.lt y2 y1 then y1 else y2
  let right := if F.lt (F.sub right left) F.one then F.add left F.one else right
  let bottom := if F.lt (F.sub bottom top) F.one then F.add top F.one else bottom
  nDrawRect F S c left top right bottom paint

/-- `nDrawPoint`. -/
def nDrawPoint (x y : φ) (paint : UInt64) : List (Primitive φ) :=
  nDrawRect F S c x y (F.add x F.one) (F.add y F.one) paint

/-- `nDrawPoints`: as many as there are pairs in the count. -/
def nDrawPoints (points : Option (ℤ → φ)) (offset count : ℤ) (paint : UInt64) :
    List (Primitive φ) :=
  match points with
  | none => []
  | some data => (List.range (count / 2).toNat).flatMap fun k =>
      nDrawPoint F S c (data (offset + 2 * k)) (data (offset + 2 * k + 1)) paint

/-- `nDrawLines`. -/
def nDrawLines (lines : Option (ℤ → φ)) (offset count : ℤ) (paint : UInt64) :
    List (Primitive φ) :=
  match lines with
  | none => []
  | some data => (List.range (count / 4).toNat).flatMap fun k =>
      nDrawLine F S c (data (offset + 4 * k)) (data (offset + 4 * k + 1))
        (data (offset + 4 * k + 2)) (data (offset + 4 * k + 3)) paint

/-- `nDrawPaint`. -/
def nDrawPaint (paint : UInt64) : List (Primitive φ) :=
  let f := c.frame
  match shaderBitmap S paint with
  | some src => [.blitBitmap ⟨src, f.clipLeft, f.clipTop, int (f.clipRight - f.clipLeft),
      int (f.clipBottom - f.clipTop), 0, 0, src.width, src.height, paint, false⟩]
  | none => [.fillRect f.clipLeft f.clipTop f.clipRight f.clipBottom
      (paintColor S paint 0xffffffff)]

/-- `nDrawCircle`. -/
def nDrawCircle (cx cy radius : φ) (paint : UInt64) : List (Primitive φ) :=
  let scale := if F.lt c.frame.sy c.frame.sx then c.frame.sx else c.frame.sy
  [.fillCircle (toX F c cx) (toY F c cy) (F.mul radius scale) (paintColor S paint 0xff5f6368)]

/-- `nDrawPath`, which draws the shader's bitmap over the whole. -/
def nDrawPath (paint : UInt64) : List (Primitive φ) :=
  match shaderBitmap S paint with
  | some src =>
    let dw := F.ceilToInt (F.mul (F.ofInt dst.width) c.frame.sx)
    let dh := F.ceilToInt (F.mul (F.ofInt dst.height) c.frame.sy)
    [.blitBitmap ⟨src, F.floorToInt c.frame.tx, F.floorToInt c.frame.ty,
      if dw ≤ 0 then dst.width else dw, if dh ≤ 0 then dst.height else dh, 0, 0, src.width,
      src.height, paint, true⟩]
  | none => []

/-- The characters of a buffer, seven bits each. -/
def buffer (chars : List UInt16) : Bytes :=
  (chars.take 510).map fun ch => (ch &&& (0x7f : UInt16)).toUInt8

/-- `nDrawTextString`. -/
def nDrawTextString (text : Option (List UInt16)) (start stop : ℤ) (x y : φ) (paint : UInt64) :
    List (Primitive φ) :=
  let chars := text.getD []
  let start := if start < 0 then 0 else start
  let stop := if stop < start ∨ stop > chars.length then (chars.length : ℤ) else stop
  if stop - start ≤ 0 then []
  else [.drawText (buffer ((chars.drop start.toNat).take (stop - start).toNat)) x y paint]

/-- `nDrawTextChars`. -/
def nDrawTextChars (text : Option (List UInt16)) (index count : ℤ) (x y : φ) (paint : UInt64) :
    List (Primitive φ) :=
  match text with
  | none => []
  | some chars =>
    if count ≤ 0 ∨ index < 0 ∨ index ≥ chars.length then []
    else [.drawText (buffer ((chars.drop index.toNat).take count.toNat)) x y paint]

/-- `nDrawGlyphs`: at the first position. -/
def nDrawGlyphs (glyphIds : Option (List ℤ)) (positions : Option (List φ))
    (glyphOffset positionOffset glyphCount : ℤ) (paint : UInt64) : List (Primitive φ) :=
  match glyphIds, positions with
  | some gids, some pos =>
    if glyphCount ≤ 0 ∨ positionOffset < 0 ∨ positionOffset + 1 ≥ pos.length ∨ glyphOffset < 0 ∨
        glyphOffset ≥ gids.length then []
    else
      let n := if glyphCount < 250 then glyphCount.toNat else 250
      let text := ((gids.drop glyphOffset.toNat).take n).map fun gid =>
        if 32 ≤ gid ∧ gid ≤ 126 then UInt8.ofNat gid.toNat else 32
      [.drawText text (pos.getD positionOffset.toNat F.zero)
        (pos.getD (positionOffset.toNat + 1) F.zero) paint]
  | _, _ => []

/-- `nDrawBitmap`. -/
def nDrawBitmap (bitmap : UInt64) (left top : φ) (paint : UInt64) : List (Primitive φ) :=
  match S.findBitmap bitmap with
  | none => []
  | some src => [.blitBitmap ⟨src, F.floorToInt (toX F c left), F.floorToInt (toY F c top),
      F.truncToInt (F.mul (F.ofInt src.width) c.frame.sx),
      F.truncToInt (F.mul (F.ofInt src.height) c.frame.sy), 0, 0, src.width, src.height, paint,
      false⟩]

/-- `nDrawBitmapRect`. -/
def nDrawBitmapRect (bitmap : UInt64) (srcLeft srcTop srcRight srcBottom : φ)
    (dstLeft dstTop dstRight dstBottom : φ) (paint : UInt64) : List (Primitive φ) :=
  match S.findBitmap bitmap with
  | none => []
  | some src =>
    let sx := F.floorToInt srcLeft
    let sy := F.floorToInt srcTop
    let dx := F.floorToInt (toX F c dstLeft)
    let dy := F.floorToInt (toY F c dstTop)
    [.blitBitmap ⟨src, dx, dy, int (F.ceilToInt (toX F c dstRight) - dx),
      int (F.ceilToInt (toY F c dstBottom) - dy), sx, sy, int (F.ceilToInt srcRight - sx),
      int (F.ceilToInt srcBottom - sy), paint, false⟩]

/-- `nDrawNinePatch`, which scales the whole. -/
def nDrawNinePatch (bitmap : UInt64) (dstLeft dstTop dstRight dstBottom : φ) (paint : UInt64) :
    List (Primitive φ) :=
  match S.findBitmap bitmap with
  | none => []
  | some src =>
    let dx := F.floorToInt (toX F c dstLeft)
    let dy := F.floorToInt (toY F c dstTop)
    [.blitBitmap ⟨src, dx, dy, int (F.ceilToInt (toX F c dstRight) - dx),
      int (F.ceilToInt (toY F c dstBottom) - dy), 0, 0, src.width, src.height, paint, false⟩]

/-- What a method calls, on a canvas with a bitmap. -/
def callsOf : Draw φ → List (Primitive φ)
  | .color color => nDrawColor c color
  | .colorLong color => nDrawColor c (color >>> 32).toUInt32
  | .paint paint => nDrawPaint S c paint
  | .rect left top right bottom paint => nDrawRect F S c left top right bottom paint
  | .roundRect left top right bottom paint => nDrawRect F S c left top right bottom paint
  | .oval left top right bottom paint => nDrawRect F S c left top right bottom paint
  | .arc left top right bottom paint => nDrawRect F S c left top right bottom paint
  | .line x1 y1 x2 y2 paint => nDrawLine F S c x1 y1 x2 y2 paint
  | .lines lines offset count paint => nDrawLines F S c lines offset count paint
  | .point x y paint => nDrawPoint F S c x y paint
  | .points points offset count paint => nDrawPoints F S c points offset count paint
  | .circle cx cy radius paint => nDrawCircle F S c cx cy radius paint
  | .path paint => nDrawPath F S c dst paint
  | .textString text start stop x y paint => nDrawTextString text start stop x y paint
  | .textRunString text start stop x y paint => nDrawTextString text start stop x y paint
  | .textChars text index count x y paint => nDrawTextChars text index count x y paint
  | .textRunChars text index count x y paint => nDrawTextChars text index count x y paint
  | .glyphs glyphIds positions glyphOffset positionOffset glyphCount paint =>
    nDrawGlyphs F glyphIds positions glyphOffset positionOffset glyphCount paint
  | .bitmap bitmap left top paint => nDrawBitmap F S c bitmap left top paint
  -- the matrix is ignored
  | .bitmapMatrix bitmap paint => nDrawBitmap F S c bitmap F.zero F.zero paint
  | .bitmapRect bitmap srcLeft srcTop srcRight srcBottom dstLeft dstTop dstRight dstBottom paint =>
    nDrawBitmapRect F S c bitmap srcLeft srcTop srcRight srcBottom dstLeft dstTop dstRight
      dstBottom paint
  | .ninePatch bitmap dstLeft dstTop dstRight dstBottom paint =>
    nDrawNinePatch F S c bitmap dstLeft dstTop dstRight dstBottom paint

/-- A call. -/
def perform (font : Font) (m : Memory) : Primitive φ → Memory
  | .fillRect left top right bottom color => fillRect dst left top right bottom color m
  | .fillCircle cx cy radius color => fillCircle F dst cx cy radius color m
  | .drawText text x y paint => drawText F font S c dst text x y paint m
  | .blitBitmap blit => blitBitmap F S dst c.frame blit m

/-- A method: nothing is drawn without a bitmap. -/
def draw (font : Font) (d : Draw φ) (m : Memory) : Memory :=
  match S.findBitmap c.bitmapToken with
  | none => m
  | some dst => (callsOf F S c dst d).foldl (perform F S c dst font) m

end

end Drawing

end Shim

end Muplar
