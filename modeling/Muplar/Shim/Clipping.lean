import Mathlib.Tactic.Linarith
import Muplar.Shim.Drawing
/-!
# Drawing — the clip

Rectangles are cut to the clip before they are filled, glyphs and blits
look at it pixel by pixel; circles do not look at it at all. And a blit
counts some pixels of its source first, by an index that is an `int` and
wraps around for a source of enormous width.

So a method draws inside of the clip and within the bitmaps exactly where
its circle lies inside of the clip, or changes nothing outside, and its
sources can be counted (`draw_contained_iff`).
-/

namespace Muplar

namespace Shim

namespace Drawing

open ForLoop

variable {φ : Type}

/-! ## What is to hold -/

/-- A pixel inside both the bitmap and the clip. -/
structure Clipped (clip : Frame φ) (b : Bitmap) (x y : ℤ) : Prop where
  x_nonneg : 0 ≤ x
  x_lt : x < b.width
  y_nonneg : 0 ≤ y
  y_lt : y < b.height
  left : clip.clipLeft ≤ x
  right : x < clip.clipRight
  top : clip.clipTop ≤ y
  bottom : y < clip.clipBottom

/-- An index of a pixel of a bitmap. -/
def InBitmap (S : Scene φ) (a : UInt64 × ℤ) : Prop :=
  ∃ b, S.findBitmap a.1 = some b ∧ 0 ≤ a.2 ∧ a.2 < b.width * b.height

/-- An index of a clipped pixel of the canvas's bitmap. -/
def InClip (S : Scene φ) (c : CanvasState φ) (token : UInt64) (i : ℤ) : Prop :=
  ∃ b x y, S.findBitmap c.bitmapToken = some b ∧ token = c.bitmapToken ∧ Clipped c.frame b x y ∧
    i = y * b.width + x

/-- **Drawing is contained.** Only clipped pixels of the canvas's own
bitmap change, and every index is one of the bitmap concerned. -/
structure Contained (S : Scene φ) (c : CanvasState φ) (m m' : Memory) : Prop where
  changes : ∀ token i, m'.pixel token i ≠ m.pixel token i → InClip S c token i
  accesses : ∀ a ∈ m'.accesses, InBitmap S a

/-! ## When it does -/

/-- A pixel that `fillCircle` writes. -/
def Covers (F : Floats φ) (b : Bitmap) (cx cy radius : φ) (x y : ℤ) : Prop :=
  F.le radius F.zero = false ∧ 0 ≤ x ∧ x < b.width ∧ 0 ≤ y ∧ y < b.height ∧
    F.floorToInt (F.sub cx radius) ≤ x ∧ x < F.ceilToInt (F.add cx radius) ∧
    F.floorToInt (F.sub cy radius) ≤ y ∧ y < F.ceilToInt (F.add cy radius) ∧
    inCircle F cx cy radius x y = true

/-- The blit has something to do. -/
def Blit.Nonempty (blit : Blit) : Prop :=
  0 < blit.dstW ∧ 0 < blit.dstH ∧ 0 < blit.srcW ∧ 0 < blit.srcH

/-- The indices of the pixels that are counted do not wrap around. -/
def Countable (src : Bitmap) : Prop :=
  (min src.height 100 - 1) * src.width + (min src.width 100 - 1) < 2 ^ 31

/-- **A call fits.** A circle covers only clipped pixels, or such that have
its color; the source of a blit that has something to do can be counted. -/
def Fits (F : Floats φ) (c : CanvasState φ) (dst : Bitmap) (pixel : UInt64 → ℤ → UInt32) :
    Primitive φ → Prop
  | .fillCircle cx cy radius color => ∀ x y, Covers F dst cx cy radius x y →
      Clipped c.frame dst x y ∨ pixel dst.token (y * dst.width + x) = color
  | .blitBitmap blit => blit.Nonempty → Countable blit.src
  | .fillRect .. | .drawText .. => True

/-! ## Indices -/

section

variable {S : Scene φ} {c : CanvasState φ} {b : Bitmap} {token : UInt64} {x y x' y' : ℤ}

theorem index_bounds (hx : 0 ≤ x) (hx' : x < b.width) (hy : 0 ≤ y) (hy' : y < b.height) :
    0 ≤ y * b.width + x ∧ y * b.width + x < b.width * b.height := by
  constructor
  · nlinarith
  · nlinarith

/-- An index is one of one pixel. -/
theorem index_inj (hx : 0 ≤ x) (hx' : x < b.width) (hy : 0 ≤ x') (hy' : x' < b.width)
    (h : y * b.width + x = y' * b.width + x') : x = x' ∧ y = y' := by
  have hrow : y = y' := by
    rcases lt_trichotomy y y' with hlt | heq | hgt
    · nlinarith
    · exact heq
    · nlinarith
  subst hrow
  exact ⟨by omega, rfl⟩

theorem inBitmap_index (hb : S.findBitmap token = some b) (hx : 0 ≤ x) (hx' : x < b.width)
    (hy : 0 ≤ y) (hy' : y < b.height) : InBitmap S (b.token, y * b.width + x) := by
  obtain ⟨hlo, hhi⟩ := index_bounds hx hx' hy hy'
  refine ⟨b, ?_, hlo, hhi⟩
  rw [S.bitmap_token hb]
  exact hb

theorem Clipped.inBitmap {clip : Frame φ} (h : Clipped clip b x y)
    (hb : S.findBitmap token = some b) : InBitmap S (b.token, y * b.width + x) :=
  inBitmap_index hb h.x_nonneg h.x_lt h.y_nonneg h.y_lt

theorem Clipped.inClip (h : Clipped c.frame b x y) (hb : S.findBitmap c.bitmapToken = some b) :
    InClip S c b.token (y * b.width + x) :=
  ⟨b, x, y, hb, S.bitmap_token hb, h, rfl⟩

end

/-! ## Steps that keep to an area -/

/-- Pixels change only in an area, and only accesses of a kind are added. -/
structure Kept (ok : UInt64 × ℤ → Prop) (area : UInt64 → ℤ → Prop) (m m' : Memory) : Prop where
  changes : ∀ token i, m'.pixel token i ≠ m.pixel token i → area token i
  accesses : ∃ new, m'.accesses = new ++ m.accesses ∧ ∀ a ∈ new, ok a

namespace Kept

variable {ok : UInt64 × ℤ → Prop} {area : UInt64 → ℤ → Prop} {m m' m'' : Memory} {b : Bitmap}
variable {index : ℤ} {color : UInt32}

theorem refl (m : Memory) : Kept ok area m m :=
  ⟨fun _ _ h => absurd rfl h, [], rfl, fun _ h => absurd h List.not_mem_nil⟩

theorem trans (h : Kept ok area m m') (h' : Kept ok area m' m'') : Kept ok area m m'' := by
  obtain ⟨new, hnew, hok⟩ := h.accesses
  obtain ⟨new', hnew', hok'⟩ := h'.accesses
  refine ⟨fun token i hchange => ?_, new' ++ new, ?_, fun a ha => ?_⟩
  · by_cases hsame : m'.pixel token i = m.pixel token i
    · rw [← hsame] at hchange
      exact h'.changes token i hchange
    · exact h.changes token i hsame
  · rw [hnew', hnew, List.append_assoc]
  · rcases List.mem_append.mp ha with ha | ha
    · exact hok' a ha
    · exact hok a ha

theorem mem (h : Kept ok area m m') {a : UInt64 × ℤ} (ha : a ∈ m.accesses) :
    a ∈ m'.accesses := by
  obtain ⟨new, hnew, -⟩ := h.accesses
  rw [hnew]
  exact List.mem_append_right new ha

theorem read (h : ok (b.token, index)) : Kept ok area m (m.read b index) :=
  ⟨fun _ _ hchange => absurd rfl hchange, [(b.token, index)], rfl, by
    intro a ha
    rwa [List.mem_singleton.mp ha]⟩

theorem write (h : ok (b.token, index)) (harea : area b.token index) :
    Kept ok area m (m.write b index color) := by
  refine ⟨fun token i hchange => ?_, [(b.token, index)], rfl, fun a ha => ?_⟩
  · by_cases hat : token = b.token ∧ i = index
    · obtain ⟨rfl, rfl⟩ := hat
      exact harea
    · exact absurd (if_neg hat) hchange
  · rwa [List.mem_singleton.mp ha]

/-- Either branch. -/
theorem ite {p : Prop} [Decidable p] (h : p → Kept ok area m m') (h' : ¬p → Kept ok area m m'') :
    Kept ok area m (if p then m' else m'') := by
  by_cases hp : p
  · rw [if_pos hp]
    exact h hp
  · rw [if_neg hp]
    exact h' hp

/-- A loop whose turns keep to the area. -/
theorem loop {start stop : ℤ} {body : ℤ → Memory → Memory}
    (h : ∀ i m, start ≤ i → i < stop → Kept ok area m (body i m)) (m : Memory) :
    Kept ok area m (ForLoop.loop start stop body m) :=
  loop_rel Kept.refl Kept.trans h

theorem foldl {α : Type} {f : Memory → α → Memory} {items : List α}
    (h : ∀ x ∈ items, ∀ m, Kept ok area m (f m x)) (m : Memory) :
    Kept ok area m (items.foldl f m) := by
  induction items generalizing m with
  | nil => exact Kept.refl m
  | cons x items ih =>
    exact (h x List.mem_cons_self m).trans
      (ih (fun y hy => h y (List.mem_cons_of_mem x hy)) (f m x))

end Kept

/-! ## The four functions -/

section

variable {F : Floats φ} {font : Font} {S : Scene φ} {c : CanvasState φ} {dst : Bitmap}
variable {ok : UInt64 × ℤ → Prop} {m : Memory}

/-- A lower bound that is not below zero, and an upper one within a
bitmap. -/
theorem of_cut_le {a x : ℤ} (h : (if a < 0 then 0 else a) ≤ x) : 0 ≤ x ∧ a ≤ x := by
  split_ifs at h <;> omega

theorem of_lt_cut {b n x : ℤ} (h : x < if b > n then n else b) : x < n ∧ x < b := by
  split_ifs at h <;> omega

/-- A rectangle that lies in the clip. -/
theorem kept_fillRect (hdst : S.findBitmap c.bitmapToken = some dst) {l t r b : ℤ}
    (color : UInt32) (hl : c.frame.clipLeft ≤ l) (ht : c.frame.clipTop ≤ t)
    (hr : r ≤ c.frame.clipRight) (hb : b ≤ c.frame.clipBottom)
    (hok : ∀ a, InBitmap S a → ok a) (m : Memory) :
    Kept ok (InClip S c) m (fillRect dst l t r b color m) := by
  refine Kept.ite (fun _ => Kept.refl m) fun _ => Kept.ite (fun _ => Kept.refl m) fun _ =>
    Kept.loop (fun y m hy hy' => Kept.loop (fun x m hx hx' => ?_) m) m
  obtain ⟨hx0, hlx⟩ := of_cut_le hx
  obtain ⟨hxw, hxr⟩ := of_lt_cut hx'
  obtain ⟨hy0, hty⟩ := of_cut_le hy
  obtain ⟨hyh, hyb⟩ := of_lt_cut hy'
  have hclipped : Clipped c.frame dst x y :=
    ⟨hx0, hxw, hy0, hyh, hl.trans hlx, hxr.trans_le hr, ht.trans hty, hyb.trans_le hb⟩
  have hin := hok _ (hclipped.inBitmap hdst)
  have hclip := hclipped.inClip hdst
  exact Kept.ite (fun _ => Kept.write hin hclip) fun _ =>
    (Kept.read hin).trans (Kept.write hin hclip)

theorem visible_clipped {x y : ℤ} (h : visible c.frame dst x y = true) :
    Clipped c.frame dst x y := by
  simp only [visible, Bool.and_eq_true, Bool.not_eq_true', Bool.or_eq_false_iff,
    decide_eq_false_iff_not] at h
  constructor <;> omega

theorem kept_drawGlyph (hdst : S.findBitmap c.bitmapToken = some dst)
    (hok : ∀ a, InBitmap S a → ok a) (tr tg tb baseAlpha : UInt32) (glyph : ℕ) (gx gy : ℤ)
    (m : Memory) :
    Kept ok (InClip S c) m (drawGlyph font c.frame dst tr tg tb baseAlpha glyph gx gy m) := by
  refine Kept.loop (fun r m _ _ => Kept.loop (fun col m _ _ => ?_) m) m
  refine Kept.ite (fun _ => Kept.refl m) fun hhidden => Kept.ite (fun _ => Kept.refl m) fun _ => ?_
  rw [Bool.not_eq_true', Bool.not_eq_false] at hhidden
  have hclipped := visible_clipped hhidden
  have hin := hok _ (hclipped.inBitmap hdst)
  exact (Kept.read hin).trans (Kept.write hin (hclipped.inClip hdst))

theorem kept_drawChars (hdst : S.findBitmap c.bitmapToken = some dst)
    (hok : ∀ a, InBitmap S a → ok a) (tr tg tb baseAlpha : UInt32) (y : φ) (text : Bytes)
    (curX : φ) (m : Memory) :
    Kept ok (InClip S c) m (drawChars F font c dst tr tg tb baseAlpha y text curX m) := by
  induction text generalizing curX m with
  | nil => exact Kept.refl m
  | cons ch text ih =>
    exact Kept.ite (fun _ => ih curX m) fun _ =>
      (kept_drawGlyph hdst hok _ _ _ _ _ _ _ m).trans (ih _ _)

theorem kept_drawText (hdst : S.findBitmap c.bitmapToken = some dst)
    (hok : ∀ a, InBitmap S a → ok a) (text : Bytes) (x y : φ) (paint : UInt64) (m : Memory) :
    Kept ok (InClip S c) m (drawText F font S c dst text x y paint m) :=
  Kept.ite (fun _ => kept_drawChars hdst hok _ _ _ _ _ _ _ m) fun _ =>
    kept_drawChars hdst hok _ _ _ _ _ _ _ m

/-- The pixels that are counted. -/
theorem kept_countNonZero {src : Bitmap} {area : UInt64 → ℤ → Prop}
    (hcount : ∀ x y, 0 ≤ x → x < min src.width 100 → 0 ≤ y → y < min src.height 100 →
      ok (src.token, int (int (y * src.width) + x))) (m : Memory) :
    Kept ok area m (countNonZero src m) :=
  Kept.loop (fun y m hy hy' => Kept.loop (fun x _ hx hx' =>
    Kept.read (hcount x y hx hx' hy hy')) m) m

theorem kept_blitPixel (hdst : S.findBitmap c.bitmapToken = some dst)
    (hok : ∀ a, InBitmap S a → ok a) {blit : Blit} {token : UInt64}
    (hsrc : S.findBitmap token = some blit.src) {x sy px py : ℤ} (hsy : 0 ≤ sy)
    (hsy' : sy < blit.src.height) (hclipped : Clipped c.frame dst px py) (m : Memory) :
    Kept ok (InClip S c) m (blitPixel F S dst blit x sy px py m) := by
  have hin := hok _ (hclipped.inBitmap hdst)
  have hclip := hclipped.inClip hdst
  refine Kept.ite (fun _ => Kept.refl m) fun _ => Kept.ite (fun _ => Kept.refl m) fun hsx => ?_
  rw [not_or, not_lt, ge_iff_le, not_le] at hsx
  -- the source's pixel is read before anything else is decided
  refine (Kept.read (hok _ (inBitmap_index hsrc hsx.1 hsx.2 hsy hsy'))).trans ?_
  refine Kept.ite (fun _ => Kept.refl _) fun _ => ?_
  dsimp only
  split
  · exact Kept.refl _
  · exact Kept.ite (fun _ => Kept.write hin hclip) fun _ =>
      (Kept.read hin).trans (Kept.write hin hclip)

/-- A blit that has something to do counts its source first, and keeps to
the clip from there. -/
theorem kept_after_count (hdst : S.findBitmap c.bitmapToken = some dst)
    (hok : ∀ a, InBitmap S a → ok a) {blit : Blit} {token : UInt64}
    (hsrc : S.findBitmap token = some blit.src) (hnonempty : blit.Nonempty) (m : Memory) :
    Kept ok (InClip S c) (countNonZero blit.src m) (blitBitmap F S dst c.frame blit m) := by
  obtain ⟨hdstW, hdstH, hsrcW, hsrcH⟩ := hnonempty
  rw [blitBitmap, if_neg (by omega)]
  refine Kept.loop (fun y m _ _ => Kept.ite (fun _ => Kept.refl m) fun hrow =>
    Kept.ite (fun _ => Kept.refl m) fun hsy => Kept.loop (fun x m _ _ =>
      Kept.ite (fun _ => Kept.refl m) fun hcolumn => ?_) m) _
  have hclipped : Clipped c.frame dst (int (blit.dstX + x)) (int (blit.dstY + y)) := by
    constructor <;> omega
  exact kept_blitPixel hdst hok hsrc (by omega) (by omega) hclipped m

theorem kept_blitBitmap (hdst : S.findBitmap c.bitmapToken = some dst)
    (hok : ∀ a, InBitmap S a → ok a) {blit : Blit} {token : UInt64}
    (hsrc : S.findBitmap token = some blit.src)
    (hcount : blit.Nonempty → ∀ x y, 0 ≤ x → x < min blit.src.width 100 → 0 ≤ y →
      y < min blit.src.height 100 → ok (blit.src.token, int (int (y * blit.src.width) + x)))
    (m : Memory) : Kept ok (InClip S c) m (blitBitmap F S dst c.frame blit m) := by
  by_cases hnonempty : blit.Nonempty
  · exact (kept_countNonZero (hcount hnonempty) m).trans
      (kept_after_count hdst hok hsrc hnonempty m)
  · rw [Blit.Nonempty] at hnonempty
    rw [blitBitmap, if_pos (by omega)]
    exact Kept.refl m

end

/-! ## Counting -/

section

variable {S : Scene φ} {src : Bitmap} {token : UInt64}

theorem int_of_lt {n : ℤ} (hlo : 0 ≤ n) (hhi : n < 2 ^ 31) : int n = n :=
  Int.bmod_eq_of_le (by omega) (by omega)

theorem int_of_wrapped {n : ℤ} (hlo : 2 ^ 31 ≤ n) (hhi : n < 2 ^ 32) : int n < 0 := by
  have hmod : n % (2 ^ 32 : ℕ) = n := Int.emod_eq_of_lt (by omega) (by omega)
  rw [int, Int.bmod_def, hmod, if_neg (by omega)]
  omega

theorem int_add (a b : ℤ) : int (int a + b) = int (a + b) :=
  Int.bmod_add_bmod

/-- **A source that can be counted** is read at its own pixels. -/
theorem count_inBitmap (hsrc : S.findBitmap token = some src) (hcount : Countable src) {x y : ℤ}
    (hx : 0 ≤ x) (hx' : x < min src.width 100) (hy : 0 ≤ y) (hy' : y < min src.height 100) :
    InBitmap S (src.token, int (int (y * src.width) + x)) := by
  have hwidth := S.width_pos hsrc
  have hrow : y * src.width ≤ (min src.height 100 - 1) * src.width :=
    Int.mul_le_mul_of_nonneg_right (by omega) (by omega)
  have hnonneg : 0 ≤ y * src.width := Int.mul_nonneg hy (by omega)
  rw [Countable] at hcount
  rw [int_add, int_of_lt (by omega) (by omega)]
  exact inBitmap_index hsrc hx (by omega) hy (by omega)

/-- **One that cannot** is read in front of its pixels: in the first row in
which the index wraps around. -/
theorem exists_negative_access (hsrc : S.findBitmap token = some src)
    (hcount : ¬Countable src) (m : Memory) :
    ∃ a ∈ (countNonZero src m).accesses, a.2 < 0 := by
  have hwidth := S.width_pos hsrc
  have hwidth' := S.width_lt hsrc
  have hheight := S.height_pos hsrc
  rw [Countable, not_lt] at hcount
  -- the rows up to the quotient end below 2^31, and the next one does not
  obtain ⟨last, hlast⟩ : ∃ last, min src.width 100 - 1 = last := ⟨_, rfl⟩
  rw [hlast] at hcount
  let q := (2 ^ 31 - last - 1) / src.width
  have hq : q * src.width ≤ 2 ^ 31 - last - 1 := Int.ediv_mul_le _ (by omega)
  have hq' : 2 ^ 31 - last - 1 < (q + 1) * src.width := Int.lt_ediv_add_one_mul_self _ hwidth
  have hq0 : 0 ≤ q := Int.ediv_nonneg (by omega) (by omega)
  have hrow : q + 1 < min src.height 100 := by
    by_contra hmore
    have hle : (min src.height 100 - 1) * src.width ≤ q * src.width :=
      Int.mul_le_mul_of_nonneg_right (by omega) (by omega)
    omega
  rw [add_mul, one_mul] at hq'
  refine ⟨(src.token, int (int ((q + 1) * src.width) + last)), ?_, ?_⟩
  · -- what was read once stays among the accesses
    have hkeep : ∀ (x y : ℤ) (m : Memory),
        (src.token, int (int ((q + 1) * src.width) + last)) ∈ m.accesses →
        (src.token, int (int ((q + 1) * src.width) + last)) ∈
          (m.read src (int (int (y * src.width) + x))).accesses :=
      fun x y m h => List.mem_cons_of_mem _ h
    refine loop_achieves (i := q + 1) (fun y m h => loop_keeps (fun x m => hkeep x y m) h)
      (by omega) hrow fun m => ?_
    exact loop_achieves (i := last) (fun x m => hkeep x (q + 1) m) (by omega) (by omega)
      fun m => List.mem_cons_self
  · rw [int_add]
    refine int_of_wrapped ?_ ?_
    · rw [add_mul, one_mul]
      omega
    · rw [add_mul, one_mul]
      omega

end

/-! ## Circles -/

section

variable {F : Floats φ} {S : Scene φ} {c : CanvasState φ} {dst : Bitmap} {cx cy radius : φ}
variable {color : UInt32} {m : Memory} {x y : ℤ}

/-- A circle writes the pixels it covers. -/
theorem kept_fillCircle {ok : UInt64 × ℤ → Prop} (hdst : S.findBitmap c.bitmapToken = some dst)
    (hok : ∀ a, InBitmap S a → ok a) (m : Memory) :
    Kept ok (fun token i => token = dst.token ∧
        ∃ x y, Covers F dst cx cy radius x y ∧ i = y * dst.width + x) m
      (fillCircle F dst cx cy radius color m) := by
  refine Kept.ite (fun _ => Kept.refl m) fun hradius =>
    Kept.loop (fun y m hy hy' => Kept.loop (fun x m hx hx' =>
      Kept.ite (fun hin => ?_) fun _ => Kept.refl m) m) m
  rw [Bool.not_eq_true] at hradius
  obtain ⟨hx0, hlx⟩ := of_cut_le hx
  obtain ⟨hxw, hxr⟩ := of_lt_cut hx'
  obtain ⟨hy0, hty⟩ := of_cut_le hy
  obtain ⟨hyh, hyb⟩ := of_lt_cut hy'
  have hcovers : Covers F dst cx cy radius x y :=
    ⟨hradius, hx0, hxw, hy0, hyh, hlx, hxr, hty, hyb, hin⟩
  exact Kept.write (hok _ (inBitmap_index hdst hx0 hxw hy0 hyh)) ⟨rfl, x, y, hcovers, rfl⟩

/-- With nothing but its color. -/
theorem color_fillCircle (token : UInt64) (i : ℤ) :
    (fillCircle F dst cx cy radius color m).pixel token i = m.pixel token i ∨
      (fillCircle F dst cx cy radius color m).pixel token i = color := by
  have hrel : ∀ start stop body, (∀ (k : ℤ) (m : Memory),
      (body k m).pixel token i = m.pixel token i ∨ (body k m).pixel token i = color) →
      ∀ m : Memory, (loop start stop body m).pixel token i = m.pixel token i ∨
        (loop start stop body m).pixel token i = color := by
    intro start stop body hbody m
    refine loop_rel (R := fun m m' => m'.pixel token i = m.pixel token i ∨
      m'.pixel token i = color) (fun _ => Or.inl rfl) ?_ fun k m _ _ => hbody k m
    rintro a b d (hab | hab) (hbd | hbd)
    · exact Or.inl (hbd.trans hab)
    · exact Or.inr hbd
    · exact Or.inr (hbd.trans hab)
    · exact Or.inr hbd
  unfold fillCircle
  dsimp only
  split
  · exact Or.inl rfl
  · refine hrel _ _ _ (fun y m => hrel _ _ _ (fun x m => ?_) m) m
    split
    · by_cases hat : token = dst.token ∧ i = y * dst.width + x
      · exact Or.inr (if_pos hat)
      · exact Or.inl (if_neg hat)
    · exact Or.inl rfl

/-- **What a circle covers has its color.** -/
theorem pixel_of_covers (h : Covers F dst cx cy radius x y) :
    (fillCircle F dst cx cy radius color m).pixel dst.token (y * dst.width + x) = color := by
  obtain ⟨hradius, hx0, hxw, hy0, hyh, hlx, hxr, hty, hyb, hin⟩ := h
  have hkeep : ∀ (x' y' : ℤ) (m : Memory),
      m.pixel dst.token (y * dst.width + x) = color →
      (if inCircle F cx cy radius x' y' then m.write dst (y' * dst.width + x') color else m).pixel
        dst.token (y * dst.width + x) = color := by
    intro x' y' m hm
    split
    · show (if _ then color else m.pixel dst.token (y * dst.width + x)) = color
      split
      · rfl
      · exact hm
    · exact hm
  unfold fillCircle
  dsimp only
  rw [hradius, if_neg Bool.false_ne_true]
  refine loop_achieves (i := y) (fun y' m hm => loop_keeps (fun x' m => hkeep x' y' m) hm)
    (by split <;> omega) (by split <;> omega) fun m => ?_
  refine loop_achieves (i := x) (fun x' m => hkeep x' y m) (by split <;> omega)
    (by split <;> omega) fun m => ?_
  rw [hin, if_pos rfl]
  exact if_pos ⟨rfl, rfl⟩

/-- **A circle is contained** exactly where it fits. -/
theorem fillCircle_contained_iff (hdst : S.findBitmap c.bitmapToken = some dst)
    (pixel : UInt64 → ℤ → UInt32) :
    Contained S c ⟨pixel, []⟩ (fillCircle F dst cx cy radius color ⟨pixel, []⟩) ↔
      Fits F c dst pixel (.fillCircle cx cy radius color) := by
  have hkept := @kept_fillCircle _ F S c dst cx cy radius color (InBitmap S) hdst (fun _ h => h)
    ⟨pixel, []⟩
  constructor
  · intro hcontained x y hcovers
    by_cases hsame : pixel dst.token (y * dst.width + x) = color
    · exact Or.inr hsame
    · have hchange : (fillCircle F dst cx cy radius color ⟨pixel, []⟩).pixel dst.token
          (y * dst.width + x) ≠ pixel dst.token (y * dst.width + x) := by
        rw [pixel_of_covers hcovers]
        exact fun h => hsame h.symm
      obtain ⟨b, x', y', hb, -, hclipped, hindex⟩ := hcontained.changes _ _ hchange
      -- the index is of one pixel only, so that pixel is in the clip
      obtain rfl := Option.some.inj (hdst.symm.trans hb)
      obtain ⟨-, hx0, hxw, -⟩ := hcovers
      obtain ⟨rfl, rfl⟩ := index_inj hx0 hxw hclipped.x_nonneg hclipped.x_lt hindex
      exact Or.inl hclipped
  · intro hfits
    refine ⟨fun token i hchange => ?_, fun a ha => ?_⟩
    · obtain ⟨rfl, x, y, hcovers, rfl⟩ := hkept.changes token i hchange
      rcases hfits x y hcovers with hclipped | hsame
      · exact hclipped.inClip hdst
      · -- a pixel that has the color keeps it
        exfalso
        rcases @color_fillCircle _ F dst cx cy radius color ⟨pixel, []⟩ dst.token
          (y * dst.width + x) with hkeeps | hcolor
        · exact hchange hkeeps
        · exact hchange (hcolor.trans hsame.symm)
    · obtain ⟨new, hnew, hin⟩ := hkept.accesses
      rw [hnew, List.append_nil] at ha
      exact hin a ha

end

/-! ## What the methods call -/

/-- A call that is no circle, of a rectangle in the clip or with a source
that was found. -/
def Plain (S : Scene φ) (c : CanvasState φ) : Primitive φ → Prop
  | .fillRect left top right bottom _ => c.frame.clipLeft ≤ left ∧ c.frame.clipTop ≤ top ∧
      right ≤ c.frame.clipRight ∧ bottom ≤ c.frame.clipBottom
  | .fillCircle .. => False
  | .drawText .. => True
  | .blitBitmap blit => S.findBitmap blit.src.token = some blit.src

section

variable {F : Floats φ} {font : Font} {S : Scene φ} {c : CanvasState φ} {dst : Bitmap}
variable {call : Primitive φ} {paint : UInt64}

/-- A bitmap is found by its token. -/
theorem findBitmap_self {token : UInt64} {b : Bitmap} (h : S.findBitmap token = some b) :
    S.findBitmap b.token = some b := by
  rw [S.bitmap_token h]
  exact h

theorem shaderBitmap_found {src : Bitmap} (h : shaderBitmap S paint = some src) :
    S.findBitmap src.token = some src := by
  obtain ⟨p, -, hp⟩ := Option.bind_eq_some_iff.mp h
  split at hp
  · obtain ⟨s, -, hs⟩ := Option.bind_eq_some_iff.mp hp
    exact findBitmap_self hs
  · exact absurd hp (Option.some_ne_none src).symm

theorem plain_color (color : UInt32) (h : call ∈ nDrawColor c color) : Plain S c call := by
  obtain rfl := List.mem_singleton.mp h
  exact ⟨le_refl _, le_refl _, le_refl _, le_refl _⟩

theorem plain_paint (h : call ∈ nDrawPaint S c paint) : Plain S c call := by
  unfold nDrawPaint at h
  dsimp only at h
  split at h
  · next src hsrc =>
    obtain rfl := List.mem_singleton.mp h
    exact shaderBitmap_found hsrc
  · obtain rfl := List.mem_singleton.mp h
    exact ⟨le_refl _, le_refl _, le_refl _, le_refl _⟩

/-- A corner is cut to the clip. -/
theorem le_cut (a n : ℤ) : n ≤ if a < n then n else a := by
  split <;> omega

theorem cut_le (a n : ℤ) : (if a > n then n else a) ≤ n := by
  split <;> omega

theorem plain_rect {left top right bottom : φ}
    (h : call ∈ nDrawRect F S c left top right bottom paint) : Plain S c call := by
  obtain ⟨-, h⟩ := List.mem_ite_nil_right.mp h
  split at h
  · next src hsrc =>
    obtain rfl := List.mem_singleton.mp h
    exact shaderBitmap_found hsrc
  · obtain rfl := List.mem_singleton.mp h
    exact ⟨le_cut _ _, le_cut _ _, cut_le _ _, cut_le _ _⟩

theorem plain_points {points : Option (ℤ → φ)} {offset count : ℤ}
    (h : call ∈ nDrawPoints F S c points offset count paint) : Plain S c call := by
  cases points with
  | none => exact absurd h List.not_mem_nil
  | some data =>
    obtain ⟨k, -, hk⟩ := List.mem_flatMap.mp h
    exact plain_rect hk

theorem plain_lines {lines : Option (ℤ → φ)} {offset count : ℤ}
    (h : call ∈ nDrawLines F S c lines offset count paint) : Plain S c call := by
  cases lines with
  | none => exact absurd h List.not_mem_nil
  | some data =>
    obtain ⟨k, -, hk⟩ := List.mem_flatMap.mp h
    exact plain_rect hk

theorem plain_path (h : call ∈ nDrawPath F S c dst paint) : Plain S c call := by
  unfold nDrawPath at h
  split at h
  · next src hsrc =>
    obtain rfl := List.mem_singleton.mp h
    exact shaderBitmap_found hsrc
  · exact absurd h List.not_mem_nil

/-- A text is one call, or none. -/
theorem plain_text {p : Prop} [Decidable p] {text : Bytes} {x y : φ}
    (h : call ∈ if p then [] else [Primitive.drawText text x y paint]) : Plain S c call := by
  split at h
  · exact absurd h List.not_mem_nil
  · obtain rfl := List.mem_singleton.mp h
    exact trivial

theorem plain_textChars {text : Option (List UInt16)} {index count : ℤ} {x y : φ}
    (h : call ∈ nDrawTextChars text index count x y paint) : Plain S c call := by
  cases text with
  | none => exact absurd h List.not_mem_nil
  | some chars => exact plain_text h

theorem plain_glyphs {glyphIds : Option (List ℤ)} {positions : Option (List φ)}
    {glyphOffset positionOffset glyphCount : ℤ}
    (h : call ∈ nDrawGlyphs F glyphIds positions glyphOffset positionOffset glyphCount paint) :
    Plain S c call := by
  unfold nDrawGlyphs at h
  split at h
  · exact plain_text h
  · exact absurd h List.not_mem_nil

/-- One blit of a bitmap, if there is one. -/
theorem plain_found {bitmap : UInt64} {blit : Bitmap → Blit}
    (hblit : ∀ src, (blit src).src = src)
    (h : call ∈ match S.findBitmap bitmap with
      | none => []
      | some src => [Primitive.blitBitmap (blit src)]) : Plain S c call := by
  split at h
  · exact absurd h List.not_mem_nil
  · next src hsrc =>
    obtain rfl := List.mem_singleton.mp h
    show S.findBitmap (blit src).src.token = some (blit src).src
    rw [hblit]
    exact findBitmap_self hsrc

/-- **A circle is alone**; every other call is plain. -/
theorem circle_or_plain (F : Floats φ) (S : Scene φ) (c : CanvasState φ) (dst : Bitmap)
    (d : Draw φ) :
    (∃ cx cy radius color, callsOf F S c dst d = [.fillCircle cx cy radius color]) ∨
      ∀ call ∈ callsOf F S c dst d, Plain S c call := by
  cases d with
  | color color => exact Or.inr fun _ => plain_color _
  | colorLong color => exact Or.inr fun _ => plain_color _
  | paint paint => exact Or.inr fun _ => plain_paint
  | rect => exact Or.inr fun _ => plain_rect
  | roundRect => exact Or.inr fun _ => plain_rect
  | oval => exact Or.inr fun _ => plain_rect
  | arc => exact Or.inr fun _ => plain_rect
  | line => exact Or.inr fun _ => plain_rect
  | lines => exact Or.inr fun _ => plain_lines
  | point => exact Or.inr fun _ => plain_rect
  | points => exact Or.inr fun _ => plain_points
  | circle => exact Or.inl ⟨_, _, _, _, rfl⟩
  | path => exact Or.inr fun _ => plain_path
  | textString => exact Or.inr fun _ => plain_text
  | textRunString => exact Or.inr fun _ => plain_text
  | textChars => exact Or.inr fun _ => plain_textChars
  | textRunChars => exact Or.inr fun _ => plain_textChars
  | glyphs => exact Or.inr fun _ => plain_glyphs
  | bitmap => exact Or.inr fun _ => plain_found fun _ => rfl
  | bitmapMatrix => exact Or.inr fun _ => plain_found fun _ => rfl
  | bitmapRect => exact Or.inr fun _ => plain_found fun _ => rfl
  | ninePatch => exact Or.inr fun _ => plain_found fun _ => rfl

end

/-! ## A method -/

section

variable {F : Floats φ} {font : Font} {S : Scene φ} {c : CanvasState φ} {dst : Bitmap}
variable {ok : UInt64 × ℤ → Prop} {call : Primitive φ} {pixel : UInt64 → ℤ → UInt32}

/-- **A plain call keeps to the clip**, and to the bitmaps if it fits. -/
theorem kept_perform (hdst : S.findBitmap c.bitmapToken = some dst) (hplain : Plain S c call)
    (hok : ∀ a, InBitmap S a → ok a) (hfits : Fits F c dst pixel call ∨ ∀ a, ok a) (m : Memory) :
    Kept ok (InClip S c) m (perform F S c dst font m call) := by
  cases call with
  | fillRect left top right bottom color =>
    obtain ⟨hleft, htop, hright, hbottom⟩ := hplain
    exact kept_fillRect hdst color hleft htop hright hbottom hok m
  | fillCircle cx cy radius color => exact absurd hplain id
  | drawText text x y paint => exact kept_drawText hdst hok text x y paint m
  | blitBitmap blit =>
    refine kept_blitBitmap hdst hok hplain (fun hnonempty x y hx hx' hy hy' => ?_) m
    rcases hfits with hfits | hall
    · exact hok _ (count_inBitmap hplain (hfits hnonempty) hx hx' hy hy')
    · exact hall _

/-- Plain calls that all fit. -/
theorem contained_of_fits {calls : List (Primitive φ)}
    (hdst : S.findBitmap c.bitmapToken = some dst) (hplain : ∀ call ∈ calls, Plain S c call)
    (hfits : ∀ call ∈ calls, Fits F c dst pixel call) :
    Contained S c ⟨pixel, []⟩ (calls.foldl (perform F S c dst font) ⟨pixel, []⟩) := by
  have hkept := @Kept.foldl (InBitmap S) (InClip S c) _ (perform F S c dst font) calls
    (fun call hcall m => kept_perform hdst (hplain call hcall) (fun _ h => h)
      (Or.inl (hfits call hcall)) m) ⟨pixel, []⟩
  refine ⟨hkept.changes, fun a ha => ?_⟩
  obtain ⟨new, hnew, hin⟩ := hkept.accesses
  rw [hnew, List.append_nil] at ha
  exact hin a ha

/-- A plain call that does not fit reads in front of a bitmap. -/
theorem exists_negative_of_not_fits (hdst : S.findBitmap c.bitmapToken = some dst)
    (hplain : Plain S c call) (hfits : ¬Fits F c dst pixel call) (m : Memory) :
    ∃ a ∈ (perform F S c dst font m call).accesses, a.2 < 0 := by
  cases call with
  | fillRect left top right bottom color => exact absurd trivial hfits
  | fillCircle cx cy radius color => exact absurd hplain id
  | drawText text x y paint => exact absurd trivial hfits
  | blitBitmap blit =>
    obtain ⟨hnonempty, hcount⟩ := Classical.not_imp.mp hfits
    obtain ⟨a, ha, hneg⟩ := exists_negative_access hplain hcount m
    have hkept : Kept (fun _ => True) (InClip S c) (countNonZero blit.src m)
        (blitBitmap F S dst c.frame blit m) :=
      kept_after_count hdst (fun _ _ => trivial) hplain hnonempty m
    exact ⟨a, hkept.mem ha, hneg⟩

/-- Plain calls that are contained all fit: what was read stays read. -/
theorem fits_of_contained {calls : List (Primitive φ)}
    (hdst : S.findBitmap c.bitmapToken = some dst) (hplain : ∀ call ∈ calls, Plain S c call)
    (hcontained : Contained S c ⟨pixel, []⟩ (calls.foldl (perform F S c dst font) ⟨pixel, []⟩)) :
    ∀ call ∈ calls, Fits F c dst pixel call := by
  intro call hcall
  by_contra hfits
  obtain ⟨before, after, rfl⟩ := List.append_of_mem hcall
  rw [List.foldl_append, List.foldl_cons] at hcontained
  -- the memory just after the call that does not fit
  obtain ⟨m, hm⟩ : ∃ m, m = perform F S c dst font
      (before.foldl (perform F S c dst font) ⟨pixel, []⟩) call := ⟨_, rfl⟩
  obtain ⟨a, ha, hneg⟩ : ∃ a ∈ m.accesses, a.2 < 0 := by
    rw [hm]
    exact exists_negative_of_not_fits hdst (hplain call hcall) hfits _
  rw [← hm] at hcontained
  have hlater : ∀ later ∈ after, ∀ m,
      Kept (fun _ => True) (InClip S c) m (perform F S c dst font m later) := by
    intro later hlater m
    have hmem := List.mem_append_right before (List.mem_cons_of_mem call hlater)
    have hany : Fits F c dst pixel later ∨ ∀ _ : UInt64 × ℤ, True := Or.inr fun _ => trivial
    exact kept_perform hdst (hplain later hmem) (fun _ _ => trivial) hany m
  have hkept := Kept.foldl hlater m
  obtain ⟨b, -, hnonneg, -⟩ := hcontained.accesses a (hkept.mem ha)
  exact absurd hneg (Int.not_lt.mpr hnonneg)

end

/-- **Drawing respects the clip** exactly where every call fits: the circle
covers only clipped pixels, or such that have its color already, and the
sources of blits can be counted. -/
theorem draw_contained_iff (F : Floats φ) (S : Scene φ) (c : CanvasState φ) (font : Font)
    (d : Draw φ) (pixel : UInt64 → ℤ → UInt32) :
    Contained S c ⟨pixel, []⟩ (draw F S c font d ⟨pixel, []⟩) ↔
      ∀ dst, S.findBitmap c.bitmapToken = some dst →
        ∀ call ∈ callsOf F S c dst d, Fits F c dst pixel call := by
  unfold draw
  cases hdst : S.findBitmap c.bitmapToken with
  | none =>
    -- a canvas without a bitmap draws nothing
    have hnothing : Contained S c ⟨pixel, []⟩ ⟨pixel, []⟩ :=
      ⟨fun _ _ hchange => absurd rfl hchange, fun _ ha => absurd ha List.not_mem_nil⟩
    exact iff_of_true hnothing fun dst h => absurd h.symm (Option.some_ne_none dst)
  | some dst =>
    have hcalls : Contained S c ⟨pixel, []⟩
        ((callsOf F S c dst d).foldl (perform F S c dst font) ⟨pixel, []⟩) ↔
        ∀ call ∈ callsOf F S c dst d, Fits F c dst pixel call := by
      rcases circle_or_plain F S c dst d with
        ⟨cx, cy, radius, color, hcircle⟩ | hplain
      · rw [hcircle, List.forall_mem_singleton]
        exact fillCircle_contained_iff hdst pixel
      · exact ⟨fits_of_contained hdst hplain, contained_of_fits hdst hplain⟩
    refine hcalls.trans ⟨fun h dst' hdst' => ?_, fun h => h dst rfl⟩
    obtain rfl := Option.some.inj hdst'
    exact h

/-! ## A circle over an empty clip -/

/-- Numbers in halves, rounded down to them. -/
def halves : Floats ℤ where
  ofInt n := 2 * n
  zero := 0
  half := 1
  one := 2
  baseline := 22
  squircleSide := 0
  squircleCorner := 0
  add a b := a + b
  sub a b := a - b
  mul a b := a * b / 2
  abs a := |a|
  sqrt a := a
  lt a b := a < b
  le a b := a ≤ b
  floorToInt a := a / 2
  ceilToInt a := -(-a / 2)
  truncToInt a := a.tdiv 2
  toByte a := UInt8.ofNat (a / 2).toNat

/-- A bitmap of one pixel. -/
def onePixel : Bitmap := ⟨1, 1, 1⟩

theorem eq_onePixel {token : UInt64} {b : Bitmap}
    (h : (if token = 1 then some onePixel else none) = some b) : token = 1 ∧ b = onePixel := by
  split at h
  · next htoken => exact ⟨htoken, (Option.some.inj h).symm⟩
  · exact absurd h.symm (Option.some_ne_none b)

theorem onePixel_token {token : UInt64} {b : Bitmap}
    (h : (if token = 1 then some onePixel else none) = some b) : b.token = token := by
  obtain ⟨rfl, rfl⟩ := eq_onePixel h
  rfl

theorem onePixel_size {token : UInt64} {b : Bitmap}
    (h : (if token = 1 then some onePixel else none) = some b) : b.width = 1 ∧ b.height = 1 := by
  obtain ⟨-, rfl⟩ := eq_onePixel h
  exact ⟨rfl, rfl⟩

theorem onePixel_pos {token : UInt64} {b : Bitmap}
    (h : (if token = 1 then some onePixel else none) = some b) : 0 < b.width ∧ 0 < b.height := by
  obtain ⟨hwidth, hheight⟩ := onePixel_size h
  omega

theorem onePixel_lt {token : UInt64} {b : Bitmap}
    (h : (if token = 1 then some onePixel else none) = some b) :
    b.width < 2 ^ 31 ∧ b.height < 2 ^ 31 := by
  obtain ⟨hwidth, hheight⟩ := onePixel_size h
  omega

/-- It is all there is. -/
def oneBitmap : Scene ℤ where
  findBitmap token := if token = 1 then some onePixel else none
  findPaint _ := none
  findFilter _ := none
  findShader _ := none
  bitmap_token := onePixel_token
  width_pos h := (onePixel_pos h).1
  width_lt h := (onePixel_lt h).1
  height_pos h := (onePixel_pos h).2
  height_lt h := (onePixel_lt h).2

theorem empty_depth : ([] : List (Frame ℤ)).length ≤ 512 := Nat.zero_le 512

/-- A canvas over it, with nothing in its clip. -/
def emptyClip : CanvasState ℤ where
  bitmapToken := 1
  frame := ⟨0, 0, 2, 2, 0, 0, 0, 0⟩
  stack := []
  depth := empty_depth

/-- Glyphs that show nothing. -/
def blankFont : Font := ⟨fun _ _ => 0, fun _ => 8⟩

/-- **A circle leaves the clip**: its pixel changes though none is in the
clip. -/
theorem circle_leaves_clip :
    ¬Contained oneBitmap emptyClip ⟨fun _ _ => 0, []⟩
      (draw halves oneBitmap emptyClip blankFont (.circle 1 1 2 0) ⟨fun _ _ => 0, []⟩) := by
  intro hcontained
  have hchange : (draw halves oneBitmap emptyClip blankFont (.circle 1 1 2 0)
      ⟨fun _ _ => 0, []⟩).pixel 1 0 ≠ 0 := by
    decide
  obtain ⟨b, x, y, -, -, hclipped, -⟩ := hcontained.changes 1 0 hchange
  have hleft : 0 ≤ x := hclipped.left
  have hright : x < 0 := hclipped.right
  omega

end Drawing

end Shim

end Muplar
