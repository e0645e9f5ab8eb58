import PulseLink.BaseBlocks

/-! Grayscale images (`imaging/image.c`) and the Sobel filter of `imaging/convolve.c` that the server runs
on a finished frame. -/

namespace PulseLink

/-- `image_t`: row-major, the pixel at `(x, y)` being `pix[y * w + x]`. The empty list is the null
pointer; an allocated image has at least one pixel. -/
structure Image where
  w : Int
  h : Int
  pix : List UInt8
  deriving DecidableEq, Repr

def IMAGE_MAX_PIXELS : Int := 2 ^ 22

/-- `image_alloc`: a zeroed image, or `none` for bad dimensions or when `calloc` fails. -/
def imageAlloc (callocOk : Bool) (w h : Int) : Option Image :=
  if w ≤ 0 ∨ h ≤ 0 then none
  else if w * h > IMAGE_MAX_PIXELS then none
  else if callocOk then some ⟨w, h, List.replicate (w * h).toNat 0⟩
  else none

/-- An image whose buffer has its size. -/
@[ext] structure Canvas where
  w : Nat
  h : Nat
  pix : List UInt8
  hw : 1 ≤ w
  hh : 1 ≤ h
  hpix : pix.length = w * h

namespace Canvas

variable (c : Canvas)

/-- The image as the C code holds it. -/
def image : Image := ⟨c.w, c.h, c.pix⟩

theorem size_pos : 0 < c.w * c.h := Nat.mul_pos c.hw c.hh

theorem pix_ne_nil : c.pix ≠ [] := by
  rw [← List.length_pos_iff, c.hpix]
  exact c.size_pos

end Canvas

/-- An image within the cap of `image_alloc`. -/
structure Picture extends Canvas where
  hcap : w * h ≤ 2 ^ 22

namespace Picture

variable (p : Picture)

theorem w_le : p.w ≤ 2 ^ 22 := (Nat.le_mul_of_pos_right p.w p.hh).trans p.hcap

theorem h_le : p.h ≤ 2 ^ 22 := (Nat.le_mul_of_pos_left p.h p.hw).trans p.hcap

theorem imageAlloc_eq : imageAlloc true p.w p.h = some ⟨p.w, p.h, List.replicate (p.w * p.h) 0⟩ := by
  have hw := p.hw
  have hh := p.hh
  have hcap : ((p.w : Int) * p.h) ≤ IMAGE_MAX_PIXELS := by
    have := p.hcap
    rw [IMAGE_MAX_PIXELS]
    exact_mod_cast this
  rw [imageAlloc, if_neg (by omega), if_neg (by omega), if_pos rfl, ← Int.natCast_mul,
    Int.toNat_natCast]

end Picture

/-- An image that fits the caps of the frame path. -/
structure Raster extends Picture where
  wide : w ≤ 65535
  high : h ≤ 65535

/-! ### Edge detection -/

def clampi (v lo hi : Int) : Int := if v < lo then lo else if v > hi then hi else v

/-- `at`: a sample with edge clamping. -/
def sampleAt (im : Image) (x y : Int) : Int :=
  let x := clampi x 0 (im.w - 1)
  let y := clampi y 0 (im.h - 1)
  (im.pix.getD (y * im.w + x).toNat 0).toNat

def SOBEL_X : List Int := [-1, 0, 1, -2, 0, 2, -1, 0, 1]
def SOBEL_Y : List Int := [-1, -2, -1, 0, 0, 0, 1, 2, 1]

/-- The nine taps around `(x, y)` in the order of the kernels. -/
def taps (im : Image) (x y : Int) : List Int :=
  [-1, 0, 1].flatMap fun dy => [-1, 0, 1].map fun dx => sampleAt im (x + dx) (y + dy)

/-- The weighted sum of the taps. -/
def tapSum (kernel : List Int) (im : Image) (x y : Int) : Int :=
  (List.zipWith (· * ·) kernel (taps im x y)).sum

/-- `lround(sqrt(n))`: the integer nearest to the square root. -/
def lroundSqrt (n : Nat) : Nat := if n ≤ n.sqrt * n.sqrt + n.sqrt then n.sqrt else n.sqrt + 1

/-- One output pixel of `sobel`. -/
def sobelAt (im : Image) (x y : Int) : UInt8 :=
  let gx := tapSum SOBEL_X im x y
  let gy := tapSum SOBEL_Y im x y
  let mag : Int := lroundSqrt (gx * gx + gy * gy).toNat
  UInt8.ofNat (clampi mag 0 255).toNat

/-- `sobel`: the filled output image, or `none` where the code returns -1. -/
def sobel (inp out : Image) : Option Image :=
  if inp.pix = [] ∨ out.pix = [] ∨ inp.w ≠ out.w ∨ inp.h ≠ out.h then none
  else some { out with
    pix := (List.range inp.h.toNat).flatMap fun (y : Nat) =>
      (List.range inp.w.toNat).map fun (x : Nat) => sobelAt inp x y }

theorem length_rows {α : Type} (f : Nat → Nat → α) (w h : Nat) :
    ((List.range h).flatMap fun y => (List.range w).map fun x => f x y).length = w * h := by
  induction h with
  | zero => rfl
  | succ h ih =>
      rw [List.range_succ, List.flatMap_append, List.length_append, ih, List.flatMap_singleton,
        List.length_map, List.length_range, Nat.mul_succ]

theorem rows_getElem? {α : Type} (f : Nat → Nat → α) {w h x y : Nat} (hx : x < w) (hy : y < h) :
    ((List.range h).flatMap fun y => (List.range w).map fun x => f x y)[y * w + x]? = some (f x y) := by
  induction h with
  | zero => cases hy
  | succ h ih =>
      rw [List.range_succ, List.flatMap_append, List.flatMap_singleton]
      rcases Nat.lt_succ_iff_lt_or_eq.mp hy with hlt | rfl
      · have hin : y * w + x < w * h := by
          calc y * w + x
            _ < (y + 1) * w := by rw [Nat.succ_mul]; omega
            _ ≤ h * w := Nat.mul_le_mul_right w hlt
            _ = w * h := Nat.mul_comm h w
        rw [List.getElem?_append_left (by rw [length_rows]; exact hin)]
        exact ih hlt
      · rw [List.getElem?_append_right (by rw [length_rows, Nat.mul_comm]; omega), length_rows, Nat.mul_comm w,
          Nat.add_sub_cancel_left, List.getElem?_map, List.getElem?_range hx]
        rfl

/-- Every index of a buffer is that of a pixel. -/
theorem exists_place {w h i : Nat} (hi : i < w * h) : ∃ x y, x < w ∧ y < h ∧ y * w + x = i := by
  have hw : 0 < w := by
    apply Nat.pos_of_ne_zero
    rintro rfl
    rw [Nat.zero_mul] at hi
    cases hi
  exact ⟨i % w, i / w, Nat.mod_lt i hw, Nat.div_lt_of_lt_mul hi, Nat.div_add_mod' i w⟩

/-! ### Images of any size -/

namespace Canvas

variable (c : Canvas)

/-- The pixel at `(x, y)`. -/
def pixel (x y : Nat) : UInt8 := c.pix.getD (y * c.w + x) 0

/-- The image with the pixels `f x y`. -/
def ofFn (f : Nat → Nat → UInt8) {w h : Nat} (hw : 1 ≤ w) (hh : 1 ≤ h) : Canvas where
  w := w
  h := h
  pix := (List.range h).flatMap fun y => (List.range w).map fun x => f x y
  hw := hw
  hh := hh
  hpix := length_rows f w h

theorem pixel_ofFn (f : Nat → Nat → UInt8) {w h x y : Nat} (hw : 1 ≤ w) (hh : 1 ≤ h) (hx : x < w) (hy : y < h) :
    (ofFn f hw hh).pixel x y = f x y := by
  rw [pixel, List.getD_eq_getElem?_getD]
  show (((List.range h).flatMap fun y => (List.range w).map fun x => f x y)[y * w + x]?).getD 0 = f x y
  rw [rows_getElem? f hx hy, Option.getD_some]

variable {c}

theorem ext_pixel {d : Canvas} (hw : c.w = d.w) (hh : c.h = d.h)
    (hpixel : ∀ x y, x < c.w → y < c.h → c.pixel x y = d.pixel x y) : c = d := by
  refine Canvas.ext hw hh (List.ext_getElem? fun i => ?_)
  by_cases hi : i < c.w * c.h
  · obtain ⟨x, y, hx, hy, rfl⟩ := exists_place hi
    have heq := hpixel x y hx hy
    have hi' : y * c.w + x < d.w * d.h := by rwa [← hw, ← hh]
    rw [pixel, pixel, ← hw, List.getD_eq_getElem?_getD, List.getD_eq_getElem?_getD,
      List.getElem?_eq_getElem (by rwa [c.hpix]), List.getElem?_eq_getElem (by rwa [d.hpix])] at heq
    rw [List.getElem?_eq_getElem (by rwa [c.hpix]), List.getElem?_eq_getElem (by rwa [d.hpix])]
    exact congrArg some heq
  · have hi' : ¬ i < d.w * d.h := by rwa [← hw, ← hh]
    rw [List.getElem?_eq_none (by rw [c.hpix]; omega), List.getElem?_eq_none (by rw [d.hpix]; omega)]

variable (c)

/-- The edges of an image. -/
def edges : Canvas := ofFn (fun x y => sobelAt c.image x y) c.hw c.hh

theorem pixel_edges {x y : Nat} (hx : x < c.w) (hy : y < c.h) : c.edges.pixel x y = sobelAt c.image x y :=
  pixel_ofFn _ c.hw c.hh hx hy

/-- `sobel` fills any buffer of the right size with the edges. -/
theorem sobel_image (out : Canvas) (hw : out.w = c.w) (hh : out.h = c.h) :
    sobel c.image out.image = some c.edges.image := by
  have hargs : ¬ (c.image.pix = [] ∨ out.image.pix = [] ∨ c.image.w ≠ out.image.w ∨ c.image.h ≠ out.image.h) := by
    simp only [image, hw, hh, ne_eq, not_true, or_false, not_or]
    exact ⟨c.pix_ne_nil, out.pix_ne_nil⟩
  rw [sobel, if_neg hargs]
  simp only [image, hw, hh]
  rfl

end Canvas

/-- The edges of a capped image are a capped image of the same size. -/
theorem sobel_raster (r : Raster) {buf : List UInt8} (hbuf : buf.length = r.w * r.h) :
    ∃ e : Raster, e.w = r.w ∧ e.h = r.h ∧ sobel r.image ⟨r.w, r.h, buf⟩ = some e.image := by
  refine ⟨{ r with pix := r.edges.pix, hpix := r.edges.hpix }, rfl, rfl, ?_⟩
  exact r.sobel_image ⟨r.w, r.h, buf, r.hw, r.hh, hbuf⟩ rfl rfl

end PulseLink
