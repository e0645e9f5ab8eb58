import PulseLink.BaseStencil
import PulseLink.Image

/-! The 3x3 filter `conv3x3` of `imaging/convolve.c`: nested loops over the pixels and over the nine taps, in
`int` arithmetic that is undefined outside 32 bits. Input and output are distinct buffers, as the header asks.
A filter whose weights are averages stays between the samples it weighs. -/

namespace PulseLink

def K_IDENTITY : List Int := [0, 0, 0, 0, 1, 0, 0, 0, 0]
def K_BLUR : List Int := [1, 1, 1, 1, 1, 1, 1, 1, 1]

/-- Why a call of `conv3x3` gives no image: it returns -1, or a value does not fit an `int` and the behaviour is
undefined. -/
inductive ConvFault where
  | badArgs
  | intOverflow
  deriving DecidableEq, Repr

theorem ok_bind {α β : Type} (a : α) (f : α → Except ConvFault β) : (Except.ok a >>= f) = f a := rfl

/-- A value computed in `int`. -/
def fitInt (v : Int) : Except ConvFault Int :=
  if -2 ^ 31 ≤ v ∧ v < 2 ^ 31 then .ok v else .error .intOverflow

/-- The offsets `(dx, dy)` in the order of the loops over `dy` and `dx`. -/
def tapOffsets : List (Int × Int) := [-1, 0, 1].flatMap fun dy => [-1, 0, 1].map fun dx => (dx, dy)

/-- `acc += kernel[ki++] * at(in, x + dx, y + dy)` over the offsets that are left. -/
def accLoop (kernel : List Int) (im : Image) (x y : Int) : List (Int × Int) → Nat → Int → Except ConvFault Int
  | [], _, acc => .ok acc
  | o :: rest, ki, acc => do
      let term ← fitInt (kernel.getD ki 0 * sampleAt im (x + o.1) (y + o.2))
      let sum ← fitInt (acc + term)
      accLoop kernel im x y rest (ki + 1) sum

/-- One output pixel of `conv3x3`. C division truncates. -/
def convAt (im : Image) (kernel : List Int) (div bias x y : Int) : Except ConvFault UInt8 := do
  let acc ← accLoop kernel im x y tapOffsets 0 0
  let quot ← fitInt (acc.tdiv div)
  let acc ← fitInt (quot + bias)
  .ok (UInt8.ofNat (clampi acc 0 255).toNat)

/-- The pixels in the order of the loops over `y` and `x`. -/
def rowMajor (w h : Nat) : List (Nat × Nat) := (List.range h).flatMap fun y => (List.range w).map fun x => (x, y)

/-- `out->pix[y * w + x] = f(x, y)` over the pixels that are left. -/
def pixelLoop (f : Nat → Nat → Except ConvFault UInt8) (w : Nat) :
    List (Nat × Nat) → List UInt8 → Except ConvFault (List UInt8)
  | [], pix => .ok pix
  | p :: rest, pix => do
      let v ← f p.1 p.2
      pixelLoop f w rest (pix.set (p.2 * w + p.1) v)

/-- `conv3x3`: the filled output image where the code returns 0. -/
def conv3x3 (inp out : Image) (kernel : List Int) (div bias : Int) : Except ConvFault Image :=
  if inp.pix = [] ∨ out.pix = [] ∨ inp.w ≠ out.w ∨ inp.h ≠ out.h ∨ div = 0 then .error .badArgs
  else do
    let pix ← pixelLoop (fun x y => convAt inp kernel div bias x y) inp.w.toNat
      (rowMajor inp.w.toNat inp.h.toNat) out.pix
    .ok { out with pix := pix }

/-! ### Storing the pixels -/

theorem length_rowMajor (w h : Nat) : (rowMajor w h).length = w * h := length_rows (fun x y => (x, y)) w h

theorem rowMajor_getElem? {w h i : Nat} {p : Nat × Nat} (hp : (rowMajor w h)[i]? = some p) :
    p.1 < w ∧ p.2 < h ∧ p.2 * w + p.1 = i := by
  have hi : i < w * h := by
    rw [← length_rowMajor]
    exact (List.getElem?_eq_some_iff.mp hp).1
  obtain ⟨x, y, hx, hy, rfl⟩ := exists_place hi
  obtain rfl : p = (x, y) := Option.some_inj.mp (hp.symm.trans (rows_getElem? (fun x y => (x, y)) hx hy))
  exact ⟨hx, hy, rfl⟩

section PixelLoop

variable {f : Nat → Nat → Except ConvFault UInt8} {g : Nat → Nat → UInt8} {w : Nat}

/-- Places that follow each other are filled in order: what lies in front stays, what lies behind is replaced. -/
theorem pixelLoop_fill {places : List (Nat × Nat)} (hf : ∀ p ∈ places, f p.1 p.2 = .ok (g p.1 p.2))
    (front back : List UInt8) (hback : back.length = places.length)
    (hplace : ∀ i p, places[i]? = some p → p.2 * w + p.1 = front.length + i) :
    pixelLoop f w places (front ++ back) = .ok (front ++ places.map fun p => g p.1 p.2) := by
  induction places generalizing front back with
  | nil =>
      obtain rfl := List.length_eq_zero_iff.mp hback
      rfl
  | cons p rest ih =>
      obtain ⟨b, back, rfl⟩ := List.exists_cons_of_length_eq_add_one hback
      have hindex : p.2 * w + p.1 = front.length := hplace 0 p rfl
      have hset : (front ++ b :: back).set (p.2 * w + p.1) (g p.1 p.2) = (front ++ [g p.1 p.2]) ++ back := by
        rw [hindex, List.set_append_right _ _ le_rfl, Nat.sub_self, List.set_cons_zero, List.append_assoc]
        rfl
      have hnext := ih (fun q hq => hf q (List.mem_cons_of_mem _ hq)) (front ++ [g p.1 p.2]) back
        (by simpa using hback)
        (fun i q hq => by
          have := hplace (i + 1) q (by simpa using hq)
          rw [List.length_append, List.length_singleton]
          omega)
      rw [pixelLoop, hf p List.mem_cons_self, ok_bind, hset, hnext, List.append_assoc]
      rfl

/-- The loop over all pixels fills the buffer of an image. -/
theorem pixelLoop_rowMajor {h : Nat} (hf : ∀ x y, x < w → y < h → f x y = .ok (g x y)) {pix : List UInt8}
    (hpix : pix.length = w * h) :
    pixelLoop f w (rowMajor w h) pix =
      .ok ((List.range h).flatMap fun y => (List.range w).map fun x => g x y) := by
  have hmem : ∀ p ∈ rowMajor w h, f p.1 p.2 = .ok (g p.1 p.2) := by
    intro p hp
    obtain ⟨i, hi⟩ := List.mem_iff_getElem?.mp hp
    obtain ⟨hx, hy, -⟩ := rowMajor_getElem? hi
    exact hf p.1 p.2 hx hy
  have hfill := pixelLoop_fill (w := w) hmem [] pix (by rw [hpix, length_rowMajor])
    (fun i p hp => by rw [(rowMajor_getElem? hp).2.2, List.length_nil, Nat.zero_add])
  rw [List.nil_append, List.nil_append] at hfill
  rw [hfill, rowMajor, List.map_flatMap]
  simp only [List.map_map]
  rfl

end PixelLoop

/-! ### Samples -/

theorem clampi_mem {v lo hi : Int} (hle : lo ≤ hi) : lo ≤ clampi v lo hi ∧ clampi v lo hi ≤ hi := by
  unfold clampi
  split_ifs <;> omega

theorem clampi_lt {n : Nat} (hn : 1 ≤ n) (v : Int) : 0 ≤ clampi v 0 (n - 1) ∧ clampi v 0 (n - 1) < n := by
  have hmem := clampi_mem (v := v) (show (0 : Int) ≤ n - 1 by omega)
  omega

theorem clampi_of_mem {v lo hi : Int} (hlo : lo ≤ v) (hhi : v ≤ hi) : clampi v lo hi = v := by
  rw [clampi, if_neg (by omega), if_neg (by omega)]

theorem sampleAt_nonneg (im : Image) (x y : Int) : 0 ≤ sampleAt im x y := Int.natCast_nonneg _

theorem sampleAt_le (im : Image) (x y : Int) : sampleAt im x y ≤ 255 := by
  have hlt := (im.pix.getD (clampi y 0 (im.h - 1) * im.w + clampi x 0 (im.w - 1)).toNat 0).toNat_lt
  show ((im.pix.getD (clampi y 0 (im.h - 1) * im.w + clampi x 0 (im.w - 1)).toNat 0).toNat : Int) ≤ 255
  omega

theorem Canvas.sampleAt_image (c : Canvas) (x y : Int) :
    sampleAt c.image x y = (c.pixel (clampi x 0 (c.w - 1)).toNat (clampi y 0 (c.h - 1)).toNat).toNat := by
  obtain ⟨x', hx⟩ := Int.eq_ofNat_of_zero_le (clampi_lt c.hw x).1
  obtain ⟨y', hy⟩ := Int.eq_ofNat_of_zero_le (clampi_lt c.hh y).1
  have hindex : ((y' : Int) * c.w + x').toNat = y' * c.w + x' := by
    rw [← Int.natCast_mul, ← Int.natCast_add, Int.toNat_natCast]
  simp only [sampleAt, image, hx, hy, hindex, Int.toNat_natCast, pixel]

theorem Canvas.sampleAt_pixel (c : Canvas) {x y : Nat} (hx : x < c.w) (hy : y < c.h) :
    sampleAt c.image x y = (c.pixel x y).toNat := by
  rw [sampleAt_image, clampi_of_mem (by omega) (by omega), clampi_of_mem (by omega) (by omega), Int.toNat_natCast,
    Int.toNat_natCast]

/-! ### Taps as a window -/

/-- The nine places around a pixel. -/
def window : Finset (ℤ × ℤ) := {-1, 0, 1} ×ˢ {-1, 0, 1}

/-- The weight of a kernel at a place of the window. -/
def weightAt (kernel : List Int) (o : ℤ × ℤ) : Int := kernel.getD (3 * (o.2 + 1) + (o.1 + 1)).toNat 0

/-- The samples of an image, continued over its edges. -/
def samples (im : Image) (q : ℤ × ℤ) : Int := sampleAt im q.1 q.2

theorem eq_nine {kernel : List Int} (hlen : kernel.length = 9) : kernel = (List.range 9).map (kernel.getD · 0) := by
  refine List.ext_getElem (by simp [hlen]) fun i hi _ => ?_
  rw [List.getElem_map, List.getElem_range, List.getD_eq_getElem _ _ hi]

theorem sum_window (f : ℤ × ℤ → Int) :
    ∑ o ∈ window, f o = f (-1, -1) + f (0, -1) + f (1, -1) + (f (-1, 0) + f (0, 0) + f (1, 0)) +
      (f (-1, 1) + f (0, 1) + f (1, 1)) := by
  rw [window, Finset.sum_product_right]
  simp [add_assoc]

theorem tapSum_eq_apply {kernel : List Int} (hlen : kernel.length = 9) (im : Image) (x y : Int) :
    tapSum kernel im x y = Stencil.apply window (weightAt kernel) (samples im) (x, y) := by
  rw [Stencil.apply, sum_window, tapSum, eq_nine hlen]
  simp [taps, weightAt, samples, List.range_succ, add_assoc]

theorem sum_weightAt {kernel : List Int} (hlen : kernel.length = 9) :
    ∑ o ∈ window, weightAt kernel o = kernel.sum := by
  rw [sum_window, eq_nine hlen]
  simp [weightAt, List.range_succ, add_assoc]

/-! ### Averages -/

/-- A kernel of non-negative weights with its sum as the divisor, small enough for the sums to fit an `int`. -/
structure Averaging where
  kernel : List Int
  div : Int
  hlen : kernel.length = 9
  hnonneg : ∀ k ∈ kernel, 0 ≤ k
  hsum : kernel.sum = div
  hpos : 0 < div
  hle : div ≤ 2 ^ 23

theorem fitInt_of_nonneg {v : Int} (hlo : 0 ≤ v) (hhi : v < 2 ^ 31) : fitInt v = .ok v :=
  if_pos ⟨by omega, hhi⟩

/-- The accumulator stays below 255 times the weights already used, so it never overflows. -/
theorem accLoop_eq {kernel : List Int} (im : Image) (x y : Int) (places : List (Int × Int)) {ki : Nat}
    {left : List Int} (hleft : kernel.drop ki = left) (hlen : left.length = places.length)
    (hnonneg : ∀ k ∈ left, 0 ≤ k) {acc : Int} (hacc : 0 ≤ acc) (hfits : acc + 255 * left.sum < 2 ^ 31) :
    accLoop kernel im x y places ki acc =
      .ok (acc + (List.zipWith (· * ·) left (places.map fun o => sampleAt im (x + o.1) (y + o.2))).sum) := by
  induction places generalizing ki left acc with
  | nil =>
      obtain rfl := List.length_eq_zero_iff.mp hlen
      rw [accLoop, List.zipWith_nil_left, List.sum_nil, Int.add_zero]
  | cons o rest ih =>
      obtain ⟨k, left, rfl⟩ := List.exists_cons_of_length_eq_add_one hlen
      have hget : kernel.getD ki 0 = k := by
        have hhead : (kernel.drop ki)[0]? = some k := by rw [hleft]; rfl
        rw [List.getElem?_drop, Nat.add_zero] at hhead
        rw [List.getD_eq_getElem?_getD, hhead, Option.getD_some]
      have hnext : kernel.drop (ki + 1) = left := by
        rw [← List.drop_drop, hleft]
        rfl
      have hk : 0 ≤ k := hnonneg k List.mem_cons_self
      have hrest : ∀ k ∈ left, 0 ≤ k := fun k hk => hnonneg k (List.mem_cons_of_mem _ hk)
      have hsum : 0 ≤ left.sum := List.sum_nonneg hrest
      have hterm : 0 ≤ k * sampleAt im (x + o.1) (y + o.2) := Int.mul_nonneg hk (sampleAt_nonneg _ _ _)
      have hterm' : k * sampleAt im (x + o.1) (y + o.2) ≤ k * 255 :=
        Int.mul_le_mul_of_nonneg_left (sampleAt_le _ _ _) hk
      rw [List.sum_cons] at hfits
      have hloop := ih hnext (by simpa using hlen) hrest
        (show 0 ≤ acc + k * sampleAt im (x + o.1) (y + o.2) by omega) (by omega)
      rw [accLoop, hget, fitInt_of_nonneg hterm (by omega), ok_bind, fitInt_of_nonneg (by omega) (by omega), ok_bind,
        hloop, List.map_cons, List.zipWith_cons_cons, List.sum_cons, Int.add_assoc]

namespace Averaging

variable (k : Averaging) {im : Image} {x y : Int} {lo hi : Int}

/-- The average of the samples around a pixel, rounded down. -/
def average (im : Image) (x y : Int) : Int := tapSum k.kernel im x y / k.div

theorem weightAt_nonneg (o : ℤ × ℤ) : 0 ≤ weightAt k.kernel o := by
  rw [weightAt, List.getD_eq_getElem?_getD]
  cases hget : k.kernel[(3 * (o.2 + 1) + (o.1 + 1)).toNat]? with
  | none => exact Int.le_refl 0
  | some v => exact k.hnonneg v (List.mem_of_getElem? hget)

theorem le_tapSum (hbound : ∀ o ∈ window, weightAt k.kernel o ≠ 0 → lo ≤ sampleAt im (x + o.1) (y + o.2)) :
    lo * k.div ≤ tapSum k.kernel im x y := by
  rw [tapSum_eq_apply k.hlen, ← k.hsum, ← sum_weightAt k.hlen]
  exact Stencil.le_apply (fun o _ => k.weightAt_nonneg o) hbound

theorem tapSum_le (hbound : ∀ o ∈ window, weightAt k.kernel o ≠ 0 → sampleAt im (x + o.1) (y + o.2) ≤ hi) :
    tapSum k.kernel im x y ≤ hi * k.div := by
  rw [tapSum_eq_apply k.hlen, ← k.hsum, ← sum_weightAt k.hlen]
  exact Stencil.apply_le (fun o _ => k.weightAt_nonneg o) hbound

theorem le_average (hbound : ∀ o ∈ window, weightAt k.kernel o ≠ 0 → lo ≤ sampleAt im (x + o.1) (y + o.2)) :
    lo ≤ k.average im x y :=
  (Int.le_ediv_iff_mul_le k.hpos).mpr (k.le_tapSum hbound)

theorem average_le (hbound : ∀ o ∈ window, weightAt k.kernel o ≠ 0 → sampleAt im (x + o.1) (y + o.2) ≤ hi) :
    k.average im x y ≤ hi := by
  have hle := Int.ediv_le_ediv k.hpos (k.tapSum_le hbound)
  rwa [Int.mul_ediv_cancel _ k.hpos.ne'] at hle

theorem average_nonneg (im : Image) (x y : Int) : 0 ≤ k.average im x y :=
  k.le_average fun _ _ _ => sampleAt_nonneg _ _ _

theorem average_le_255 (im : Image) (x y : Int) : k.average im x y ≤ 255 :=
  k.average_le fun _ _ _ => sampleAt_le _ _ _

/-- No value overflows, truncation rounds down, and the final clamp changes nothing. -/
theorem convAt_eq (im : Image) (x y : Int) :
    convAt im k.kernel k.div 0 x y = .ok (UInt8.ofNat (k.average im x y).toNat) := by
  have hpos := k.hpos
  have hle := k.hle
  have hacc : accLoop k.kernel im x y tapOffsets 0 0 = .ok (tapSum k.kernel im x y) := by
    rw [accLoop_eq im x y tapOffsets List.drop_zero k.hlen k.hnonneg le_rfl (by rw [k.hsum]; omega), Int.zero_add]
    rfl
  have hnonneg : 0 ≤ tapSum k.kernel im x y := by
    have hle := k.le_tapSum (fun o _ _ => sampleAt_nonneg im (x + o.1) (y + o.2))
    rwa [Int.zero_mul] at hle
  have hquot : (tapSum k.kernel im x y).tdiv k.div = k.average im x y := Int.tdiv_eq_ediv_of_nonneg hnonneg
  have hlo := k.average_nonneg im x y
  have hhi := k.average_le_255 im x y
  have hfit : fitInt (k.average im x y) = .ok (k.average im x y) := fitInt_of_nonneg hlo (by omega)
  rw [convAt, hacc, ok_bind, hquot, hfit, ok_bind, Int.add_zero, hfit, ok_bind, clampi_of_mem hlo hhi]

variable {c out : Canvas}

/-- The averages of an image, as an image. -/
def averages (c : Canvas) : Canvas :=
  Canvas.ofFn (fun x y => UInt8.ofNat (k.average c.image x y).toNat) c.hw c.hh

theorem toNat_averages {x y : Nat} (hx : x < c.w) (hy : y < c.h) :
    (((k.averages c).pixel x y).toNat : Int) = k.average c.image x y := by
  have hlo := k.average_nonneg c.image x y
  have hhi := k.average_le_255 c.image x y
  rw [averages, Canvas.pixel_ofFn _ c.hw c.hh hx hy, UInt8.toNat_ofNat_of_lt' (show _ < 256 by omega),
    Int.toNat_of_nonneg hlo]

theorem conv3x3_eq (hw : out.w = c.w) (hh : out.h = c.h) :
    conv3x3 c.image out.image k.kernel k.div 0 = .ok (k.averages c).image := by
  have hpix : out.pix.length = c.w * c.h := by rw [out.hpix, hw, hh]
  have hargs : ¬ (c.image.pix = [] ∨ out.image.pix = [] ∨ c.image.w ≠ out.image.w ∨ c.image.h ≠ out.image.h ∨
      k.div = 0) := by
    simp only [Canvas.image, hw, hh, ne_eq, not_true, false_or, not_or]
    exact ⟨c.pix_ne_nil, out.pix_ne_nil, k.hpos.ne'⟩
  have hloop := pixelLoop_rowMajor (fun x y _ _ => k.convAt_eq c.image (x : Nat) (y : Nat)) hpix
  rw [conv3x3, if_neg hargs]
  simp only [Canvas.image, Int.toNat_natCast] at hloop ⊢
  rw [hloop, ok_bind, hw, hh]
  rfl

/-- If the average at every pixel is the pixel itself, the image is not changed. -/
theorem averages_eq_self (hfix : ∀ x y, x < c.w → y < c.h → k.average c.image x y = (c.pixel x y).toNat) :
    k.averages c = c := by
  refine Canvas.ext_pixel rfl rfl fun x y hx hy => ?_
  have heq := k.toNat_averages (c := c) hx hy
  rw [hfix x y hx hy] at heq
  exact UInt8.toNat_inj.mp (Int.ofNat_inj.mp heq)

end Averaging

/-- The samples around a pixel that a kernel gives a weight to. -/
def weighed (kernel : List Int) (im : Image) (x y : Int) : Finset Int :=
  (window.filter fun o => weightAt kernel o ≠ 0).image fun o => sampleAt im (x + o.1) (y + o.2)

theorem mem_weighed {kernel : List Int} {im : Image} {x y : Int} {o : ℤ × ℤ} (ho : o ∈ window)
    (hweight : weightAt kernel o ≠ 0) : sampleAt im (x + o.1) (y + o.2) ∈ weighed kernel im x y :=
  Finset.mem_image.mpr ⟨o, Finset.mem_filter.mpr ⟨ho, hweight⟩, rfl⟩

theorem Averaging.weighed_nonempty (k : Averaging) (im : Image) (x y : Int) : (weighed k.kernel im x y).Nonempty := by
  have hne : ∑ o ∈ window, weightAt k.kernel o ≠ 0 := by
    rw [sum_weightAt k.hlen, k.hsum]
    exact k.hpos.ne'
  obtain ⟨o, ho, hweight⟩ := Finset.exists_ne_zero_of_sum_ne_zero hne
  exact ⟨_, mem_weighed ho hweight⟩

/-- `K_IDENTITY` with the divisor 1. -/
def identityKernel : Averaging := ⟨K_IDENTITY, 1, rfl, by decide, rfl, by decide, by decide⟩

theorem tapSum_identity (im : Image) (x y : Int) : tapSum K_IDENTITY im x y = sampleAt im x y := by
  simp [tapSum, taps, K_IDENTITY]

/-- **Averages never overshoot.** For every image and every averaging kernel `conv3x3` returns 0, without an
overflow, and each output pixel lies between the least and the greatest of the edge-clamped samples the kernel
gives a weight to. The identity kernel gives every image back, and a flat image is not changed by any of these
kernels. -/
theorem averaging_between (k : Averaging) (c out : Canvas) (hw : out.w = c.w) (hh : out.h = c.h) :
    (∃ e : Canvas, conv3x3 c.image out.image k.kernel k.div 0 = .ok e.image ∧ e.w = c.w ∧ e.h = c.h ∧
      ∀ x y, x < c.w → y < c.h → ∃ hne : (weighed k.kernel c.image x y).Nonempty,
        (weighed k.kernel c.image x y).min' hne ≤ (e.pixel x y).toNat ∧
          (e.pixel x y).toNat ≤ (weighed k.kernel c.image x y).max' hne) ∧
    conv3x3 c.image out.image K_IDENTITY 1 0 = .ok c.image ∧
    ∀ v, (∀ x y, x < c.w → y < c.h → c.pixel x y = v) →
      conv3x3 c.image out.image k.kernel k.div 0 = .ok c.image := by
  refine ⟨⟨k.averages c, k.conv3x3_eq hw hh, rfl, rfl, ?_⟩, ?_, ?_⟩
  · intro x y hx hy
    refine ⟨k.weighed_nonempty c.image x y, ?_⟩
    rw [k.toNat_averages hx hy]
    constructor
    · exact k.le_average fun o ho hweight => Finset.min'_le _ _ (mem_weighed ho hweight)
    · exact k.average_le fun o ho hweight => Finset.le_max' _ _ (mem_weighed ho hweight)
  · have hfix : identityKernel.averages c = c := by
      refine identityKernel.averages_eq_self fun x y hx hy => ?_
      rw [Averaging.average, identityKernel, tapSum_identity, Int.ediv_one, c.sampleAt_pixel hx hy]
    have hconv := identityKernel.conv3x3_eq hw hh
    rw [hfix] at hconv
    exact hconv
  · intro v hflat
    have hsample : ∀ x y, sampleAt c.image x y = v.toNat := by
      intro x y
      have hx := clampi_lt c.hw x
      have hy := clampi_lt c.hh y
      rw [c.sampleAt_image, hflat _ _ (by omega) (by omega)]
    have hfix : k.averages c = c := by
      refine k.averages_eq_self fun x y hx hy => ?_
      rw [hflat x y hx hy]
      apply le_antisymm
      · exact k.average_le fun _ _ _ => (hsample _ _).le
      · exact k.le_average fun _ _ _ => (hsample _ _).ge
    rw [k.conv3x3_eq hw hh, hfix]

/-- `K_BLUR` with the divisor 9. -/
def blurKernel : Averaging := ⟨K_BLUR, 9, rfl, by decide, rfl, by decide, by decide⟩

/-- Two pixels side by side, blurred. -/
theorem averaging_between_twoPixels :
    ∃ e : Canvas, conv3x3 ⟨2, 1, [0, 90]⟩ ⟨2, 1, [0, 0]⟩ K_BLUR 9 0 = .ok e.image ∧
      ∃ hne : (weighed K_BLUR ⟨2, 1, [0, 90]⟩ 0 0).Nonempty,
        (weighed K_BLUR ⟨2, 1, [0, 90]⟩ 0 0).min' hne ≤ (e.pixel 0 0).toNat ∧
          (e.pixel 0 0).toNat ≤ (weighed K_BLUR ⟨2, 1, [0, 90]⟩ 0 0).max' hne := by
  obtain ⟨⟨e, hconv, -, -, hbetween⟩, -⟩ := averaging_between blurKernel ⟨2, 1, [0, 90], by decide, by decide, rfl⟩
    ⟨2, 1, [0, 0], by decide, by decide, rfl⟩ rfl rfl
  exact ⟨e, hconv, hbetween 0 0 (by decide) (by decide)⟩

end PulseLink
