import PulseLink.Convolve

/-! The symmetries of `sobel`. Mirroring or transposing an image moves every edge-clamped sample along, at the
borders too; the two kernels are carried into each other up to their signs, and the magnitude does not see
those. -/

namespace PulseLink

/-! ### Images moved and inverted -/

namespace Canvas

variable (c : Canvas)

def flipH : Canvas := ofFn (fun x y => c.pixel (c.w - 1 - x) y) c.hw c.hh

def flipV : Canvas := ofFn (fun x y => c.pixel x (c.h - 1 - y)) c.hw c.hh

def transpose : Canvas := ofFn (fun x y => c.pixel y x) c.hh c.hw

def inverse : Canvas := ofFn (fun x y => 255 - c.pixel x y) c.hw c.hh

end Canvas

/-- The maps of the plane behind them, up to a shift. -/
def mirrorX : ℤ × ℤ ≃+ ℤ × ℤ := (AddEquiv.neg ℤ).prodCongr (AddEquiv.refl ℤ)

def mirrorY : ℤ × ℤ ≃+ ℤ × ℤ := (AddEquiv.refl ℤ).prodCongr (AddEquiv.neg ℤ)

def swapXY : ℤ × ℤ ≃+ ℤ × ℤ := AddEquiv.prodComm

theorem mem_window {o : ℤ × ℤ} : o ∈ window ↔ (o.1 = -1 ∨ o.1 = 0 ∨ o.1 = 1) ∧ (o.2 = -1 ∨ o.2 = 0 ∨ o.2 = 1) := by
  simp [window]

theorem mirrorX_mem (o : ℤ × ℤ) : o ∈ window ↔ mirrorX o ∈ window := by
  show o ∈ window ↔ (-o.1, o.2) ∈ window
  rw [mem_window, mem_window]
  omega

theorem mirrorY_mem (o : ℤ × ℤ) : o ∈ window ↔ mirrorY o ∈ window := by
  show o ∈ window ↔ (o.1, -o.2) ∈ window
  rw [mem_window, mem_window]
  omega

theorem swapXY_mem (o : ℤ × ℤ) : o ∈ window ↔ swapXY o ∈ window := by
  show o ∈ window ↔ (o.2, o.1) ∈ window
  rw [mem_window, mem_window, and_comm]

/-- Clamping a mirrored coordinate mirrors the clamped one. -/
theorem toNat_clampi_mirror {n : Nat} (hn : 1 ≤ n) (v : Int) :
    (clampi (-v + (n - 1)) 0 (n - 1)).toNat = n - 1 - (clampi v 0 (n - 1)).toNat := by
  unfold clampi
  split_ifs <;> omega

theorem toNat_inverse (p : UInt8) : ((255 - p).toNat : Int) = 255 - p.toNat := by
  have hlt := p.toNat_lt
  rw [UInt8.toNat_sub_of_le _ _ (UInt8.le_iff_toNat_le.mpr (show p.toNat ≤ 255 by omega))]
  exact Int.ofNat_sub (show p.toNat ≤ 255 by omega)

namespace Canvas

variable (c : Canvas)

theorem sampleAt_ofFn (f : Nat → Nat → UInt8) {w h : Nat} (hw : 1 ≤ w) (hh : 1 ≤ h) (x y : Int) :
    sampleAt (ofFn f hw hh).image x y =
      (f (clampi x 0 (w - 1)).toNat (clampi y 0 (h - 1)).toNat).toNat := by
  have hx := clampi_lt hw x
  have hy := clampi_lt hh y
  rw [sampleAt_image]
  show (((ofFn f hw hh).pixel (clampi x 0 (w - 1)).toNat (clampi y 0 (h - 1)).toNat).toNat : Int) = _
  rw [pixel_ofFn f hw hh (by omega) (by omega)]

theorem samples_flipH (q : ℤ × ℤ) :
    samples c.flipH.image q = samples c.image (mirrorX q + ((c.w : ℤ) - 1, 0)) := by
  show sampleAt c.flipH.image q.1 q.2 = sampleAt c.image (-q.1 + (c.w - 1)) (q.2 + 0)
  rw [flipH, sampleAt_ofFn, sampleAt_image, toNat_clampi_mirror c.hw, Int.add_zero]

theorem samples_flipV (q : ℤ × ℤ) :
    samples c.flipV.image q = samples c.image (mirrorY q + (0, (c.h : ℤ) - 1)) := by
  show sampleAt c.flipV.image q.1 q.2 = sampleAt c.image (q.1 + 0) (-q.2 + (c.h - 1))
  rw [flipV, sampleAt_ofFn, sampleAt_image, toNat_clampi_mirror c.hh, Int.add_zero]

theorem samples_transpose (q : ℤ × ℤ) : samples c.transpose.image q = samples c.image (swapXY q + 0) := by
  show sampleAt c.transpose.image q.1 q.2 = sampleAt c.image (q.2 + 0) (q.1 + 0)
  rw [transpose, sampleAt_ofFn, sampleAt_image, Int.add_zero, Int.add_zero]

theorem samples_inverse (q : ℤ × ℤ) : samples c.inverse.image q = 255 - samples c.image q := by
  show sampleAt c.inverse.image q.1 q.2 = 255 - sampleAt c.image q.1 q.2
  rw [inverse, sampleAt_ofFn, sampleAt_image, toNat_inverse]

end Canvas

/-! ### The gradient -/

/-- The two sums `sobel` makes at a pixel. -/
def gradX (im : Image) (p : ℤ × ℤ) : Int := Stencil.apply window (weightAt SOBEL_X) (samples im) p

def gradY (im : Image) (p : ℤ × ℤ) : Int := Stencil.apply window (weightAt SOBEL_Y) (samples im) p

theorem sobelAt_eq (im : Image) (x y : Int) :
    sobelAt im x y =
      UInt8.ofNat (clampi (lroundSqrt (gradX im (x, y) ^ 2 + gradY im (x, y) ^ 2).toNat) 0 255).toNat := by
  have hx : tapSum SOBEL_X im x y = gradX im (x, y) := tapSum_eq_apply rfl im x y
  have hy : tapSum SOBEL_Y im x y = gradY im (x, y) := tapSum_eq_apply rfl im x y
  simp only [sobelAt, hx, hy, sq]

section Moved

variable {im im' : Image} {p p' : ℤ × ℤ}

/-- The magnitude depends on the two sums only up to their order and their signs. -/
theorem sobelAt_congr (hsq : gradX im p ^ 2 + gradY im p ^ 2 = gradX im' p' ^ 2 + gradY im' p' ^ 2) :
    sobelAt im p.1 p.2 = sobelAt im' p'.1 p'.2 := by
  rw [sobelAt_eq, sobelAt_eq]
  simp only [Prod.mk.eta, hsq]

variable {c : ℤ × ℤ}

theorem sobelAt_mirrorX (hsamples : ∀ q, samples im' q = samples im (mirrorX q + c)) (p : ℤ × ℤ) :
    sobelAt im' p.1 p.2 = sobelAt im (mirrorX p + c).1 (mirrorX p + c).2 := by
  have hx : gradX im' p = -gradX im (mirrorX p + c) := by
    rw [gradX, gradX, ← Stencil.apply_neg]
    exact Stencil.apply_moved mirrorX c mirrorX_mem hsamples (by decide) p
  have hy : gradY im' p = gradY im (mirrorX p + c) :=
    Stencil.apply_moved mirrorX c mirrorX_mem hsamples (by decide) p
  exact sobelAt_congr (by rw [hx, hy, neg_sq])

theorem sobelAt_mirrorY (hsamples : ∀ q, samples im' q = samples im (mirrorY q + c)) (p : ℤ × ℤ) :
    sobelAt im' p.1 p.2 = sobelAt im (mirrorY p + c).1 (mirrorY p + c).2 := by
  have hx : gradX im' p = gradX im (mirrorY p + c) :=
    Stencil.apply_moved mirrorY c mirrorY_mem hsamples (by decide) p
  have hy : gradY im' p = -gradY im (mirrorY p + c) := by
    rw [gradY, gradY, ← Stencil.apply_neg]
    exact Stencil.apply_moved mirrorY c mirrorY_mem hsamples (by decide) p
  exact sobelAt_congr (by rw [hx, hy, neg_sq])

theorem sobelAt_swapXY (hsamples : ∀ q, samples im' q = samples im (swapXY q + c)) (p : ℤ × ℤ) :
    sobelAt im' p.1 p.2 = sobelAt im (swapXY p + c).1 (swapXY p + c).2 := by
  have hx : gradX im' p = gradY im (swapXY p + c) :=
    Stencil.apply_moved swapXY c swapXY_mem hsamples (by decide) p
  have hy : gradY im' p = gradX im (swapXY p + c) :=
    Stencil.apply_moved swapXY c swapXY_mem hsamples (by decide) p
  exact sobelAt_congr (by rw [hx, hy, add_comm])

theorem sobelAt_inverse (hsamples : ∀ q, samples im' q = 255 - samples im q) (p : ℤ × ℤ) :
    sobelAt im' p.1 p.2 = sobelAt im p.1 p.2 := by
  have hx : gradX im' p = -gradX im p := by
    rw [gradX, funext hsamples]
    exact Stencil.apply_inverse (by decide) 255 (samples im) p
  have hy : gradY im' p = -gradY im p := by
    rw [gradY, funext hsamples]
    exact Stencil.apply_inverse (by decide) 255 (samples im) p
  exact sobelAt_congr (by rw [hx, hy, neg_sq, neg_sq])

end Moved

/-! ### Edges -/

/-- `lround(sqrt(n))` is the integer nearest to the square root. -/
theorem lroundSqrt_nearest (n : Nat) : |√(n : ℝ) - lroundSqrt n| < 1 / 2 := by
  have hle : (n.sqrt : ℝ) ^ 2 ≤ n := by exact_mod_cast Nat.sqrt_le' n
  have hlt : (n : ℝ) < (n.sqrt + 1) ^ 2 := by exact_mod_cast Nat.lt_succ_sqrt' n
  have hnonneg : (0 : ℝ) ≤ n.sqrt := Nat.cast_nonneg _
  have hlo : (n.sqrt : ℝ) ≤ √(n : ℝ) := Real.le_sqrt_of_sq_le hle
  have hhi : √(n : ℝ) < n.sqrt + 1 := (Real.sqrt_lt' (by linarith)).mpr hlt
  have hhalf : ((n.sqrt : ℝ) + 1 / 2) ^ 2 = n.sqrt * n.sqrt + n.sqrt + 1 / 4 := by ring
  rw [lroundSqrt, abs_lt]
  -- the square of a half-integer is no integer, so the root is never halfway
  split_ifs with hnear
  · have hcast : (n : ℝ) ≤ n.sqrt * n.sqrt + n.sqrt := by exact_mod_cast hnear
    have hbelow : √(n : ℝ) < n.sqrt + 1 / 2 := (Real.sqrt_lt' (by linarith)).mpr (by linarith)
    constructor <;> linarith
  · have hcast : (n.sqrt : ℝ) * n.sqrt + n.sqrt + 1 ≤ n := by exact_mod_cast Nat.lt_of_not_le hnear
    have habove : (n.sqrt : ℝ) + 1 / 2 < √(n : ℝ) := Real.lt_sqrt_of_sq_lt (by linarith)
    push_cast
    constructor <;> linarith

namespace Canvas

variable (c : Canvas)

/-- An image whose samples are moved has the edges moved. -/
theorem edges_eq_ofFn (d : Canvas) (fx fy : Nat → Nat → Nat)
    (hmoved : ∀ x y, x < d.w → y < d.h →
      fx x y < c.w ∧ fy x y < c.h ∧ sobelAt d.image x y = sobelAt c.image (fx x y) (fy x y)) :
    d.edges = ofFn (fun x y => c.edges.pixel (fx x y) (fy x y)) d.hw d.hh := by
  refine ext_pixel (Eq.refl d.w) (Eq.refl d.h) fun x y hx hy => ?_
  obtain ⟨hfx, hfy, hsobel⟩ := hmoved x y hx hy
  rw [d.pixel_edges hx hy, pixel_ofFn _ d.hw d.hh hx hy, c.pixel_edges hfx hfy, hsobel]

theorem edges_flipH : c.flipH.edges = c.edges.flipH := by
  refine c.edges_eq_ofFn c.flipH (fun x _ => c.w - 1 - x) (fun _ y => y) fun x y hx hy => ?_
  change x < c.w at hx
  refine ⟨by omega, hy, ?_⟩
  calc sobelAt c.flipH.image x y
    _ = sobelAt c.image (-x + (c.w - 1)) (y + 0) := sobelAt_mirrorX c.samples_flipH (x, y)
    _ = sobelAt c.image ((c.w - 1 - x : Nat) : Int) y := by
        rw [Int.add_zero, show (-x + (c.w - 1) : Int) = ((c.w - 1 - x : Nat) : Int) by omega]

theorem edges_flipV : c.flipV.edges = c.edges.flipV := by
  refine c.edges_eq_ofFn c.flipV (fun x _ => x) (fun _ y => c.h - 1 - y) fun x y hx hy => ?_
  change y < c.h at hy
  refine ⟨hx, by omega, ?_⟩
  calc sobelAt c.flipV.image x y
    _ = sobelAt c.image (x + 0) (-y + (c.h - 1)) := sobelAt_mirrorY c.samples_flipV (x, y)
    _ = sobelAt c.image x ((c.h - 1 - y : Nat) : Int) := by
        rw [Int.add_zero, show (-y + (c.h - 1) : Int) = ((c.h - 1 - y : Nat) : Int) by omega]

theorem edges_transpose : c.transpose.edges = c.edges.transpose := by
  refine c.edges_eq_ofFn c.transpose (fun _ y => y) (fun x _ => x) fun x y hx hy => ⟨hy, hx, ?_⟩
  calc sobelAt c.transpose.image x y
    _ = sobelAt c.image (y + 0) (x + 0) := sobelAt_swapXY c.samples_transpose (x, y)
    _ = sobelAt c.image y x := by rw [Int.add_zero, Int.add_zero]

theorem edges_inverse : c.inverse.edges = c.edges := by
  refine ext_pixel (Eq.refl c.w) (Eq.refl c.h) fun x y hx hy => ?_
  change x < c.w at hx
  change y < c.h at hy
  calc c.inverse.edges.pixel x y
    _ = sobelAt c.inverse.image x y := c.inverse.pixel_edges hx hy
    _ = sobelAt c.image x y := sobelAt_inverse c.samples_inverse (x, y)
    _ = c.edges.pixel x y := (c.pixel_edges hx hy).symm

end Canvas

/-- `sobel` fills every output buffer of the right size with the image `e`. -/
def EdgesOf (c e : Canvas) : Prop :=
  e.w = c.w ∧ e.h = c.h ∧ ∀ out : Canvas, out.w = c.w → out.h = c.h → sobel c.image out.image = some e.image

theorem edgesOf_edges (c : Canvas) : EdgesOf c c.edges := ⟨rfl, rfl, c.sobel_image⟩

/-- The stores of the loops in `sobel`, pixel by pixel, fill the buffer with the edges. -/
theorem pixelLoop_sobel (c out : Canvas) (hw : out.w = c.w) (hh : out.h = c.h) :
    pixelLoop (fun x y => .ok (sobelAt c.image x y)) c.w (rowMajor c.w c.h) out.pix = .ok c.edges.pix :=
  pixelLoop_rowMajor (fun _ _ _ _ => rfl) (by rw [out.hpix, hw, hh])

/-- **`sobel` respects the symmetries of the image.** For every image of any size, borders included: the edges of
the image mirrored left to right, mirrored top to bottom or transposed are the edges mirrored or transposed the
same way, and the inverted image has the same edges. -/
theorem sobel_symmetric (c : Canvas) :
    ∃ e : Canvas, EdgesOf c e ∧ EdgesOf c.flipH e.flipH ∧ EdgesOf c.flipV e.flipV ∧
      EdgesOf c.transpose e.transpose ∧ EdgesOf c.inverse e := by
  refine ⟨c.edges, edgesOf_edges c, ?_, ?_, ?_, ?_⟩
  · rw [← c.edges_flipH]
    exact edgesOf_edges c.flipH
  · rw [← c.edges_flipV]
    exact edgesOf_edges c.flipV
  · rw [← c.edges_transpose]
    exact edgesOf_edges c.transpose
  · rw [← c.edges_inverse]
    exact edgesOf_edges c.inverse

end PulseLink
