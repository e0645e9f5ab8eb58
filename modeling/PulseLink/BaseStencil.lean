import Mathlib

/-! Weighted sums over a window of neighbours. A symmetry of the window that moves the field moves the sum, with
the weights moved along; weights without a sign keep the sum between the bounds of what they weigh. -/

namespace PulseLink

namespace Stencil

open Finset

variable {G R : Type*} [AddCommGroup G]

/-- The sum of the field around `p`, weighted by the place in the window. -/
def apply [CommRing R] (window : Finset G) (weight field : G → R) (p : G) : R :=
  ∑ o ∈ window, weight o * field (p + o)

section Ring

variable [CommRing R] {window : Finset G} {weight weight' : G → R}

theorem apply_neg (weight field : G → R) (p : G) :
    apply window (fun o => -weight o) field p = -apply window weight field p := by
  rw [apply, apply, ← sum_neg_distrib]
  exact sum_congr rfl fun o _ => neg_mul _ _

theorem apply_const (weight : G → R) (c : R) (p : G) :
    apply window weight (fun _ => c) p = c * ∑ o ∈ window, weight o := by
  rw [apply, ← sum_mul, mul_comm]

theorem apply_sub (weight field field' : G → R) (p : G) :
    apply window weight (fun q => field q - field' q) p =
      apply window weight field p - apply window weight field' p := by
  rw [apply, apply, apply, ← sum_sub_distrib]
  exact sum_congr rfl fun o _ => mul_sub _ _ _

/-- A field seen through an affine map: the sum is taken at the image of the place, with the weights moved. -/
theorem apply_moved (σ : G ≃+ G) (c : G) (hwindow : ∀ o, o ∈ window ↔ σ o ∈ window) {field field' : G → R}
    (hfield : ∀ q, field' q = field (σ q + c)) (hweight : ∀ o ∈ window, weight o = weight' (σ o)) (p : G) :
    apply window weight field' p = apply window weight' field (σ p + c) := by
  refine sum_equiv σ.toEquiv hwindow ?_
  intro o ho
  show weight o * field' (p + o) = weight' (σ o) * field (σ p + c + σ o)
  rw [hweight o ho, hfield, map_add, add_right_comm]

/-- Weights that sum to zero see a field and its inverse as opposite. -/
theorem apply_inverse (hweight : ∑ o ∈ window, weight o = 0) (c : R) (field : G → R) (p : G) :
    apply window weight (fun q => c - field q) p = -apply window weight field p := by
  rw [apply_sub, apply_const, hweight, mul_zero, zero_sub]

end Ring

section Ordered

variable [CommRing R] [LinearOrder R] [IsStrictOrderedRing R] {window : Finset G} {weight field field' : G → R}
  {p : G} {bound : R}

/-- Only what has a weight counts. -/
theorem apply_mono (hnonneg : ∀ o ∈ window, 0 ≤ weight o)
    (hle : ∀ o ∈ window, weight o ≠ 0 → field (p + o) ≤ field' (p + o)) :
    apply window weight field p ≤ apply window weight field' p := by
  refine sum_le_sum fun o ho => ?_
  by_cases hzero : weight o = 0
  · rw [hzero, zero_mul, zero_mul]
  · exact mul_le_mul_of_nonneg_left (hle o ho hzero) (hnonneg o ho)

theorem le_apply (hnonneg : ∀ o ∈ window, 0 ≤ weight o)
    (hbound : ∀ o ∈ window, weight o ≠ 0 → bound ≤ field (p + o)) :
    bound * ∑ o ∈ window, weight o ≤ apply window weight field p := by
  rw [← apply_const weight bound p]
  exact apply_mono hnonneg hbound

theorem apply_le (hnonneg : ∀ o ∈ window, 0 ≤ weight o)
    (hbound : ∀ o ∈ window, weight o ≠ 0 → field (p + o) ≤ bound) :
    apply window weight field p ≤ bound * ∑ o ∈ window, weight o := by
  rw [← apply_const weight bound p]
  exact apply_mono hnonneg hbound

end Ordered

end Stencil

end PulseLink
