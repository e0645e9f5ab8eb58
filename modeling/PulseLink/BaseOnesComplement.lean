import Mathlib

/-! Sums with end-around carry. A sum kept in a word of values up to `M`, with every carry out of the word added
back in at the bottom, is known modulo `M`; of the two representations of zero it is 0 only for the sum 0, and
`M` for every other multiple. Read bit by bit, a word sum has weights that halve from one bit to the next and
come back to the top after the lowest: a change of few enough bits in a row is never a multiple of `M`. -/

namespace PulseLink

namespace OnesComplement

/-! ### Residues -/

/-- The word `r` stands for the sum `s`. -/
structure Residue (M s r : Nat) : Prop where
  le : r ≤ M
  modEq : r ≡ s [MOD M]
  zero_iff : r = 0 ↔ s = 0

section Residue

variable {M s s' r r' : Nat}

theorem Residue.unique (hr : Residue M s r) (hr' : Residue M s' r') (hmod : s ≡ s' [MOD M])
    (hzero : s = 0 ↔ s' = 0) : r = r' := by
  have hle := hr.le
  have hle' := hr'.le
  have hboth : r = 0 ↔ r' = 0 := hr.zero_iff.trans (hzero.trans hr'.zero_iff.symm)
  have hcong : r ≡ r' [MOD M] := hr.modEq.trans (hmod.trans hr'.modEq.symm)
  -- two different words up to `M` are congruent only if they are 0 and `M`
  rcases Nat.lt_trichotomy r r' with hlt | heq | hlt
  · have hdvd := (Nat.modEq_iff_dvd' hlt.le).mp hcong
    have := Nat.le_of_dvd (by omega) hdvd
    omega
  · exact heq
  · have hdvd := (Nat.modEq_iff_dvd' hlt.le).mp hcong.symm
    have := Nat.le_of_dvd (by omega) hdvd
    omega

theorem Residue.eq_top (hr : Residue M s r) (hdvd : M ∣ s) (hne : s ≠ 0) : r = M := by
  have htop : Residue M s M := by
    refine ⟨Nat.le_refl M, ?_, ?_⟩
    · exact (Nat.modEq_zero_iff_dvd.mpr (dvd_refl M)).trans (Nat.modEq_zero_iff_dvd.mpr hdvd).symm
    · constructor
      · rintro rfl
        exact absurd (Nat.eq_zero_of_zero_dvd hdvd) hne
      · exact fun h => absurd h hne
  exact hr.unique htop rfl Iff.rfl

/-- The sum of two words, with the carry added in. -/
def carryAdd (M a b : Nat) : Nat := if a + b ≤ M then a + b else a + b - M

theorem Residue.add (hr : Residue M s r) (hr' : Residue M s' r') : Residue M (s + s') (carryAdd M r r') := by
  have hle := hr.le
  have hle' := hr'.le
  have hzero := hr.zero_iff
  have hzero' := hr'.zero_iff
  have hmod : r + r' ≡ s + s' [MOD M] := hr.modEq.add hr'.modEq
  unfold carryAdd
  split_ifs with hfits
  · exact ⟨hfits, hmod, by omega⟩
  · refine ⟨by omega, ?_, by omega⟩
    have hcarry : r + r' - M ≡ r + r' [MOD M] := by
      rw [Nat.modEq_iff_dvd' (Nat.sub_le _ _), Nat.sub_sub_self (by omega)]
    exact hcarry.trans hmod

/-- Adding what is above the word in at the bottom changes neither the residue nor whether the sum is 0. -/
theorem fold_modEq (M s : Nat) : s % (M + 1) + s / (M + 1) ≡ s [MOD M] := by
  have hsplit := Nat.mod_add_div s (M + 1)
  have hexpand : s = s % (M + 1) + s / (M + 1) + M * (s / (M + 1)) := by
    nth_rewrite 1 [← hsplit]
    ring
  nth_rewrite 3 [hexpand]
  rw [Nat.modEq_iff_dvd' (Nat.le_add_right _ _), Nat.add_sub_cancel_left]
  exact dvd_mul_right M _

theorem fold_eq_zero_iff (M s : Nat) : s % (M + 1) + s / (M + 1) = 0 ↔ s = 0 := by
  have hsplit := Nat.mod_add_div s (M + 1)
  constructor
  · intro hzero
    obtain ⟨hlow, hhigh⟩ := Nat.add_eq_zero_iff.mp hzero
    rw [hlow, hhigh] at hsplit
    exact hsplit.symm
  · rintro rfl
    rw [Nat.zero_mod, Nat.zero_div]

end Residue

/-! ### Weights that halve -/

section Weights

variable {R : Type} [CommRing R]

/-- The sum of the digits with the weights `h`, `h ^ 2`, `h ^ 3` and so on. -/
def weigh (h : R) : List ℤ → R
  | [] => 0
  | d :: ds => h * (d + weigh h ds)

theorem weigh_append (h : R) (ds es : List ℤ) :
    weigh h (ds ++ es) = weigh h ds + h ^ ds.length * weigh h es := by
  induction ds with
  | nil => simp [weigh]
  | cons d ds ih =>
      rw [List.cons_append, weigh, weigh, ih, List.length_cons, pow_succ]
      ring

theorem weigh_sub (h : R) {ds es : List ℤ} (hlen : ds.length = es.length) :
    weigh h (List.zipWith (fun d e => d - e) ds es) = weigh h ds - weigh h es := by
  induction ds generalizing es with
  | nil =>
      rw [List.length_eq_zero_iff.mp hlen.symm, List.zipWith_nil_left, sub_self]
      rfl
  | cons d ds ih =>
      cases es with
      | nil => cases hlen
      | cons e es =>
          rw [List.zipWith_cons_cons, weigh, weigh, weigh, ih (Nat.succ.inj hlen)]
          push_cast
          ring

theorem weigh_zero (h : R) {ds : List ℤ} (hzero : ∀ d ∈ ds, d = 0) : weigh h ds = 0 := by
  induction ds with
  | nil => rfl
  | cons d ds ih =>
      rw [weigh, hzero d List.mem_cons_self, ih fun e he => hzero e (List.mem_cons_of_mem d he)]
      simp

/-- The number that a string of binary digits spells, the highest one first. -/
def number : List ℤ → ℤ
  | [] => 0
  | d :: ds => d * 2 ^ ds.length + number ds

theorem number_append (ds es : List ℤ) : number (ds ++ es) = number ds * 2 ^ es.length + number es := by
  induction ds with
  | nil => simp [number]
  | cons d ds ih =>
      rw [List.cons_append, number, number, ih, List.length_append, pow_add]
      ring

/-- The bits of a number spell it. -/
theorem number_bits (n w : Nat) :
    number ((List.range w).map fun j => ((n.testBit (w - 1 - j)).toNat : ℤ)) = (n % 2 ^ w : Nat) := by
  induction w with
  | zero => simp [number, Nat.mod_one]
  | succ w ih =>
      have hrest : ((List.range w).map fun j => ((n.testBit (w + 1 - 1 - (j + 1))).toNat : ℤ)) =
          (List.range w).map fun j => ((n.testBit (w - 1 - j)).toNat : ℤ) := by
        refine List.map_congr_left fun j _ => ?_
        rw [show w + 1 - 1 - (j + 1) = w - 1 - j by omega]
      calc number ((List.range (w + 1)).map fun j => ((n.testBit (w + 1 - 1 - j)).toNat : ℤ))
        _ = (n.testBit w).toNat * 2 ^ w + (n % 2 ^ w : Nat) := by
            rw [List.range_succ_eq_map, List.map_cons, List.map_map, number, ← ih, ← hrest, List.length_map,
              List.length_range]
            rfl
        _ = (n % 2 ^ (w + 1) : Nat) := by
            rw [Nat.mod_pow_succ, Nat.toNat_testBit]
            push_cast
            ring

/-- With weights that halve, a string of digits stands for its number shifted down. -/
theorem two_pow_mul_weigh {h : R} (hhalf : 2 * h = 1) (ds : List ℤ) :
    2 ^ ds.length * weigh h ds = (number ds : R) := by
  induction ds with
  | nil => simp [weigh, number]
  | cons d ds ih =>
      calc 2 ^ (ds.length + 1) * (h * (d + weigh h ds))
        _ = 2 * h * (d * 2 ^ ds.length + 2 ^ ds.length * weigh h ds) := by ring
        _ = (number (d :: ds) : R) := by
            rw [hhalf, one_mul, ih, number]
            push_cast
            rfl

end Weights

/-! ### Changes of few digits in a row -/

section Burst

/-- A string of signed digits is smaller than its first place. -/
theorem abs_number_lt {ds : List ℤ} (hds : ∀ d ∈ ds, |d| ≤ 1) : |number ds| < 2 ^ ds.length := by
  induction ds with
  | nil => simp [number]
  | cons d ds ih =>
      have hd := hds d List.mem_cons_self
      have hrest := ih fun e he => hds e (List.mem_cons_of_mem d he)
      have hpos : (0 : ℤ) < 2 ^ ds.length := by positivity
      calc |number (d :: ds)|
        _ ≤ |d * 2 ^ ds.length| + |number ds| := abs_add_le _ _
        _ = |d| * 2 ^ ds.length + |number ds| := by rw [abs_mul, abs_of_pos hpos]
        _ < 1 * 2 ^ ds.length + 2 ^ ds.length := by
            have := mul_le_mul_of_nonneg_right hd hpos.le
            omega
        _ = 2 ^ (d :: ds).length := by
            rw [List.length_cons, pow_succ]
            ring

theorem number_eq_zero {ds : List ℤ} (hds : ∀ d ∈ ds, |d| ≤ 1) (hzero : number ds = 0) : ∀ d ∈ ds, d = 0 := by
  induction ds with
  | nil => simp
  | cons d ds ih =>
      have hrest : ∀ e ∈ ds, |e| ≤ 1 := fun e he => hds e (List.mem_cons_of_mem d he)
      have hsmall := abs_number_lt hrest
      -- the first digit alone outweighs the others
      have hfirst : d = 0 := by
        by_contra hne
        have hone : 1 ≤ |d| := Int.one_le_abs hne
        have hpos : (0 : ℤ) < 2 ^ ds.length := by positivity
        have hcancel : d * 2 ^ ds.length = - number ds := by
          rw [number] at hzero
          omega
        have habs : |d| * 2 ^ ds.length = |number ds| := by
          rw [← abs_of_pos hpos, ← abs_mul, hcancel, abs_neg]
        have hlarge := mul_le_mul_of_nonneg_right hone hpos.le
        omega
      subst hfirst
      rw [number, zero_mul, zero_add] at hzero
      intro e he
      rcases List.mem_cons.mp he with rfl | he
      · rfl
      · exact ih hrest hzero e he

/-- **A burst shows.** Signed digits that are not all 0, and those that are not within `l` places in a row, do not
weigh 0 modulo a number of at least `2 ^ l`. -/
theorem weigh_burst_ne_zero {n : Nat} {h : ZMod n} (hhalf : 2 * h = 1) {l s : Nat} (hl : 2 ^ l ≤ n) {ds : List ℤ}
    (hds : ∀ d ∈ ds, |d| ≤ 1) (hne : ∃ d ∈ ds, d ≠ 0)
    (hburst : ∀ k d, ds[k]? = some d → d ≠ 0 → s ≤ k ∧ k < s + l) : weigh h ds ≠ 0 := by
  intro hzero
  have hbefore : ∀ d ∈ ds.take s, d = 0 := by
    intro d hd
    by_contra hd0
    obtain ⟨k, hk⟩ := List.mem_iff_getElem?.mp hd
    obtain ⟨hlt, -⟩ := List.getElem?_eq_some_iff.mp hk
    rw [List.length_take] at hlt
    rw [List.getElem?_take_of_lt (by omega)] at hk
    have := hburst k d hk hd0
    omega
  have hafter : ∀ d ∈ (ds.drop s).drop l, d = 0 := by
    intro d hd
    by_contra hd0
    obtain ⟨k, hk⟩ := List.mem_iff_getElem?.mp hd
    rw [List.getElem?_drop, List.getElem?_drop] at hk
    have := hburst _ d hk hd0
    omega
  have hwindow : ∀ d ∈ (ds.drop s).take l, |d| ≤ 1 :=
    fun d hd => hds d (List.mem_of_mem_drop (List.mem_of_mem_take hd))
  have hsplit : ds = ds.take s ++ ((ds.drop s).take l ++ (ds.drop s).drop l) := by
    rw [List.take_append_drop, List.take_append_drop]
  -- what the window weighs is 0, so the number it spells is a multiple of `n`
  have hweigh : h ^ (ds.take s).length * weigh h ((ds.drop s).take l) = 0 := by
    rw [hsplit, weigh_append, weigh_append, weigh_zero h hbefore, weigh_zero h hafter, mul_zero, add_zero,
      zero_add] at hzero
    exact hzero
  have hunit : IsUnit h := IsUnit.of_mul_eq_one 2 (by rw [mul_comm]; exact hhalf)
  have hnumber : ((number ((ds.drop s).take l) : ℤ) : ZMod n) = 0 := by
    rw [← two_pow_mul_weigh hhalf, ((hunit.pow _).mul_right_eq_zero).mp hweigh, mul_zero]
  have hsmall : |number ((ds.drop s).take l)| < n := by
    calc |number ((ds.drop s).take l)|
      _ < 2 ^ ((ds.drop s).take l).length := abs_number_lt hwindow
      _ ≤ 2 ^ l := pow_le_pow_right₀ (by decide) (List.length_take_le _ _)
      _ ≤ n := by exact_mod_cast hl
  have hall := number_eq_zero hwindow
    (Int.eq_zero_of_abs_lt_dvd ((ZMod.intCast_zmod_eq_zero_iff_dvd _ n).mp hnumber) hsmall)
  obtain ⟨d, hd, hd0⟩ := hne
  rw [hsplit, List.mem_append, List.mem_append] at hd
  rcases hd with hd | hd | hd
  · exact hd0 (hbefore d hd)
  · exact hd0 (hall d hd)
  · exact hd0 (hafter d hd)

end Burst

end OnesComplement

end PulseLink
