import PulseLink.BaseOnesComplement
import PulseLink.WorkerRun

/-! The checksum of `common/checksum.c`. As long as its 32-bit accumulator holds the sum of the 16-bit words, the
checksum is the complement of that sum with end-around carry: it adds up along the payload, does not see the
order of the words, and every error of up to 15 bits in a row changes it. -/

namespace PulseLink

open Bytes OnesComplement

/-! ### The words of a payload -/

/-- The big-endian 16-bit words, an odd last byte padded with a zero low byte. -/
def words : List UInt8 → List UInt16
  | hi :: lo :: rest => word16 hi lo :: words rest
  | [hi] => [word16 hi 0]
  | [] => []

/-- Their sum, over unbounded integers. -/
def wordSum (data : List UInt8) : Nat := ((words data).map UInt16.toNat).sum

theorem wordSum_cons (hi lo : UInt8) (rest : List UInt8) :
    wordSum (hi :: lo :: rest) = (word16 hi lo).toNat + wordSum rest := List.sum_cons

theorem wordSum_single (hi : UInt8) : wordSum [hi] = (word16 hi 0).toNat := List.sum_singleton

theorem length_words (data : List UInt8) : (words data).length = (data.length + 1) / 2 := by
  induction data using words.induct with
  | case1 hi lo rest ih =>
      rw [words, List.length_cons, ih, List.length_cons, List.length_cons]
      omega
  | case2 hi => simp [words]
  | case3 => rfl

theorem wordSum_le (data : List UInt8) : wordSum data ≤ 65535 * ((data.length + 1) / 2) := by
  have hword : ∀ n ∈ (words data).map UInt16.toNat, n ≤ 65535 := by
    intro n hn
    obtain ⟨w, -, rfl⟩ := List.mem_map.mp hn
    exact Nat.le_of_lt_succ w.toNat_lt
  have hsum := List.sum_le_card_nsmul _ _ hword
  rw [List.length_map, length_words, smul_eq_mul, Nat.mul_comm] at hsum
  exact hsum

/-- The sum of 65537 words still fits. -/
theorem wordSum_lt {data : List UInt8} (hlen : data.length ≤ 131074) : wordSum data < 2 ^ 32 := by
  have hle := wordSum_le data
  omega

theorem wordSum_eq_zero_iff (data : List UInt8) : wordSum data = 0 ↔ ∀ b ∈ data, b = 0 := by
  have hbyte : ∀ b : UInt8, b.toNat = 0 ↔ b = 0 := fun b => UInt8.toNat_inj (b := 0)
  induction data using words.induct with
  | case1 hi lo rest ih =>
      have hword : (word16 hi lo).toNat = 0 ↔ hi.toNat = 0 ∧ lo.toNat = 0 := by
        rw [toNat_word16]
        omega
      rw [wordSum_cons, Nat.add_eq_zero_iff, hword, hbyte, hbyte, List.forall_mem_cons, List.forall_mem_cons,
        and_assoc]
      exact and_congr_right fun _ => and_congr_right fun _ => ih
  | case2 hi =>
      rw [wordSum_single, toNat_word16, List.forall_mem_singleton, ← hbyte hi]
      show _ * 2 ^ 8 + 0 = 0 ↔ _
      omega
  | case3 => simp [wordSum, words]

theorem words_append {p : List UInt8} (heven : p.length % 2 = 0) (q : List UInt8) :
    words (p ++ q) = words p ++ words q := by
  induction p using words.induct with
  | case1 hi lo rest ih =>
      rw [List.cons_append, List.cons_append, words, words, ih ?_]
      · rfl
      · rw [List.length_cons, List.length_cons] at heven
        omega
  | case2 hi => cases heven
  | case3 => rfl

theorem wordSum_append {p : List UInt8} (heven : p.length % 2 = 0) (q : List UInt8) :
    wordSum (p ++ q) = wordSum p + wordSum q := by
  rw [wordSum, words_append heven, List.map_append, List.sum_append]
  rfl

/-! ### The accumulator -/

theorem pad_eq (hi : UInt8) : (hi.toUInt16 <<< 8).toUInt32 = (word16 hi 0).toUInt32 := by
  rw [word16]
  simp

/-- The accumulator holds the sum of the words modulo 2^32. -/
theorem toNat_sumWords (sum : UInt32) (data : List UInt8) :
    (sumWords sum data).toNat = (sum.toNat + wordSum data) % 2 ^ 32 := by
  have hword : ∀ (sum : UInt32) (w : UInt16), (sum + w.toUInt32).toNat = (sum.toNat + w.toNat) % 2 ^ 32 := by
    intro sum w
    rw [UInt32.toNat_add, UInt16.toNat_toUInt32]
  induction data using words.induct generalizing sum with
  | case1 hi lo rest ih =>
      rw [sumWords, ih, hword, wordSum_cons, Nat.mod_add_mod, Nat.add_assoc]
  | case2 hi => rw [sumWords, pad_eq, hword, wordSum_single]
  | case3 =>
      show sum.toNat = (sum.toNat + 0) % 2 ^ 32
      rw [Nat.add_zero, Nat.mod_eq_of_lt sum.toNat_lt]

theorem toNat_sumWords_of_le {data : List UInt8} (hlen : data.length ≤ 131074) :
    (sumWords 0 data).toNat = wordSum data := by
  rw [toNat_sumWords]
  show (0 + wordSum data) % 2 ^ 32 = _
  rw [Nat.zero_add, Nat.mod_eq_of_lt (wordSum_lt hlen)]

/-! ### The carry loop -/

/-- The carry loop stands for its sum, however many turns it has made. -/
theorem foldCarry_modEq (fuel : Nat) (sum : UInt32) :
    (foldCarry fuel sum).toNat ≡ sum.toNat [MOD 65535] ∧ ((foldCarry fuel sum).toNat = 0 ↔ sum.toNat = 0) := by
  induction fuel generalizing sum with
  | zero => exact ⟨Nat.ModEq.refl _, Iff.rfl⟩
  | succ fuel ih =>
      unfold foldCarry
      split_ifs with hdone
      · exact ⟨Nat.ModEq.refl _, Iff.rfl⟩
      · obtain ⟨hmod, hzero⟩ := ih ((sum &&& (0xFFFF : UInt32)) + (sum >>> 16))
        rw [toNat_carry] at hmod hzero
        exact ⟨hmod.trans (fold_modEq 65535 _), hzero.trans (fold_eq_zero_iff 65535 _)⟩

theorem residue_foldCarry (sum : UInt32) : Residue 65535 sum.toNat (foldCarry 2 sum).toNat where
  le := Nat.le_of_lt_succ ((shift_eq_zero_iff _).mp (foldCarry_two_done sum))
  modEq := (foldCarry_modEq 2 sum).1
  zero_iff := (foldCarry_modEq 2 sum).2

/-- A loop that has ended stays where it is. -/
theorem foldCarry_done {fuel : Nat} {sum : UInt32} (hdone : foldCarry fuel sum >>> 16 = 0) (more : Nat) :
    foldCarry (fuel + more) sum = foldCarry fuel sum := by
  induction fuel generalizing sum with
  | zero =>
      cases more with
      | zero => rfl
      | succ more =>
          rw [foldCarry] at hdone
          rw [Nat.zero_add, foldCarry, foldCarry, if_pos hdone]
  | succ fuel ih =>
      rw [Nat.add_right_comm]
      simp only [foldCarry] at hdone ⊢
      split_ifs with hsum
      · rfl
      · rw [if_neg hsum] at hdone
        exact ih hdone

/-! ### The checksum -/

/-- The sum behind the checksum, with end-around carry. -/
def carrySum (data : List UInt8) : UInt16 := ~~~ plChecksum data

theorem toNat_carrySum (data : List UInt8) : (carrySum data).toNat = (foldCarry 2 (sumWords 0 data)).toNat := by
  have hlt := (shift_eq_zero_iff _).mp (foldCarry_two_done (sumWords 0 data))
  rw [carrySum, plChecksum, UInt16.not_not, UInt32.toNat_toUInt16, Nat.mod_eq_of_lt hlt]

theorem toNat_plChecksum (data : List UInt8) : (plChecksum data).toNat = 65535 - (carrySum data).toNat := by
  have hlt := (plChecksum data).toNat_lt
  rw [carrySum, UInt16.toNat_not]
  show _ = 65535 - (65536 - 1 - (plChecksum data).toNat)
  omega

theorem residue_carrySum {data : List UInt8} (hlen : data.length ≤ 131074) :
    Residue 65535 (wordSum data) (carrySum data).toNat := by
  rw [toNat_carrySum, ← toNat_sumWords_of_le hlen]
  exact residue_foldCarry _

/-- **`pl_checksum` is the complement of the sum over unbounded integers.** For up to 131074 bytes the accumulator
never wraps: after any number of words it holds their sum. The carry loop ends, after at most two turns. The
result is `0xFFFF - r` for the number `r` up to 65535 that is congruent to the sum of the words modulo 65535 and
is 0 exactly if all bytes are; for any other multiple of 65535 it is 65535. -/
theorem checksum_is_word_sum (data : List UInt8) (hlen : data.length ≤ 131074) :
    (∀ k, (sumWords 0 (data.take (2 * k))).toNat = wordSum (data.take (2 * k))) ∧
      (sumWords 0 data).toNat = wordSum data ∧
      foldCarry 2 (sumWords 0 data) >>> 16 = 0 ∧
      (∀ fuel, 2 ≤ fuel → foldCarry fuel (sumWords 0 data) = foldCarry 2 (sumWords 0 data)) ∧
      ∃ r, (plChecksum data).toNat = 0xFFFF - r ∧
        (r ≤ 65535 ∧ r ≡ wordSum data [MOD 65535] ∧ (r = 0 ↔ ∀ b ∈ data, b = 0)) ∧
        (65535 ∣ wordSum data → wordSum data ≠ 0 → r = 65535) ∧
        ∀ r', r' ≤ 65535 → r' ≡ wordSum data [MOD 65535] → (r' = 0 ↔ ∀ b ∈ data, b = 0) → r' = r := by
  have hresidue := residue_carrySum hlen
  refine ⟨?_, toNat_sumWords_of_le hlen, foldCarry_two_done _, ?_, (carrySum data).toNat, toNat_plChecksum data,
    ⟨hresidue.le, hresidue.modEq, hresidue.zero_iff.trans (wordSum_eq_zero_iff data)⟩, hresidue.eq_top, ?_⟩
  · intro k
    exact toNat_sumWords_of_le ((List.length_take_le' _ _).trans hlen)
  · intro fuel hfuel
    obtain ⟨more, rfl⟩ := Nat.exists_eq_add_of_le hfuel
    exact foldCarry_done (foldCarry_two_done _) more
  · intro r' hle hmod hzero
    have hresidue' : Residue 65535 (wordSum data) r' :=
      ⟨hle, hmod, hzero.trans (wordSum_eq_zero_iff data).symm⟩
    exact hresidue'.unique hresidue (Nat.ModEq.refl _) Iff.rfl

/-- An odd payload of three bytes. -/
theorem checksum_is_word_sum_odd :
    (plChecksum [0x12, 0x34, 0x56]).toNat = 0xFFFF - 0x6834 ∧ wordSum [0x12, 0x34, 0x56] = 0x6834 := by
  have hsum : wordSum [0x12, 0x34, 0x56] = 0x6834 := by decide
  obtain ⟨-, -, -, -, r, hchecksum, hr, -, hunique⟩ := checksum_is_word_sum [0x12, 0x34, 0x56] (by decide)
  have hvalue : 0x6834 = r := hunique 0x6834 (by decide) (by rw [hsum]) (by decide)
  exact ⟨hvalue ▸ hchecksum, hsum⟩

/-! ### Sums of payloads -/

/-- The sum of two words with end-around carry. -/
def addCarry (a b : UInt16) : UInt16 := if a.toNat + b.toNat ≤ 0xFFFF then a + b else a + b + 1

theorem toNat_addCarry (a b : UInt16) : (addCarry a b).toNat = carryAdd 65535 a.toNat b.toNat := by
  have ha := a.toNat_lt
  have hb := b.toNat_lt
  unfold addCarry carryAdd
  split_ifs with hfits
  · rw [UInt16.toNat_add, Nat.mod_eq_of_lt (by omega)]
  · rw [UInt16.toNat_add, UInt16.toNat_add]
    show ((a.toNat + b.toNat) % 2 ^ 16 + 1) % 2 ^ 16 = _
    omega

theorem carrySum_append {p q : List UInt8} (heven : p.length % 2 = 0) (hlen : p.length + q.length ≤ 131074) :
    carrySum (p ++ q) = addCarry (carrySum p) (carrySum q) := by
  have hp : Residue 65535 (wordSum p) (carrySum p).toNat := residue_carrySum (by omega)
  have hq : Residue 65535 (wordSum q) (carrySum q).toNat := residue_carrySum (by omega)
  have hpq : Residue 65535 (wordSum (p ++ q)) (carrySum (p ++ q)).toNat :=
    residue_carrySum (by rw [List.length_append]; exact hlen)
  rw [wordSum_append heven] at hpq
  rw [← UInt16.toNat_inj, toNat_addCarry]
  exact hpq.unique (hp.add hq) (Nat.ModEq.refl _) Iff.rfl

/-- The checksum sees the sum of the words only. -/
theorem plChecksum_congr {data data' : List UInt8} (hsum : wordSum data = wordSum data') :
    plChecksum data = plChecksum data' := by
  have hacc : sumWords 0 data = sumWords 0 data' := by
    rw [← UInt32.toNat_inj, toNat_sumWords, toNat_sumWords, hsum]
  rw [plChecksum, plChecksum, hacc]

theorem wordSum_perm {p p' : List UInt8} (hperm : (words p').Perm (words p)) : wordSum p' = wordSum p :=
  (hperm.map UInt16.toNat).sum_eq

theorem wordSum_be16 (c : UInt16) : wordSum (be16 c) = c.toNat := by
  rw [be16, wordSum_cons, word16_split]
  rfl

/-- Adding its complement to a sum that is kept in 32 bits brings it to the next multiple of 65535, and never
past 2^32. -/
theorem add_complement {A f : Nat} (hA : A < 2 ^ 32) (hf : Residue 65535 A f) :
    65535 ∣ A + (65535 - f) ∧ A + (65535 - f) < 2 ^ 32 ∧ A + (65535 - f) ≠ 0 := by
  have hle := hf.le
  have hzero := hf.zero_iff
  have hmod : f % 65535 = A % 65535 := hf.modEq
  refine ⟨?_, ?_, ?_⟩
  · rw [Nat.dvd_iff_mod_eq_zero]
    omega
  · omega
  · omega

/-- No length is too long for this: the accumulator may have wrapped. -/
theorem plChecksum_self {p : List UInt8} (heven : p.length % 2 = 0) :
    plChecksum (p ++ be16 (plChecksum p)) = 0 := by
  have hresidue := residue_foldCarry (sumWords 0 p)
  obtain ⟨hdvd, hlt, hne⟩ := add_complement (sumWords 0 p).toNat_lt hresidue
  have hacc : (sumWords 0 (p ++ be16 (plChecksum p))).toNat =
      (sumWords 0 p).toNat + (65535 - (foldCarry 2 (sumWords 0 p)).toNat) := by
    calc (sumWords 0 (p ++ be16 (plChecksum p))).toNat
      _ = (wordSum p + (plChecksum p).toNat) % 2 ^ 32 := by
          rw [toNat_sumWords, wordSum_append heven, wordSum_be16]
          exact congrArg (· % 2 ^ 32) (Nat.zero_add _)
      _ = ((sumWords 0 p).toNat + (plChecksum p).toNat) % 2 ^ 32 := by
          rw [toNat_sumWords 0 p, Nat.mod_add_mod]
          exact congrArg (fun n => (n + (plChecksum p).toNat) % 2 ^ 32) (Nat.zero_add _).symm
      _ = (sumWords 0 p).toNat + (65535 - (foldCarry 2 (sumWords 0 p)).toNat) := by
          rw [toNat_plChecksum, toNat_carrySum, Nat.mod_eq_of_lt hlt]
  have htop := (residue_foldCarry (sumWords 0 (p ++ be16 (plChecksum p)))).eq_top (hacc ▸ hdvd) (hacc ▸ hne)
  rw [← UInt16.toNat_inj, toNat_plChecksum, toNat_carrySum, htop]
  rfl

/-- **The checksum is additive and verifies itself.** Behind an even number of bytes, up to 131074 bytes in all,
the complement of the checksum is the end-around-carry sum of the complements for the parts. The checksum does
not depend on the order of the words, and a payload with its own checksum as its last word has checksum 0; both
hold for payloads of any length. -/
theorem checksum_additive (p q : List UInt8) (heven : p.length % 2 = 0) :
    (p.length + q.length ≤ 131074 →
      ~~~ plChecksum (p ++ q) = addCarry (~~~ plChecksum p) (~~~ plChecksum q)) ∧
    (∀ p' : List UInt8, p'.length % 2 = 0 → (words p').Perm (words p) →
      plChecksum (p' ++ q) = plChecksum (p ++ q)) ∧
    plChecksum (p ++ be16 (plChecksum p)) = 0 := by
  refine ⟨carrySum_append heven, ?_, plChecksum_self heven⟩
  intro p' heven' hperm
  apply plChecksum_congr
  rw [wordSum_append heven', wordSum_append heven, wordSum_perm hperm]

/-- Two words, swapped, and a last byte. -/
theorem checksum_additive_swapped :
    plChecksum [0x56, 0x78, 0x12, 0x34, 0x9A] = plChecksum [0x12, 0x34, 0x56, 0x78, 0x9A] ∧
      plChecksum ([0x12, 0x34, 0x56, 0x78] ++ be16 (plChecksum [0x12, 0x34, 0x56, 0x78])) = 0 := by
  have hadd := checksum_additive [0x12, 0x34, 0x56, 0x78] [0x9A] (by decide)
  exact ⟨hadd.2.1 [0x56, 0x78, 0x12, 0x34] (by decide) (by decide), hadd.2.2⟩

/-! ### Bits on the line -/

/-- The bits of a byte, the most significant one first. -/
def byteBits (b : UInt8) : List Bool := (List.range 8).map fun j => b.toNat.testBit (7 - j)

def bitsOf (data : List UInt8) : List Bool := data.flatMap byteBits

/-- The bits as digits. -/
def digitsOf (data : List UInt8) : List ℤ := (bitsOf data).map fun b => (b.toNat : ℤ)

/-- The payload with the bits of the mask flipped. -/
def corrupt (payload mask : List UInt8) : List UInt8 := List.zipWith (fun b m => b ^^^ m) payload mask

theorem length_byteBits (b : UInt8) : (byteBits b).length = 8 := rfl

theorem digitsOf_cons (b : UInt8) (rest : List UInt8) : digitsOf (b :: rest) = digitsOf [b] ++ digitsOf rest := by
  simp [digitsOf, bitsOf]

theorem length_digitsOf (b : UInt8) : (digitsOf [b]).length = 8 := rfl

theorem number_digitsOf (b : UInt8) : number (digitsOf [b]) = b.toNat := by
  have hbits := number_bits b.toNat 8
  rw [Nat.mod_eq_of_lt b.toNat_lt] at hbits
  exact hbits

/-- Half, modulo 65535. -/
def half : ZMod 65535 := 32768

theorem two_mul_half : 2 * half = 1 := by decide

theorem two_pow_word : (2 : ZMod 65535) ^ 16 = 1 := by decide

theorem half_pow_word : half ^ 16 = 1 := by decide

/-- The sum of the words, bit by bit. -/
theorem wordSum_eq_weigh (data : List UInt8) : (wordSum data : ZMod 65535) = weigh half (digitsOf data) := by
  induction data using words.induct with
  | case1 hi lo rest ih =>
      have hword : weigh half (digitsOf [hi] ++ digitsOf [lo]) = ((word16 hi lo).toNat : ZMod 65535) := by
        have hnumber := two_pow_mul_weigh two_mul_half (digitsOf [hi] ++ digitsOf [lo])
        rw [number_append, number_digitsOf, number_digitsOf, List.length_append, length_digitsOf,
          length_digitsOf, two_pow_word, one_mul] at hnumber
        rw [hnumber, toNat_word16]
        push_cast
        rfl
      rw [wordSum_cons, Nat.cast_add, ih, digitsOf_cons, digitsOf_cons lo, ← List.append_assoc, weigh_append,
        hword, List.length_append, length_digitsOf, length_digitsOf, half_pow_word, one_mul]
  | case2 hi =>
      have hnumber := two_pow_mul_weigh two_mul_half (digitsOf [hi])
      rw [number_digitsOf, length_digitsOf] at hnumber
      calc (wordSum [hi] : ZMod 65535)
        _ = 2 ^ 8 * hi.toNat := by
            rw [wordSum_single, toNat_word16]
            push_cast
            ring
        _ = 2 ^ 16 * weigh half (digitsOf [hi]) := by
            rw [← Int.cast_natCast, ← hnumber]
            ring
        _ = weigh half (digitsOf [hi]) := by rw [two_pow_word, one_mul]
  | case3 => simp [wordSum, words, digitsOf, bitsOf, weigh]

/-! ### Errors -/

theorem byteBits_xor (b m : UInt8) :
    byteBits (b ^^^ m) = List.zipWith (fun x y => x ^^ y) (byteBits b) (byteBits m) := by
  rw [byteBits, byteBits, byteBits, List.zipWith_map, List.zipWith_self]
  refine List.map_congr_left fun j _ => ?_
  rw [UInt8.toNat_xor, Nat.testBit_xor]

theorem bitsOf_corrupt {payload mask : List UInt8} (hlen : mask.length = payload.length) :
    bitsOf (corrupt payload mask) = List.zipWith (fun x y => x ^^ y) (bitsOf payload) (bitsOf mask) := by
  induction payload generalizing mask with
  | nil => rw [List.length_eq_zero_iff.mp hlen]; rfl
  | cons b payload ih =>
      cases mask with
      | nil => cases hlen
      | cons m mask =>
          have hrest := ih (Nat.succ.inj hlen)
          simp only [bitsOf, corrupt, List.zipWith_cons_cons, List.flatMap_cons] at hrest ⊢
          rw [hrest, byteBits_xor, List.zipWith_append (by rw [length_byteBits, length_byteBits])]

/-- What flipping a bit adds to its digit. -/
def flipped (bit mask : Bool) : ℤ := ((bit ^^ mask).toNat : ℤ) - bit.toNat

theorem flipped_ne_zero_iff {bit mask : Bool} : flipped bit mask ≠ 0 ↔ mask = true := by
  cases bit <;> cases mask <;> decide

theorem abs_flipped_le (bit mask : Bool) : |flipped bit mask| ≤ 1 := by
  cases bit <;> cases mask <;> decide

theorem digits_sub (bs ms : List Bool) :
    List.zipWith (fun d e => d - e) ((List.zipWith (fun x y => x ^^ y) bs ms).map fun b => (b.toNat : ℤ))
      (bs.map fun b => (b.toNat : ℤ)) = List.zipWith flipped bs ms := by
  induction bs generalizing ms with
  | nil => rfl
  | cons b bs ih =>
      cases ms with
      | nil => rfl
      | cons m ms => exact congrArg (flipped b m :: ·) (ih ms)

theorem length_bitsOf (data : List UInt8) : (bitsOf data).length = 8 * data.length := by
  induction data with
  | nil => rfl
  | cons b data ih =>
      rw [bitsOf, List.flatMap_cons, List.length_append, length_byteBits, List.length_cons, Nat.mul_succ,
        Nat.add_comm]
      exact congrArg (· + 8) ih

theorem true_mem_bitsOf {mask : List UInt8} (hne : ∃ m ∈ mask, m ≠ 0) : true ∈ bitsOf mask := by
  obtain ⟨m, hm, hm0⟩ := hne
  have hnat : m.toNat ≠ 0 := fun h => hm0 (UInt8.toNat_inj.mp h)
  obtain ⟨i, hi⟩ := Nat.exists_testBit_of_ne_zero hnat
  have hlt : i < 8 := by
    by_contra hge
    rw [Nat.testBit_lt_two_pow (m.toNat_lt.trans_le (Nat.pow_le_pow_right (by decide) (Nat.not_lt.mp hge)))] at hi
    cases hi
  refine List.mem_flatMap.mpr ⟨m, hm, List.mem_map.mpr ⟨7 - i, List.mem_range.mpr (by omega), ?_⟩⟩
  rw [Nat.sub_sub_self (by omega)]
  exact hi

section Burst

variable {payload mask : List UInt8} (hmask : mask.length = payload.length) (hne : ∃ m ∈ mask, m ≠ 0) {s : Nat}
  (hburst : ∀ k, (bitsOf mask)[k]? = some true → s ≤ k ∧ k < s + 15)

include hmask hne hburst

/-- Up to 15 flipped bits in a row change the sum of the words modulo 65535. -/
theorem wordSum_corrupt_ne : ¬ wordSum (corrupt payload mask) ≡ wordSum payload [MOD 65535] := by
  have hlen : (bitsOf payload).length = (bitsOf mask).length := by
    rw [length_bitsOf, length_bitsOf, hmask]
  have hdigits : ∀ d ∈ List.zipWith flipped (bitsOf payload) (bitsOf mask), |d| ≤ 1 := by
    intro d hd
    obtain ⟨k, hk⟩ := List.mem_iff_getElem?.mp hd
    obtain ⟨bit, m, -, -, rfl⟩ := List.getElem?_zipWith_eq_some.mp hk
    exact abs_flipped_le bit m
  have hwithin : ∀ k d, (List.zipWith flipped (bitsOf payload) (bitsOf mask))[k]? = some d → d ≠ 0 →
      s ≤ k ∧ k < s + 15 := by
    intro k d hk hd
    obtain ⟨bit, m, -, hm, rfl⟩ := List.getElem?_zipWith_eq_some.mp hk
    rw [flipped_ne_zero_iff] at hd
    exact hburst k (hd ▸ hm)
  have hsome : ∃ d ∈ List.zipWith flipped (bitsOf payload) (bitsOf mask), d ≠ 0 := by
    obtain ⟨k, hk⟩ := List.mem_iff_getElem?.mp (true_mem_bitsOf hne)
    obtain ⟨hlt, -⟩ := List.getElem?_eq_some_iff.mp hk
    have hbit := List.getElem?_eq_getElem (hlen ▸ hlt)
    exact ⟨_, List.mem_iff_getElem?.mpr ⟨k, List.getElem?_zipWith_eq_some.mpr ⟨_, true, hbit, hk, rfl⟩⟩,
      flipped_ne_zero_iff.mpr rfl⟩
  intro hmod
  refine weigh_burst_ne_zero two_mul_half (show 2 ^ 15 ≤ 65535 by decide) hdigits hsome hwithin ?_
  have hsame := (ZMod.natCast_eq_natCast_iff _ _ 65535).mpr hmod
  rw [wordSum_eq_weigh, wordSum_eq_weigh] at hsame
  have hsub : (digitsOf (corrupt payload mask)).length = (digitsOf payload).length := by
    rw [digitsOf, digitsOf, List.length_map, List.length_map, bitsOf_corrupt hmask, List.length_zipWith, hlen,
      Nat.min_self]
  rw [← digits_sub, ← bitsOf_corrupt hmask]
  exact (weigh_sub half hsub).trans (sub_eq_zero.mpr hsame)

end Burst

/-- **Every burst of up to 15 bits is detected.** If the set bits of a mask that is not zero lie within 15
consecutive bits of the payload, the most significant bit of each byte first, then the payload with those bits
flipped has another checksum; against a header with the checksum of the original, the worker strikes it out. -/
theorem burst_detected (payload mask : List UInt8) (hlen : payload.length ≤ 65535)
    (hmask : mask.length = payload.length) (hne : ∃ m ∈ mask, m ≠ 0) (s : Nat)
    (hburst : ∀ k, (bitsOf mask)[k]? = some true → s ≤ k ∧ k < s + 15) :
    plChecksum (corrupt payload mask) ≠ plChecksum payload ∧
      ∀ (cfg : Config) (l : Locals) (h : PlHeader), payload.length = h.payloadLen.toNat →
        payload.length ≤ 1100 → h.checksum = plChecksum payload →
        checkPayload cfg (l.received (corrupt payload mask)) h =
          strikeOut cfg (l.received (corrupt payload mask)) h .badChecksum := by
  have hlength : (corrupt payload mask).length = payload.length := by
    rw [corrupt, List.length_zipWith, hmask, Nat.min_self]
  have hchecksum : plChecksum (corrupt payload mask) ≠ plChecksum payload := by
    intro hsame
    have hresidue : Residue 65535 _ (carrySum (corrupt payload mask)).toNat := residue_carrySum (by omega)
    have hresidue' : Residue 65535 _ (carrySum payload).toNat := residue_carrySum (by omega)
    rw [carrySum, hsame] at hresidue
    exact wordSum_corrupt_ne hmask hne hburst (hresidue.modEq.symm.trans hresidue'.modEq)
  refine ⟨hchecksum, ?_⟩
  intro cfg l h hplen hfits hheader
  rw [checkPayload_received cfg l (hlength.trans hplen) (hlength.trans_le hfits), hheader]
  exact if_pos hchecksum

/-- The last bit of an odd payload, flipped. -/
theorem burst_detected_lastBit :
    plChecksum [0x12, 0x34, 0x57] ≠ plChecksum [0x12, 0x34, 0x56] := by
  have hbits : bitsOf [0, 0, 1] = List.replicate 23 false ++ [true] := by decide
  refine (burst_detected [0x12, 0x34, 0x56] [0, 0, 1] (by decide) rfl (by decide) 23 ?_).1
  rw [hbits]
  intro k hk
  rcases Nat.lt_or_ge k 23 with hlt | hge
  · rw [List.getElem?_append_left (by simpa using hlt), List.getElem?_replicate_of_lt hlt] at hk
    cases hk
  · obtain ⟨hlt, -⟩ := List.getElem?_eq_some_iff.mp hk
    rw [List.length_append, List.length_replicate, List.length_singleton] at hlt
    omega

end PulseLink
