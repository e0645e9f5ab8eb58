import Mathlib

/-! The conversions of `printf` for numbers, as lists of characters, and the number that a decimal text denotes:
blanks, a sign, digits, and digits behind a point. A text made of a padded integer, a point and digits denotes
the integer with the digits as its decimals, and has the sign of the integer. -/

namespace PulseLink

namespace Printf

/-! ### Conversions -/

/-- Blanks in front up to a width. -/
def padLeft (width : Nat) (s : List Char) : List Char := List.replicate (width - s.length) ' ' ++ s

/-- Blanks behind up to a width, as for `%-7s`. -/
def padRight (width : Nat) (s : List Char) : List Char := s ++ List.replicate (width - s.length) ' '

/-- `%u`. -/
def unsigned (n : Nat) : List Char := Nat.toDigits 10 n

def sign (z : Int) : List Char := if z < 0 then ['-'] else []

/-- `%d`. -/
def decimal (z : Int) : List Char := sign z ++ unsigned z.natAbs

/-- `%02d` and the like: zeros between the sign and the digits. -/
def zeroDecimal (width : Nat) (z : Int) : List Char :=
  sign z ++ (List.replicate (width - (decimal z).length) '0' ++ unsigned z.natAbs)

/-- `%08X` and the like. -/
def zeroHex (width n : Nat) : List Char :=
  List.replicate (width - (Nat.toDigits 16 n).length) '0' ++ (Nat.toDigits 16 n).map Char.toUpper

/-! ### The number a text denotes -/

def value? (digits : List Char) : Option ℚ :=
  if digits ≠ [] ∧ digits.all Char.isDigit then some (Nat.ofDigitChars 10 digits 0) else none

/-- Digits, or digits on both sides of a point. -/
def unsignedValue (s : List Char) : Option ℚ :=
  let whole := s.takeWhile Char.isDigit
  match s.dropWhile Char.isDigit with
  | [] => value? whole
  | '.' :: decimals => do
      let n ← value? whole
      let d ← value? decimals
      return n + d / 10 ^ decimals.length
  | _ :: _ => none

/-- A number with a sign in front. -/
def signedValue : List Char → Option ℚ
  | '-' :: rest => (unsignedValue rest).map (- ·)
  | s => unsignedValue s

/-- A number with blanks in front. -/
def value (s : List Char) : Option ℚ := signedValue (s.dropWhile (· = ' '))

/-! ### Reading what was written -/

theorem isDigit_unsigned {n : Nat} {c : Char} (hc : c ∈ unsigned n) : c.isDigit = true :=
  Nat.isDigit_of_mem_toDigits (by decide) (by decide) hc

theorem value?_zeros_unsigned (k n : Nat) : value? (List.replicate k '0' ++ unsigned n) = some (n : ℚ) := by
  have hne : List.replicate k '0' ++ unsigned n ≠ [] := List.append_ne_nil_of_right_ne_nil _ Nat.toDigits_ne_nil
  have hall : (List.replicate k '0' ++ unsigned n).all Char.isDigit = true := by
    rw [List.all_eq_true]
    intro c hc
    rcases List.mem_append.mp hc with hzero | hdigit
    · rw [List.eq_of_mem_replicate hzero]
      rfl
    · exact isDigit_unsigned hdigit
  rw [value?, if_pos ⟨hne, hall⟩, Nat.ofDigitChars_append, Nat.ofDigitChars_replicate_zero, Nat.mul_zero, unsigned,
    Nat.ofDigitChars_ten_toDigits]

theorem value?_unsigned (n : Nat) : value? (unsigned n) = some (n : ℚ) := value?_zeros_unsigned 0 n

section Point

variable {decimals : List Char} {d : ℚ}

/-- The digits in front of the point end there. -/
theorem unsignedValue_point (n : Nat) (hd : value? decimals = some d) :
    unsignedValue (unsigned n ++ '.' :: decimals) = some (n + d / 10 ^ decimals.length) := by
  have hdigits : ∀ c ∈ unsigned n, c.isDigit = true := fun c hc => isDigit_unsigned hc
  have htake : (unsigned n ++ '.' :: decimals).takeWhile Char.isDigit = unsigned n := by
    rw [List.takeWhile_append_of_pos hdigits]
    exact List.append_nil _
  have hdrop : (unsigned n ++ '.' :: decimals).dropWhile Char.isDigit = '.' :: decimals := by
    rw [List.dropWhile_append_of_pos hdigits]
    rfl
  rw [unsignedValue]
  simp only [htake, hdrop, value?_unsigned, hd]
  rfl

theorem value_padLeft (width : Nat) (s t : List Char) : value (padLeft width s ++ t) = value (s ++ t) := by
  rw [value, padLeft, List.append_assoc, List.dropWhile_append_of_pos, value]
  intro c hc
  rw [List.eq_of_mem_replicate hc]
  rfl

/-- A text that starts with a digit has no sign. -/
theorem value_unsigned (n : Nat) (t : List Char) : value (unsigned n ++ t) = unsignedValue (unsigned n ++ t) := by
  obtain ⟨c, cs, hcs⟩ := List.exists_cons_of_ne_nil (Nat.toDigits_ne_nil (n := n) (b := 10))
  have hdigit : c.isDigit = true := isDigit_unsigned (n := n) (by rw [unsigned, hcs]; exact List.mem_cons_self)
  have hblank : c ≠ ' ' := by
    rintro rfl
    cases hdigit
  have hminus : c ≠ '-' := by
    rintro rfl
    cases hdigit
  rw [unsigned, hcs, List.cons_append, value, List.dropWhile_cons_of_neg (by simpa using hblank), signedValue]
  intro rest heq
  exact hminus (List.cons.inj heq).1

/-- A padded integer, a point and digits denote the integer with these decimals; the sign is the integer's. -/
theorem value_decimal_point (width : Nat) (z : Int) (hd : value? decimals = some d) :
    value (padLeft width (decimal z) ++ '.' :: decimals) =
      some ((if z < 0 then -1 else 1) * (z.natAbs + d / 10 ^ decimals.length)) := by
  rw [value_padLeft, decimal, sign, List.append_assoc]
  split_ifs with hneg
  · show (unsignedValue (unsigned z.natAbs ++ '.' :: decimals)).map (- ·) = _
    rw [unsignedValue_point _ hd, Option.map_some, neg_one_mul]
  · rw [List.nil_append, value_unsigned, unsignedValue_point _ hd, one_mul]

example : value (padLeft 5 (decimal (-12)) ++ '.' :: "05".toList) = some (-1205 / 100) := by decide +kernel

end Point

section ZeroDecimal

variable {width n : Nat}

theorem zeroDecimal_natCast (width n : Nat) :
    zeroDecimal width n = List.replicate (width - (unsigned n).length) '0' ++ unsigned n := by
  have hsign : sign n = [] := if_neg (by omega)
  rw [zeroDecimal, decimal, hsign, List.nil_append, List.nil_append, Int.natAbs_natCast]

theorem value?_zeroDecimal (width n : Nat) : value? (zeroDecimal width n) = some (n : ℚ) := by
  rw [zeroDecimal_natCast, value?_zeros_unsigned]

theorem length_zeroDecimal (hwidth : 0 < width) (hn : n < 10 ^ width) : (zeroDecimal width n).length = width := by
  have hlen : (unsigned n).length ≤ width := (Nat.length_toDigits_le_iff (by decide) hwidth).mpr hn
  rw [zeroDecimal_natCast, List.length_append, List.length_replicate]
  omega

end ZeroDecimal

end Printf

end PulseLink
