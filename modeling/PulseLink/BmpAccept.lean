import PulseLink.Bmp

/-! What `bmp_read` accepts. The file may be any bytes: the headers are checked, the dimensions capped, and every row
read whole or not at all. An accepted file holds the picture that is returned, and every file that holds a picture is
accepted, whatever else it contains. -/

namespace PulseLink

open Bytes

/-! ### Rows -/

/-- The rows below `y` stored from the bottom up, as the row loop does when no read is short. -/
def rowsRead (w stride : Nat) : Nat → List UInt8 → List UInt8 → List UInt8
  | 0, _, pix => pix
  | y + 1, data, pix => rowsRead w stride y (data.drop stride) (storeAt pix (y * w) (data.take w))

/-- The row loop succeeds if the data are long enough. -/
theorem readRows_eq (w padlen y : Nat) (data pix : List UInt8) :
    readRows w padlen y data pix =
      if y * (w + padlen) ≤ data.length then some (rowsRead w (w + padlen) y data pix) else none := by
  induction y generalizing data pix with
  | zero => rw [Nat.zero_mul, if_pos (Nat.zero_le _), readRows, rowsRead]
  | succ y ih =>
      have hsucc : (y + 1) * (w + padlen) = y * (w + padlen) + (w + padlen) := Nat.succ_mul _ _
      rw [readRows]
      by_cases hshort : data.length < w + padlen
      · rw [if_neg (show ¬ (y + 1) * (w + padlen) ≤ data.length by omega)]
        split_ifs with hrow hpad
        · rfl
        · rfl
        · rw [List.length_drop] at hpad
          omega
      · have hpad : ¬ (padlen ≠ 0 ∧ (data.drop w).length < padlen) := by
          rw [List.length_drop]
          omega
        rw [if_neg (by omega), if_neg hpad, List.drop_drop, ih, rowsRead, List.length_drop]
        by_cases hrest : y * (w + padlen) ≤ data.length - (w + padlen)
        · rw [if_pos hrest, if_pos (show (y + 1) * (w + padlen) ≤ data.length by omega)]
        · rw [if_neg hrest, if_neg (show ¬ (y + 1) * (w + padlen) ≤ data.length by omega)]

theorem length_rowsRead {w stride y : Nat} (hstride : w ≤ stride) {data pix : List UInt8}
    (hdata : y * stride ≤ data.length) (hpix : y * w ≤ pix.length) :
    (rowsRead w stride y data pix).length = pix.length := by
  induction y generalizing data pix with
  | zero => rfl
  | succ y ih =>
      have hsucc : (y + 1) * stride = y * stride + stride := Nat.succ_mul _ _
      have hsucc' : (y + 1) * w = y * w + w := Nat.succ_mul _ _
      have htake : (data.take w).length = w := by
        rw [List.length_take]
        omega
      have hstore : (storeAt pix (y * w) (data.take w)).length = pix.length := length_storeAt _ _ _ (by omega)
      rw [rowsRead, ih]
      · exact hstore
      · rw [List.length_drop]
        omega
      · omega

section Pixels

variable {w stride y : Nat} {data pix : List UInt8}

/-- Storing one row, when the data and the image have room for it. -/
theorem storeRow_getElem? (hdata : w ≤ data.length) (hpix : (y + 1) * w ≤ pix.length) (i : Nat) :
    (storeAt pix (y * w) (data.take w))[i]? =
      if y * w ≤ i ∧ i < (y + 1) * w then data[i - y * w]? else pix[i]? := by
  have hsucc : (y + 1) * w = y * w + w := Nat.succ_mul _ _
  have htake : (data.take w).length = w := List.length_take_of_le hdata
  rw [storeAt_getElem? _ _ _ (by omega), htake, ← hsucc]
  by_cases hrow : y * w ≤ i ∧ i < (y + 1) * w
  · rw [if_pos hrow, if_pos hrow, List.getElem?_take_of_lt (by omega)]
  · rw [if_neg hrow, if_neg hrow]

theorem rowsRead_getElem?_above (hstride : w ≤ stride) (hdata : y * stride ≤ data.length)
    (hpix : y * w ≤ pix.length) {i : Nat} (hi : y * w ≤ i) : (rowsRead w stride y data pix)[i]? = pix[i]? := by
  induction y generalizing data pix with
  | zero => rfl
  | succ y ih =>
      have hsucc : (y + 1) * stride = y * stride + stride := Nat.succ_mul _ _
      have hsucc' : (y + 1) * w = y * w + w := Nat.succ_mul _ _
      have hlength : (storeAt pix (y * w) (data.take w)).length = pix.length :=
        length_storeAt _ _ _ (by rw [List.length_take]; omega)
      rw [rowsRead, ih (by rw [List.length_drop]; omega) (by omega) (by omega),
        storeRow_getElem? (by omega) hpix, if_neg (by omega)]

/-- Every stored pixel is the byte at its place in the data. -/
theorem rowsRead_getElem? (hstride : w ≤ stride) (hdata : y * stride ≤ data.length) (hpix : y * w ≤ pix.length)
    {x r : Nat} (hx : x < w) (hr : r < y) :
    (rowsRead w stride y data pix)[r * w + x]? = data[(y - 1 - r) * stride + x]? := by
  induction y generalizing data pix with
  | zero => exact absurd hr (Nat.not_lt_zero r)
  | succ y ih =>
      have hsucc : (y + 1) * stride = y * stride + stride := Nat.succ_mul _ _
      have hsucc' : (y + 1) * w = y * w + w := Nat.succ_mul _ _
      have hlength : (storeAt pix (y * w) (data.take w)).length = pix.length :=
        length_storeAt _ _ _ (by rw [List.length_take]; omega)
      have hrest : y * stride ≤ (data.drop stride).length := by
        rw [List.length_drop]
        omega
      rw [rowsRead]
      rcases Nat.lt_or_ge r y with hbelow | hlast
      · rw [ih hrest (by omega) hbelow, List.getElem?_drop]
        congr 1
        obtain ⟨d, rfl⟩ : ∃ d, y = r + 1 + d := ⟨y - (r + 1), by omega⟩
        rw [show r + 1 + d - 1 - r = d by omega, show r + 1 + d + 1 - 1 - r = d + 1 by omega, Nat.succ_mul]
        omega
      · obtain rfl : r = y := by omega
        rw [rowsRead_getElem?_above hstride hrest (by omega) (Nat.le_add_right _ _),
          storeRow_getElem? (by omega) hpix, if_pos ⟨Nat.le_add_right _ _, by omega⟩]
        congr 1
        rw [show r + 1 - 1 - r = 0 by omega]
        omega

end Pixels

/-! ### Files -/

/-- The file holds the picture: its headers say so, and its rows are there. -/
structure BmpHolds (file : List UInt8) (p : Picture) : Prop where
  headers : 54 ≤ file.length
  magic : file.getD 0 0 = 0x42 ∧ file.getD 1 0 = 0x4D
  bpp : rdLe16 file 28 = 8
  width : (rdLe32 file 18).toNat = p.w
  height : (rdLe32 file 22).toNat = p.h
  rows : (rdLe32 file 10).toNat + p.stride * p.h ≤ file.length
  pixels : ∀ x y, x < p.w → y < p.h →
    file[(rdLe32 file 10).toNat + ((p.h - 1 - y) * p.stride + x)]? = p.pix[y * p.w + x]?

/-- The fields of the headers are read from the first 54 bytes. -/
theorem headers_take {file : List UInt8} (hlen : 54 ≤ file.length) :
    (file.take 54).length = 54 ∧ (file.take 54).getD 0 0 = file.getD 0 0 ∧
      (file.take 54).getD 1 0 = file.getD 1 0 ∧ rdLe32 (file.take 54) 10 = rdLe32 file 10 ∧
      rdLe32 (file.take 54) 18 = rdLe32 file 18 ∧ rdLe32 (file.take 54) 22 = rdLe32 file 22 ∧
      rdLe16 (file.take 54) 28 = rdLe16 file 28 := by
  have hget : ∀ i, i < 54 → (file.take 54).getD i 0 = file.getD i 0 := by
    intro i hi
    rw [List.getD_eq_getElem?_getD, List.getD_eq_getElem?_getD, List.getElem?_take_of_lt hi]
  refine ⟨List.length_take_of_le hlen, hget 0 (by decide), hget 1 (by decide), ?_, ?_, ?_, ?_⟩
  · simp only [rdLe32, hget 10 (by decide), hget 11 (by decide), hget 12 (by decide), hget 13 (by decide)]
  · simp only [rdLe32, hget 18 (by decide), hget 19 (by decide), hget 20 (by decide), hget 21 (by decide)]
  · simp only [rdLe32, hget 22 (by decide), hget 23 (by decide), hget 24 (by decide), hget 25 (by decide)]
  · simp only [rdLe16, hget 28 (by decide), hget 29 (by decide)]

theorem toInt_of_lt {v : UInt32} (hv : v.toNat < 2 ^ 31) : v.toInt32.toInt = v.toNat := by
  have hint := toInt_ofNat hv
  rwa [UInt32.ofNat_toNat] at hint

/-- A field read as a signed number is positive. -/
theorem signed_pos_iff (v : UInt32) : ¬ v.toInt32 ≤ 0 ↔ 1 ≤ v.toNat ∧ v.toNat < 2 ^ 31 := by
  have hint : v.toInt32.toInt = if 2 * v.toNat < 2 ^ 32 then (v.toNat : Int) else (v.toNat : Int) - (2 ^ 32 : Nat) :=
    BitVec.toInt_eq_toNat_cond v.toBitVec
  rw [Int32.le_iff_toInt_le, hint]
  show ¬ _ ≤ (0 : Int) ↔ _
  have hlt := v.toNat_lt
  split_ifs <;> omega

/-- The rows that a file of the right headers holds. -/
theorem readRows_file (file : List UInt8) (offset : Nat) {w h stride : Nat} (hw : 1 ≤ w) (hh : 1 ≤ h)
    (hstride : w ≤ stride) (pix : List UInt8) :
    readRows w (stride - w) h (file.drop offset) pix =
      if offset + stride * h ≤ file.length then some (rowsRead w stride h (file.drop offset) pix) else none := by
  have hpos : 1 ≤ h * stride := Nat.mul_pos hh (hw.trans hstride)
  rw [readRows_eq, Nat.add_sub_cancel' hstride, List.length_drop, Nat.mul_comm stride h]
  by_cases hfit : offset + h * stride ≤ file.length
  · rw [if_pos hfit, if_pos (by omega)]
  · rw [if_neg hfit, if_neg (by omega)]

/-- With headers for a picture of `w` by `h`, the file is read if its rows are there. -/
theorem bmpRead_of_headers {file : List UInt8} (p : Picture) (hlen : 54 ≤ file.length)
    (hmagic : file.getD 0 0 = 0x42 ∧ file.getD 1 0 = 0x4D) (hbpp : rdLe16 file 28 = 8)
    (hwidth : (rdLe32 file 18).toNat = p.w) (hheight : (rdLe32 file 22).toNat = p.h) :
    bmpRead true file =
      if (rdLe32 file 10).toNat + p.stride * p.h ≤ file.length then
        some ⟨p.w, p.h, rowsRead p.w p.stride p.h (file.drop (rdLe32 file 10).toNat) (List.replicate (p.w * p.h) 0)⟩
      else none := by
  obtain ⟨htake, hfirst, hsecond, hoffset, hw18, hh22, hbpp28⟩ := headers_take hlen
  have hw := p.w_le
  have hh := p.h_le
  have hwpos := (signed_pos_iff (rdLe32 file 18)).mpr ⟨hwidth ▸ p.hw, by omega⟩
  have hhpos := (signed_pos_iff (rdLe32 file 22)).mpr ⟨hheight ▸ p.hh, by omega⟩
  have hwint : (rdLe32 file 18).toInt32.toInt = p.w := by rw [toInt_of_lt (by omega), hwidth]
  have hhint : (rdLe32 file 22).toInt32.toInt = p.h := by rw [toInt_of_lt (by omega), hheight]
  have hfield : rdLe32 file 18 = p.width32 := by
    apply UInt32.toNat_inj.mp
    rw [hwidth, p.toNat_width32]
  have hpad : (bmpStride p.width32 - p.width32).toNat = p.stride - p.w := by
    have hadd := p.add_padlen
    show p.padlen = _
    omega
  have hrows := readRows_file file (rdLe32 file 10).toNat p.hw p.hh p.stride_isLeast.1.2
    (List.replicate (p.w * p.h) 0)
  rw [bmpRead]
  simp only [htake, hfirst, hsecond, hoffset, hw18, hh22, hbpp28, hmagic, hbpp, hwpos, hhpos, hwint, hhint,
    p.imageAlloc_eq, Int.toNat_natCast, UInt32.toUInt32_toInt32, ne_eq, not_true, or_false, if_false]
  rw [hfield, hpad, hrows]
  split_ifs with hfit
  · rfl
  · rfl

/-- What is read has passed the checks. -/
theorem headers_of_bmpRead {file : List UInt8} {img : Image} (hread : bmpRead true file = some img) :
    54 ≤ file.length ∧ (file.getD 0 0 = 0x42 ∧ file.getD 1 0 = 0x4D) ∧ rdLe16 file 28 = 8 ∧
      1 ≤ (rdLe32 file 18).toNat ∧ 1 ≤ (rdLe32 file 22).toNat ∧
      (rdLe32 file 18).toNat * (rdLe32 file 22).toNat ≤ 2 ^ 22 := by
  have hlen : 54 ≤ file.length := by
    by_contra hshort
    have htake : (file.take 54).length ≠ 54 := by
      rw [List.length_take]
      omega
    rw [bmpRead, if_pos htake] at hread
    cases hread
  obtain ⟨htake, hfirst, hsecond, hoffset, hw18, hh22, hbpp28⟩ := headers_take hlen
  rw [bmpRead] at hread
  simp only [htake, hfirst, hsecond, hoffset, hw18, hh22, hbpp28, ne_eq, not_true, if_false] at hread
  split_ifs at hread with hmagic hfields
  rw [not_or, not_not, not_not] at hmagic
  rw [not_or, not_or, not_not, signed_pos_iff, signed_pos_iff] at hfields
  obtain ⟨hbpp, ⟨hw, hw'⟩, hh, hh'⟩ := hfields
  refine ⟨hlen, hmagic, hbpp, hw, hh, ?_⟩
  by_contra hcap
  have halloc : imageAlloc true (rdLe32 file 18).toInt32.toInt (rdLe32 file 22).toInt32.toInt = none := by
    have hmul : IMAGE_MAX_PIXELS < ((rdLe32 file 18).toNat : Int) * (rdLe32 file 22).toNat := by
      have hlt : (2 ^ 22 : Nat) < (rdLe32 file 18).toNat * (rdLe32 file 22).toNat := Nat.lt_of_not_le hcap
      rw [IMAGE_MAX_PIXELS]
      exact_mod_cast hlt
    rw [toInt_of_lt hw', toInt_of_lt hh', imageAlloc, if_neg (by omega), if_pos hmul]
  rw [halloc] at hread
  cases hread

/-- **What `bmp_read` accepts.** A file of any bytes is accepted exactly if it holds a picture, and then that is the
picture returned: of at least one pixel and within the cap, with the dimensions of the headers, and every pixel the
byte of the file at the place where its row stands. -/
theorem bmpRead_accepts_iff (file : List UInt8) (img : Image) :
    bmpRead true file = some img ↔ ∃ p : Picture, p.image = img ∧ BmpHolds file p := by
  constructor
  · intro hread
    obtain ⟨hlen, hmagic, hbpp, hw, hh, hcap⟩ := headers_of_bmpRead hread
    let blank : Picture := ⟨⟨(rdLe32 file 18).toNat, (rdLe32 file 22).toNat,
      List.replicate ((rdLe32 file 18).toNat * (rdLe32 file 22).toNat) 0, hw, hh, List.length_replicate⟩, hcap⟩
    have hstride : blank.w ≤ blank.stride := blank.stride_isLeast.1.2
    rw [bmpRead_of_headers blank hlen hmagic hbpp rfl rfl] at hread
    obtain ⟨hrows, himg⟩ := Option.ite_none_right_eq_some.mp hread
    have hdata : blank.h * blank.stride ≤ (file.drop (rdLe32 file 10).toNat).length := by
      rw [List.length_drop, Nat.mul_comm]
      omega
    have hpix : blank.h * blank.w ≤ (List.replicate (blank.w * blank.h) (0 : UInt8)).length := by
      rw [List.length_replicate, Nat.mul_comm]
    have hlength : (rowsRead blank.w blank.stride blank.h (file.drop (rdLe32 file 10).toNat)
        (List.replicate (blank.w * blank.h) 0)).length = blank.w * blank.h := by
      rw [length_rowsRead hstride hdata hpix, List.length_replicate]
    refine ⟨⟨⟨blank.w, blank.h, _, hw, hh, hlength⟩, hcap⟩, Option.some.inj himg, hlen, hmagic, hbpp, rfl, rfl, hrows,
      ?_⟩
    intro x y hx hy
    rw [← List.getElem?_drop]
    exact (rowsRead_getElem? hstride hdata hpix hx hy).symm
  · rintro ⟨p, rfl, hholds⟩
    have hdata : p.h * p.stride ≤ (file.drop (rdLe32 file 10).toNat).length := by
      have hrows := hholds.rows
      rw [List.length_drop, Nat.mul_comm]
      omega
    have hpix : p.h * p.w ≤ (List.replicate (p.w * p.h) (0 : UInt8)).length := by
      rw [List.length_replicate, Nat.mul_comm]
    have hsame : rowsRead p.w p.stride p.h (file.drop (rdLe32 file 10).toNat) (List.replicate (p.w * p.h) 0) =
        p.pix := by
      have hlength := length_rowsRead p.stride_isLeast.1.2 hdata hpix
      rw [List.length_replicate] at hlength
      apply List.ext_getElem?
      intro i
      by_cases hi : i < p.w * p.h
      · obtain ⟨x, y, hx, hy, rfl⟩ := exists_place hi
        rw [rowsRead_getElem? p.stride_isLeast.1.2 hdata hpix hx hy, List.getElem?_drop, hholds.pixels x y hx hy]
      · rw [List.getElem?_eq_none (by omega), List.getElem?_eq_none (by have := p.hpix; omega)]
    rw [bmpRead_of_headers p hholds.headers hholds.magic hholds.bpp hholds.width hholds.height,
      if_pos hholds.rows, hsame]
    rfl

end PulseLink
