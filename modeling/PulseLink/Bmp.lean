import PulseLink.Image

/-! The 8-bit grayscale BMP files of `imaging/bmp.c`: the 1078 header and palette bytes, then the rows from
the bottom up, each padded to a multiple of four bytes. Reading a written file gives the image back. -/

namespace PulseLink

open Bytes

/-- `PIX_OFFSET`: file header, DIB header and palette. -/
def PIX_OFFSET : UInt32 := 14 + 40 + 256 * 4

/-- Rows pad to 4 bytes. -/
def bmpStride (w : UInt32) : UInt32 := (w + 3) &&& ~~~(3 : UInt32)

/-- The grayscale palette: entry `i` is `(i, i, i, 0)`. -/
def bmpPalette : List UInt8 :=
  (List.range 256).flatMap fun i => [UInt8.ofNat i, UInt8.ofNat i, UInt8.ofNat i, 0]

/-- The two headers: zeroed, then stored field by field. -/
def bmpHeaders (w h : UInt32) : List UInt8 :=
  let pixsz := bmpStride w * h
  let hdr := List.replicate 54 0
  let hdr := storeAt hdr 0 [0x42, 0x4D]
  let hdr := storeAt hdr 2 (le32 (PIX_OFFSET + pixsz))
  let hdr := storeAt hdr 10 (le32 PIX_OFFSET)
  let hdr := storeAt hdr 14 (le32 40)
  let hdr := storeAt hdr 18 (le32 w)
  let hdr := storeAt hdr 22 (le32 h)
  let hdr := storeAt hdr 26 (le16 1)
  let hdr := storeAt hdr 28 (le16 8)
  let hdr := storeAt hdr 30 (le32 0)
  let hdr := storeAt hdr 34 (le32 pixsz)
  storeAt hdr 46 (le32 256)

/-- The rows below `y`, from the bottom up. -/
def bmpRows (w padlen : Nat) (pix : List UInt8) : Nat → List UInt8
  | 0 => []
  | y + 1 => (pix.drop (y * w)).take w ++ (List.replicate padlen 0 ++ bmpRows w padlen pix y)

/-- The bytes `bmp_write` puts into the file, or `none` for an image it refuses. -/
def bmpBytes (img : Image) : Option (List UInt8) :=
  if img.w ≤ 0 ∨ img.h ≤ 0 ∨ img.pix = [] then none
  else
    let w := UInt32.ofNat img.w.toNat
    let h := UInt32.ofNat img.h.toNat
    some (bmpHeaders w h ++ (bmpPalette ++
      bmpRows img.w.toNat (bmpStride w - w).toNat img.pix img.h.toNat))

/-- The row loop of `bmp_read` at row `y - 1`, with the rest of the file in `data`. -/
def readRows (w padlen : Nat) : Nat → List UInt8 → List UInt8 → Option (List UInt8)
  | 0, _, pix => some pix
  | y + 1, data, pix =>
      if data.length < w then none
      else if padlen ≠ 0 ∧ (data.drop w).length < padlen then none
      else readRows w padlen y ((data.drop w).drop padlen) (storeAt pix (y * w) (data.take w))

/-- `bmp_read` of a file with the given bytes: the image, or `none` where the code returns -1. -/
def bmpRead (callocOk : Bool) (file : List UInt8) : Option Image :=
  let fh := file.take 54
  if fh.length ≠ 54 then none
  else if fh.getD 0 0 ≠ 0x42 ∨ fh.getD 1 0 ≠ 0x4D then none
  else
    let offset := rdLe32 fh 10
    let w := (rdLe32 fh 18).toInt32
    let h := (rdLe32 fh 22).toInt32
    let bpp := rdLe16 fh 28
    if bpp ≠ 8 ∨ w ≤ 0 ∨ h ≤ 0 then none
    else
      match imageAlloc callocOk w.toInt h.toInt with
      | none => none
      | some img =>
          let stride := bmpStride w.toUInt32
          match readRows w.toInt.toNat (stride - w.toUInt32).toNat h.toInt.toNat
              (file.drop offset.toNat) img.pix with
          | none => none
          | some pix => some { img with pix := pix }

/-! ### Headers -/

/-- The headers laid out in order. -/
theorem bmpHeaders_eq (w h : UInt32) :
    bmpHeaders w h =
      [0x42, 0x4D] ++ (le32 (PIX_OFFSET + bmpStride w * h) ++ ([0, 0, 0, 0] ++ (le32 PIX_OFFSET ++
        (le32 40 ++ (le32 w ++ (le32 h ++ (le16 1 ++ (le16 8 ++ (le32 0 ++ (le32 (bmpStride w * h) ++
          ([0, 0, 0, 0, 0, 0, 0, 0] ++ (le32 256 ++ [0, 0, 0, 0])))))))))))) := by
  simp [bmpHeaders, storeAt, le32, le16, List.replicate]

@[simp] theorem length_bmpHeaders (w h : UInt32) : (bmpHeaders w h).length = 54 := by
  rw [bmpHeaders_eq]
  rfl

theorem length_bmpPalette : bmpPalette.length = 1024 := by
  have hfour : ∀ n, ((List.range n).flatMap fun i =>
      [UInt8.ofNat i, UInt8.ofNat i, UInt8.ofNat i, 0]).length = 4 * n := by
    intro n
    induction n with
    | zero => rfl
    | succ n ih =>
        rw [List.range_succ, List.flatMap_append, List.length_append, ih]
        rfl
  exact hfour 256

section Fields

variable (w h : UInt32)

theorem bmpHeaders_magic :
    (bmpHeaders w h).getD 0 0 = 0x42 ∧ (bmpHeaders w h).getD 1 0 = 0x4D := by
  rw [bmpHeaders_eq]
  exact ⟨rfl, rfl⟩

theorem bmpHeaders_offset : rdLe32 (bmpHeaders w h) 10 = PIX_OFFSET := by
  rw [bmpHeaders_eq]
  exact word32_split PIX_OFFSET

theorem bmpHeaders_width : rdLe32 (bmpHeaders w h) 18 = w := by
  rw [bmpHeaders_eq]
  exact word32_split w

theorem bmpHeaders_height : rdLe32 (bmpHeaders w h) 22 = h := by
  rw [bmpHeaders_eq]
  exact word32_split h

theorem bmpHeaders_bpp : rdLe16 (bmpHeaders w h) 28 = 8 := by
  rw [bmpHeaders_eq]
  exact word16_split 8

end Fields

/-! ### Rows -/

/-- Reading the rows that were written stores every row as a block of the image. -/
theorem readRows_bmpRows {w : Nat} (padlen : Nat) (cells : List UInt8) {h : Nat}
    (hrows : h * w ≤ cells.length) (pix : List UInt8) :
    readRows w padlen h (bmpRows w padlen cells h) pix =
      some (Blocks.writeAll w pix
        ((List.range h).reverse.map fun y => (y, Blocks.slice w cells y))) := by
  induction h generalizing pix with
  | zero => rfl
  | succ y ih =>
      have hsucc : (y + 1) * w = y * w + w := Nat.succ_mul y w
      have hslice : (cells.drop (y * w)).take w = Blocks.slice w cells y := by
        rw [Blocks.slice, Nat.mul_comm]
      have hlen : (Blocks.slice w cells y).length = w := by
        rw [← hslice, List.length_take, List.length_drop]
        omega
      have hdrop : (Blocks.slice w cells y ++ (List.replicate padlen 0 ++ bmpRows w padlen cells y)).drop w
          = List.replicate padlen 0 ++ bmpRows w padlen cells y := List.drop_left' hlen
      have htake : (Blocks.slice w cells y ++ (List.replicate padlen 0 ++ bmpRows w padlen cells y)).take w
          = Blocks.slice w cells y := List.take_left' hlen
      rw [readRows, bmpRows, hslice, hdrop, htake, List.length_append, List.length_append, hlen,
        List.length_replicate, if_neg (by omega), if_neg (by omega),
        List.drop_left' List.length_replicate, ih (by omega), List.range_succ, List.reverse_append]
      simp only [List.reverse_singleton, List.singleton_append, List.map_cons, Blocks.writeAll,
        List.foldl_cons, Nat.mul_comm y w]

/-- Every row of an image is one block. -/
theorem count_rows {w h : Nat} (hw : 0 < w) : Blocks.count w (w * h) = h := by
  rw [Blocks.count, Nat.div_eq_of_lt_le]
  · rw [Nat.mul_comm]
    omega
  · rw [Nat.succ_mul, Nat.mul_comm]
    omega

theorem toInt_ofNat {n : Nat} (hn : n < 2 ^ 31) : (UInt32.ofNat n).toInt32.toInt = n := by
  show (BitVec.ofNat 32 n).toInt = n
  rw [BitVec.toInt_eq_toNat_bmod, BitVec.toNat_ofNat, Nat.mod_eq_of_lt (by omega)]
  exact Int.bmod_eq_of_le (by omega) (by omega)

namespace Picture

variable (p : Picture)

/-- Storing all rows of an image into a buffer of its size produces its pixels. -/
theorem writeAll_rows {buf : List UInt8} (hbuf : buf.length = p.pix.length) :
    Blocks.writeAll p.w buf ((List.range p.h).reverse.map fun y => (y, Blocks.slice p.w p.pix y)) =
      p.pix := by
  have hcount : Blocks.count p.w p.pix.length = p.h := by rw [p.hpix, count_rows p.hw]
  refine Blocks.writeAll_slices p.hw hbuf ?_ ?_
  · intro w hw
    obtain ⟨y, hy, rfl⟩ := List.mem_map.mp hw
    rw [List.mem_reverse, List.mem_range] at hy
    exact ⟨hcount.symm ▸ hy, rfl⟩
  · intro y hy
    refine ⟨(y, _), List.mem_map.mpr ⟨y, ?_, rfl⟩, rfl⟩
    rw [List.mem_reverse, List.mem_range]
    exact hcount ▸ hy

/-- The fields `w` and `h` of the file, and the padding of a row. -/
def width32 : UInt32 := UInt32.ofNat p.w

def height32 : UInt32 := UInt32.ofNat p.h

def padlen : Nat := (bmpStride p.width32 - p.width32).toNat

/-- The file that `bmp_write` makes of the image. -/
def file : List UInt8 :=
  bmpHeaders p.width32 p.height32 ++ (bmpPalette ++ bmpRows p.w p.padlen p.pix p.h)

theorem bmpBytes_eq : bmpBytes p.image = some p.file := by
  have hw := p.hw
  have hh := p.hh
  rw [bmpBytes, if_neg (by simp only [Canvas.image, not_or]; exact ⟨by omega, by omega, p.pix_ne_nil⟩)]
  simp only [Canvas.image, Int.toNat_natCast]
  rfl

/-- The pixels stand behind the headers and the palette. -/
theorem drop_file : p.file.drop PIX_OFFSET.toNat = bmpRows p.w p.padlen p.pix p.h := by
  rw [file, ← List.append_assoc]
  refine List.drop_left' ?_
  rw [List.length_append, length_bmpHeaders, length_bmpPalette]
  rfl

theorem bmpRead_file : bmpRead true p.file = some p.image := by
  have hw := p.hw
  have hh := p.hh
  have hw' := p.w_le
  have hh' := p.h_le
  have hwint : p.width32.toInt32.toInt = p.w := toInt_ofNat (by omega)
  have hhint : p.height32.toInt32.toInt = p.h := toInt_ofNat (by omega)
  have hwpos : ¬ p.width32.toInt32 ≤ 0 := by
    rw [Int32.le_iff_toInt_le, hwint]
    exact Int.not_le.mpr (by show (0 : Int) < p.w; omega)
  have hhpos : ¬ p.height32.toInt32 ≤ 0 := by
    rw [Int32.le_iff_toInt_le, hhint]
    exact Int.not_le.mpr (by show (0 : Int) < p.h; omega)
  have hhead : p.file.take 54 = bmpHeaders p.width32 p.height32 := List.take_left' (length_bmpHeaders _ _)
  have hrows : readRows p.w (bmpStride p.width32 - p.width32).toNat p.h (bmpRows p.w p.padlen p.pix p.h)
      (List.replicate (p.w * p.h) 0) = some p.pix := by
    have hread := readRows_bmpRows p.padlen p.pix (w := p.w) (h := p.h) (by rw [p.hpix, Nat.mul_comm])
      (List.replicate (p.w * p.h) 0)
    rw [p.writeAll_rows (by rw [List.length_replicate, p.hpix])] at hread
    exact hread
  rw [bmpRead]
  simp only [hhead, length_bmpHeaders, bmpHeaders_magic, bmpHeaders_offset, bmpHeaders_width,
    bmpHeaders_height, bmpHeaders_bpp, hwint, hhint, hwpos, hhpos, drop_file, imageAlloc_eq,
    Int.toNat_natCast, UInt32.toUInt32_toInt32, hrows, ne_eq, not_true, or_false, if_false]
  rfl

end Picture

/-- **A written image is read back.** -/
theorem bmpRead_bmpBytes (r : Raster) :
    ∃ file, bmpBytes r.image = some file ∧ bmpRead true file = some r.image :=
  ⟨r.file, r.bmpBytes_eq, r.bmpRead_file⟩

/-! ### Layout -/

/-- Clearing the two low bits rounds down to a multiple of four. -/
theorem toNat_and_not_three (v : UInt32) : (v &&& ~~~(3 : UInt32)).toNat = v.toNat / 4 * 4 := by
  have hmask : (~~~(3 : UInt32)).toNat = (2 ^ 30 - 1) <<< 2 := rfl
  rw [UInt32.toNat_and, hmask]
  have hfour : v.toNat / 4 * 4 = v.toNat >>> 2 <<< 2 := by
    rw [Nat.shiftRight_eq_div_pow, Nat.shiftLeft_eq]
  rw [hfour]
  apply Nat.eq_of_testBit_eq
  intro i
  rw [Nat.testBit_and, Nat.testBit_shiftLeft, Nat.testBit_shiftLeft, Nat.testBit_shiftRight,
    Nat.testBit_two_pow_sub_one]
  by_cases hlow : 2 ≤ i
  · rw [Nat.add_sub_cancel' hlow]
    by_cases hhigh : i < 32
    · simp [hlow, show i - 2 < 30 by omega]
    · have hbit : v.toNat.testBit i = false :=
        Nat.testBit_lt_two_pow (v.toNat_lt.trans_le (Nat.pow_le_pow_right (by decide) (by omega)))
      simp [hbit]
  · simp [hlow]

/-- Rows that were written, pixel by pixel. -/
theorem bmpRows_pixel {w h padlen : Nat} {cells : List UInt8} (hrows : h * w ≤ cells.length) {x y : Nat}
    (hx : x < w) (hy : y < h) : (bmpRows w padlen cells h)[(h - 1 - y) * (w + padlen) + x]? = cells[y * w + x]? := by
  induction h with
  | zero => cases hy
  | succ h ih =>
      have hsucc : (h + 1) * w = h * w + w := Nat.succ_mul h w
      have hlen : ((cells.drop (h * w)).take w).length = w := by
        rw [List.length_take, List.length_drop]
        omega
      rw [bmpRows]
      rcases Nat.lt_succ_iff_lt_or_eq.mp hy with hlt | rfl
      · -- the row in front and its padding are passed over
        have hindex : (h + 1 - 1 - y) * (w + padlen) + x = w + (padlen + ((h - 1 - y) * (w + padlen) + x)) := by
          obtain ⟨k, hk⟩ : ∃ k, h - y = k + 1 := ⟨h - y - 1, by omega⟩
          rw [show h + 1 - 1 - y = k + 1 by omega, show h - 1 - y = k by omega, Nat.succ_mul]
          omega
        rw [hindex, List.getElem?_append_right (by omega), hlen, Nat.add_sub_cancel_left,
          List.getElem?_append_right (by rw [List.length_replicate]; omega), List.length_replicate,
          Nat.add_sub_cancel_left]
        exact ih (by omega) hlt
      · rw [show y + 1 - 1 - y = 0 by omega, Nat.zero_mul, Nat.zero_add,
          List.getElem?_append_left (by rw [hlen]; exact hx), List.getElem?_take_of_lt hx, List.getElem?_drop]

theorem length_bmpRows {w h : Nat} (padlen : Nat) {cells : List UInt8} (hrows : h * w ≤ cells.length) :
    (bmpRows w padlen cells h).length = (w + padlen) * h := by
  induction h with
  | zero => rfl
  | succ h ih =>
      have hsucc : (h + 1) * w = h * w + w := Nat.succ_mul h w
      rw [bmpRows, List.length_append, List.length_append, List.length_take, List.length_drop,
        List.length_replicate, ih (by omega), Nat.mul_succ]
      omega

theorem bmpHeaders_size (w h : UInt32) : rdLe32 (bmpHeaders w h) 2 = PIX_OFFSET + bmpStride w * h := by
  rw [bmpHeaders_eq]
  exact word32_split _

namespace Picture

variable (p : Picture)

/-- The bytes of a padded row. -/
def stride : Nat := (p.w + 3) / 4 * 4

/-- The stride is the least multiple of four that is not below the width. -/
theorem stride_isLeast : IsLeast {m | 4 ∣ m ∧ p.w ≤ m} p.stride := by
  constructor
  · exact ⟨dvd_mul_left 4 _, by unfold stride; omega⟩
  · rintro m ⟨⟨k, rfl⟩, hle⟩
    unfold stride
    omega

theorem toNat_width32 : p.width32.toNat = p.w :=
  UInt32.toNat_ofNat_of_lt' (by have := p.w_le; show p.w < 2 ^ 32; omega)

theorem toNat_height32 : p.height32.toNat = p.h :=
  UInt32.toNat_ofNat_of_lt' (by have := p.h_le; show p.h < 2 ^ 32; omega)

theorem toNat_bmpStride : (bmpStride p.width32).toNat = p.stride := by
  have hle := p.w_le
  rw [bmpStride, toNat_and_not_three, UInt32.toNat_add, toNat_width32]
  show (p.w + 3) % 2 ^ 32 / 4 * 4 = _
  rw [Nat.mod_eq_of_lt (by omega)]
  rfl

/-- Padding makes a row at most four times as long. -/
theorem stride_mul_le : p.stride * p.h ≤ 2 ^ 24 := by
  have hw := p.hw
  have hfour : p.stride ≤ 4 * p.w := by
    unfold stride
    omega
  calc p.stride * p.h
    _ ≤ 4 * p.w * p.h := Nat.mul_le_mul_right p.h hfour
    _ = 4 * (p.w * p.h) := Nat.mul_assoc _ _ _
    _ ≤ 4 * 2 ^ 22 := Nat.mul_le_mul_left 4 p.hcap

theorem toNat_pixsz : (bmpStride p.width32 * p.height32).toNat = p.stride * p.h := by
  have hle := p.stride_mul_le
  rw [UInt32.toNat_mul, toNat_bmpStride, toNat_height32]
  exact Nat.mod_eq_of_lt (by omega)

theorem toNat_fsize : (PIX_OFFSET + bmpStride p.width32 * p.height32).toNat = 1078 + p.stride * p.h := by
  have hle := p.stride_mul_le
  rw [UInt32.toNat_add, toNat_pixsz]
  exact Nat.mod_eq_of_lt (show 1078 + p.stride * p.h < 2 ^ 32 by omega)

theorem add_padlen : p.w + p.padlen = p.stride := by
  have hle : p.w ≤ p.stride := p.stride_isLeast.1.2
  rw [padlen, UInt32.toNat_sub_of_le, toNat_bmpStride, toNat_width32]
  · omega
  · rw [UInt32.le_iff_toNat_le, toNat_bmpStride, toNat_width32]
    exact hle

theorem rows_le : p.h * p.w ≤ p.pix.length := by rw [p.hpix, Nat.mul_comm]

theorem length_file : p.file.length = 1078 + p.stride * p.h := by
  rw [file, List.length_append, List.length_append, length_bmpHeaders, length_bmpPalette,
    length_bmpRows p.padlen p.rows_le, add_padlen]
  omega

theorem file_pixel {x y : Nat} (hx : x < p.w) (hy : y < p.h) :
    p.file[1078 + (p.h - 1 - y) * p.stride + x]? = p.pix[y * p.w + x]? := by
  rw [Nat.add_assoc, ← add_padlen, ← bmpRows_pixel p.rows_le hx hy, ← drop_file, List.getElem?_drop]
  rfl

end Picture

/-- **The layout of a written file, and its way back.** For every image within the cap of `image_alloc`: the
stride is the least multiple of four that is not below the width; stride, size of the pixels and size of the file
do not overflow 32 bits; the file is as long as its size field says, its pixels start where its offset field
says, in padded rows from the bottom up; and `bmp_read` gives the same image back. -/
theorem bmp_layout (p : Picture) :
    IsLeast {m | 4 ∣ m ∧ p.w ≤ m} p.stride ∧
      (bmpStride (UInt32.ofNat p.w)).toNat = p.stride ∧
      (bmpStride (UInt32.ofNat p.w) * UInt32.ofNat p.h).toNat = p.stride * p.h ∧
      (PIX_OFFSET + bmpStride (UInt32.ofNat p.w) * UInt32.ofNat p.h).toNat = 1078 + p.stride * p.h ∧
      ∃ file, bmpBytes p.image = some file ∧ file.length = 1078 + p.stride * p.h ∧
        (rdLe32 file 2).toNat = file.length ∧ (rdLe32 file 10).toNat = 1078 ∧
        (∀ x y, x < p.w → y < p.h →
          file[1078 + (p.h - 1 - y) * p.stride + x]? = p.pix[y * p.w + x]?) ∧
        bmpRead true file = some p.image := by
  refine ⟨p.stride_isLeast, p.toNat_bmpStride, p.toNat_pixsz, p.toNat_fsize, p.file, p.bmpBytes_eq, p.length_file,
    ?_, ?_, fun x y => p.file_pixel, p.bmpRead_file⟩
  · rw [Picture.file, rdLe32_append_left (by rw [length_bmpHeaders]; decide), bmpHeaders_size, p.toNat_fsize]
    exact p.length_file.symm
  · rw [Picture.file, rdLe32_append_left (by rw [length_bmpHeaders]; decide), bmpHeaders_offset]
    rfl

end PulseLink
