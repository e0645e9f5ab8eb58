import Mathlib

/-! Byte codecs of 16- and 32-bit words, in both byte orders, and in-place stores into a byte
buffer. The codecs are written with the shifts and masks a C program uses; the lemmas read them as
positional arithmetic, where every round trip is linear. -/

namespace PulseLink.Bytes

/-- Disjoint bit fields: a multiple of `2 ^ k` joined with a number below `2 ^ k` is their sum. -/
theorem or_eq_add_of_dvd {x y k : Nat} (hx : 2 ^ k ∣ x) (hy : y < 2 ^ k) : x ||| y = x + y := by
  obtain ⟨q, rfl⟩ := hx
  exact (Nat.two_pow_add_eq_or_of_lt hy q).symm

/-! ### Words as bytes -/

def be16 (v : UInt16) : List UInt8 := [(v >>> 8).toUInt8, v.toUInt8]

def be32 (v : UInt32) : List UInt8 :=
  [(v >>> 24).toUInt8, (v >>> 16).toUInt8, (v >>> 8).toUInt8, v.toUInt8]

def le16 (v : UInt16) : List UInt8 := [v.toUInt8, (v >>> 8).toUInt8]

def le32 (v : UInt32) : List UInt8 :=
  [v.toUInt8, (v >>> 8).toUInt8, (v >>> 16).toUInt8, (v >>> 24).toUInt8]

/-- The word with the given high and low byte. -/
def word16 (hi lo : UInt8) : UInt16 := hi.toUInt16 <<< 8 ||| lo.toUInt16

/-- The word with the given bytes, most significant first. -/
def word32 (b3 b2 b1 b0 : UInt8) : UInt32 :=
  b3.toUInt32 <<< 24 ||| b2.toUInt32 <<< 16 ||| b1.toUInt32 <<< 8 ||| b0.toUInt32

theorem toNat_word16 (hi lo : UInt8) : (word16 hi lo).toNat = hi.toNat * 2 ^ 8 + lo.toNat := by
  have hhi := hi.toNat_lt
  have hlo := lo.toNat_lt
  simp only [word16, UInt16.toNat_or, UInt16.toNat_shiftLeft, UInt8.toNat_toUInt16,
    Nat.shiftLeft_eq]
  have hfit : hi.toNat * 2 ^ ((8 : UInt16).toNat % 16) % 2 ^ 16 = hi.toNat * 2 ^ 8 :=
    Nat.mod_eq_of_lt (by show hi.toNat * 2 ^ 8 < 2 ^ 16; omega)
  rw [hfit, or_eq_add_of_dvd (Dvd.intro_left _ rfl) hlo]

theorem toNat_word32 (b3 b2 b1 b0 : UInt8) :
    (word32 b3 b2 b1 b0).toNat =
      b3.toNat * 2 ^ 24 + b2.toNat * 2 ^ 16 + b1.toNat * 2 ^ 8 + b0.toNat := by
  have h3 := b3.toNat_lt
  have h2 := b2.toNat_lt
  have h1 := b1.toNat_lt
  have h0 := b0.toNat_lt
  simp only [word32, UInt32.toNat_or, UInt32.toNat_shiftLeft, UInt8.toNat_toUInt32,
    Nat.shiftLeft_eq]
  have hfit3 : b3.toNat * 2 ^ ((24 : UInt32).toNat % 32) % 2 ^ 32 = b3.toNat * 2 ^ 24 :=
    Nat.mod_eq_of_lt (by show b3.toNat * 2 ^ 24 < 2 ^ 32; omega)
  have hfit2 : b2.toNat * 2 ^ ((16 : UInt32).toNat % 32) % 2 ^ 32 = b2.toNat * 2 ^ 16 :=
    Nat.mod_eq_of_lt (by show b2.toNat * 2 ^ 16 < 2 ^ 32; omega)
  have hfit1 : b1.toNat * 2 ^ ((8 : UInt32).toNat % 32) % 2 ^ 32 = b1.toNat * 2 ^ 8 :=
    Nat.mod_eq_of_lt (by show b1.toNat * 2 ^ 8 < 2 ^ 32; omega)
  -- the fields are joined from the top, each below everything joined so far
  have hjoin2 : b3.toNat * 2 ^ 24 ||| b2.toNat * 2 ^ 16 = b3.toNat * 2 ^ 24 + b2.toNat * 2 ^ 16 :=
    or_eq_add_of_dvd (k := 24) (by omega) (by omega)
  have hjoin1 : b3.toNat * 2 ^ 24 + b2.toNat * 2 ^ 16 ||| b1.toNat * 2 ^ 8 =
      b3.toNat * 2 ^ 24 + b2.toNat * 2 ^ 16 + b1.toNat * 2 ^ 8 :=
    or_eq_add_of_dvd (k := 16) (by omega) (by omega)
  rw [hfit3, hfit2, hfit1, hjoin2, hjoin1]
  exact or_eq_add_of_dvd (k := 8) (by omega) h0

theorem toNat_be16_hi (v : UInt16) : (v >>> 8).toUInt8.toNat = v.toNat / 2 ^ 8 % 2 ^ 8 := by
  simp [Nat.shiftRight_eq_div_pow]

theorem toNat_be32_byte (v : UInt32) :
    (v >>> 24).toUInt8.toNat = v.toNat / 2 ^ 24 % 2 ^ 8 ∧
    (v >>> 16).toUInt8.toNat = v.toNat / 2 ^ 16 % 2 ^ 8 ∧
    (v >>> 8).toUInt8.toNat = v.toNat / 2 ^ 8 % 2 ^ 8 := by
  simp [Nat.shiftRight_eq_div_pow]

/-- Splitting a word into bytes and joining them again is the identity. -/
theorem word16_split (v : UInt16) : word16 (v >>> 8).toUInt8 v.toUInt8 = v := by
  apply UInt16.toNat_inj.mp
  have hv := v.toNat_lt
  rw [toNat_word16, toNat_be16_hi, UInt16.toNat_toUInt8]
  omega

theorem word32_split (v : UInt32) :
    word32 (v >>> 24).toUInt8 (v >>> 16).toUInt8 (v >>> 8).toUInt8 v.toUInt8 = v := by
  apply UInt32.toNat_inj.mp
  have hv := v.toNat_lt
  obtain ⟨h3, h2, h1⟩ := toNat_be32_byte v
  rw [toNat_word32, h3, h2, h1, UInt32.toNat_toUInt8]
  omega

/-- The bytes of a joined word are the bytes it was joined from. -/
theorem be16_word16 (hi lo : UInt8) : be16 (word16 hi lo) = [hi, lo] := by
  have hhi := hi.toNat_lt
  have hlo := lo.toNat_lt
  have h1 : (word16 hi lo >>> 8).toUInt8 = hi := by
    apply UInt8.toNat_inj.mp
    rw [toNat_be16_hi, toNat_word16]
    omega
  have h0 : (word16 hi lo).toUInt8 = lo := by
    apply UInt8.toNat_inj.mp
    rw [UInt16.toNat_toUInt8, toNat_word16]
    omega
  rw [be16, h1, h0]

theorem be32_word32 (b3 b2 b1 b0 : UInt8) : be32 (word32 b3 b2 b1 b0) = [b3, b2, b1, b0] := by
  have l3 := b3.toNat_lt
  have l2 := b2.toNat_lt
  have l1 := b1.toNat_lt
  have l0 := b0.toNat_lt
  obtain ⟨h3, h2, h1⟩ := toNat_be32_byte (word32 b3 b2 b1 b0)
  rw [toNat_word32] at h3 h2 h1
  have e3 : (word32 b3 b2 b1 b0 >>> 24).toUInt8 = b3 := UInt8.toNat_inj.mp (by rw [h3]; omega)
  have e2 : (word32 b3 b2 b1 b0 >>> 16).toUInt8 = b2 := UInt8.toNat_inj.mp (by rw [h2]; omega)
  have e1 : (word32 b3 b2 b1 b0 >>> 8).toUInt8 = b1 := UInt8.toNat_inj.mp (by rw [h1]; omega)
  have e0 : (word32 b3 b2 b1 b0).toUInt8 = b0 := by
    apply UInt8.toNat_inj.mp
    rw [UInt32.toNat_toUInt8, toNat_word32]
    omega
  rw [be32, e3, e2, e1, e0]

@[simp] theorem length_be16 (v : UInt16) : (be16 v).length = 2 := rfl
@[simp] theorem length_be32 (v : UInt32) : (be32 v).length = 4 := rfl
@[simp] theorem length_le16 (v : UInt16) : (le16 v).length = 2 := rfl
@[simp] theorem length_le32 (v : UInt32) : (le32 v).length = 4 := rfl

/-! ### Reading words out of a buffer -/

/-- The big-endian word at an offset; bytes outside the buffer read as zero. -/
def rdBe16 (p : List UInt8) (off : Nat) : UInt16 := word16 (p.getD off 0) (p.getD (off + 1) 0)

def rdBe32 (p : List UInt8) (off : Nat) : UInt32 :=
  word32 (p.getD off 0) (p.getD (off + 1) 0) (p.getD (off + 2) 0) (p.getD (off + 3) 0)

def rdLe16 (p : List UInt8) (off : Nat) : UInt16 := word16 (p.getD (off + 1) 0) (p.getD off 0)

def rdLe32 (p : List UInt8) (off : Nat) : UInt32 :=
  word32 (p.getD (off + 3) 0) (p.getD (off + 2) 0) (p.getD (off + 1) 0) (p.getD off 0)

theorem getD_append_right (before after : List UInt8) {off : Nat} (k : Nat)
    (hoff : before.length = off) : (before ++ after).getD (off + k) 0 = after.getD k 0 := by
  rw [List.getD_append_right _ _ _ _ (by omega)]
  congr 1
  omega

/-- A word stored after `off` bytes is read back at offset `off`. -/
theorem rdBe16_append (before rest : List UInt8) (v : UInt16) {off : Nat}
    (hoff : before.length = off) : rdBe16 (before ++ (be16 v ++ rest)) off = v := by
  have h0 := getD_append_right before (be16 v ++ rest) 0 hoff
  have h1 := getD_append_right before (be16 v ++ rest) 1 hoff
  rw [Nat.add_zero] at h0
  rw [rdBe16, h0, h1]
  exact word16_split v

theorem rdBe32_append (before rest : List UInt8) (v : UInt32) {off : Nat}
    (hoff : before.length = off) : rdBe32 (before ++ (be32 v ++ rest)) off = v := by
  have h0 := getD_append_right before (be32 v ++ rest) 0 hoff
  rw [Nat.add_zero] at h0
  rw [rdBe32, h0, getD_append_right before _ 1 hoff, getD_append_right before _ 2 hoff,
    getD_append_right before _ 3 hoff]
  exact word32_split v

section Front

variable {bs rest : List UInt8} {off : Nat} (hoff : off + 4 ≤ bs.length)

include hoff

theorem getD_append_front {k : Nat} (hk : k < 4) : (bs ++ rest).getD (off + k) 0 = bs.getD (off + k) 0 :=
  List.getD_append _ _ _ _ (by omega)

theorem rdBe32_append_left : rdBe32 (bs ++ rest) off = rdBe32 bs off := by
  have hfirst : (bs ++ rest).getD off 0 = bs.getD off 0 := getD_append_front hoff (k := 0) (by decide)
  rw [rdBe32, rdBe32, hfirst, getD_append_front hoff (by decide), getD_append_front hoff (by decide),
    getD_append_front hoff (by decide)]

theorem rdLe32_append_left : rdLe32 (bs ++ rest) off = rdLe32 bs off := by
  have hfirst : (bs ++ rest).getD off 0 = bs.getD off 0 := getD_append_front hoff (k := 0) (by decide)
  rw [rdLe32, rdLe32, hfirst, getD_append_front hoff (by decide), getD_append_front hoff (by decide),
    getD_append_front hoff (by decide)]

end Front

/-- The word read at an offset has the bytes that stand there. -/
theorem be16_rdBe16 {p : List UInt8} {off : Nat} (hoff : off + 2 ≤ p.length) :
    be16 (rdBe16 p off) = (p.drop off).take 2 := by
  rw [rdBe16, be16_word16, List.drop_eq_getElem_cons (by omega), List.drop_eq_getElem_cons (by omega),
    List.getD_eq_getElem _ _ (by omega), List.getD_eq_getElem _ _ (by omega)]
  rfl

theorem be32_rdBe32 {p : List UInt8} {off : Nat} (hoff : off + 4 ≤ p.length) :
    be32 (rdBe32 p off) = (p.drop off).take 4 := by
  rw [rdBe32, be32_word32, List.drop_eq_getElem_cons (by omega), List.drop_eq_getElem_cons (by omega),
    List.drop_eq_getElem_cons (by omega), List.drop_eq_getElem_cons (by omega),
    List.getD_eq_getElem _ _ (by omega), List.getD_eq_getElem _ _ (by omega),
    List.getD_eq_getElem _ _ (by omega), List.getD_eq_getElem _ _ (by omega)]
  rfl

/-! ### Host byte order -/

/-- The byte order of the host that runs the code. -/
inductive Endian where
  | little
  | big
  deriving DecidableEq, Repr

/-- The bytes of a word as the host keeps them in memory. -/
def mem16 : Endian → UInt16 → List UInt8
  | .little, v => le16 v
  | .big, v => be16 v

def mem32 : Endian → UInt32 → List UInt8
  | .little, v => le32 v
  | .big, v => be32 v

/-- The word the host loads from memory. -/
def load16 : Endian → List UInt8 → Nat → UInt16
  | .little, p, off => rdLe16 p off
  | .big, p, off => rdBe16 p off

def load32 : Endian → List UInt8 → Nat → UInt32
  | .little, p, off => rdLe32 p off
  | .big, p, off => rdBe32 p off

def swap16 (v : UInt16) : UInt16 := word16 v.toUInt8 (v >>> 8).toUInt8

def swap32 (v : UInt32) : UInt32 :=
  word32 v.toUInt8 (v >>> 8).toUInt8 (v >>> 16).toUInt8 (v >>> 24).toUInt8

/-- `htons`, which is also `ntohs`: a swap on a little-endian host, nothing on a big-endian one. -/
def htons : Endian → UInt16 → UInt16
  | .little, v => swap16 v
  | .big, v => v

/-- `htonl`, which is also `ntohl`. -/
def htonl : Endian → UInt32 → UInt32
  | .little, v => swap32 v
  | .big, v => v

theorem le16_swap16 (v : UInt16) : le16 (swap16 v) = be16 v := by
  have h := be16_word16 v.toUInt8 (v >>> 8).toUInt8
  simp only [be16, List.cons.injEq, and_true] at h
  simp only [le16, swap16, be16, h.1, h.2]

theorem le32_swap32 (v : UInt32) : le32 (swap32 v) = be32 v := by
  have h := be32_word32 v.toUInt8 (v >>> 8).toUInt8 (v >>> 16).toUInt8 (v >>> 24).toUInt8
  simp only [be32, List.cons.injEq, and_true] at h
  obtain ⟨h3, h2, h1, h0⟩ := h
  simp only [le32, swap32, be32, h3, h2, h1, h0]

/-- A network-order field in host memory is its big-endian bytes, on either host. -/
@[simp] theorem mem16_htons (host : Endian) (v : UInt16) : mem16 host (htons host v) = be16 v := by
  cases host
  · exact le16_swap16 v
  · rfl

@[simp] theorem mem32_htonl (host : Endian) (v : UInt32) : mem32 host (htonl host v) = be32 v := by
  cases host
  · exact le32_swap32 v
  · rfl

theorem swap16_word16 (hi lo : UInt8) : swap16 (word16 hi lo) = word16 lo hi := by
  have h := be16_word16 hi lo
  simp only [be16, List.cons.injEq, and_true] at h
  rw [swap16, h.1, h.2]

theorem swap32_word32 (b3 b2 b1 b0 : UInt8) :
    swap32 (word32 b3 b2 b1 b0) = word32 b0 b1 b2 b3 := by
  have h := be32_word32 b3 b2 b1 b0
  simp only [be32, List.cons.injEq, and_true] at h
  obtain ⟨h3, h2, h1, h0⟩ := h
  rw [swap32, h3, h2, h1, h0]

/-- Loading a field and converting it from network order reads it big-endian, on either host. -/
@[simp] theorem htons_load16 (host : Endian) (p : List UInt8) (off : Nat) :
    htons host (load16 host p off) = rdBe16 p off := by
  cases host
  · exact swap16_word16 _ _
  · rfl

@[simp] theorem htonl_load32 (host : Endian) (p : List UInt8) (off : Nat) :
    htonl host (load32 host p off) = rdBe32 p off := by
  cases host
  · exact swap32_word32 _ _ _ _
  · rfl

/-! ### Stores into a buffer -/

/-- Overwrites `buf` with `bs` from position `off` on; the length of `buf` is kept when `bs` fits. -/
def storeAt {α : Type} (buf : List α) (off : Nat) (bs : List α) : List α :=
  buf.take off ++ (bs ++ buf.drop (off + bs.length))

section Store

variable {α : Type} (buf bs : List α) (off : Nat)

theorem length_storeAt (h : off + bs.length ≤ buf.length) :
    (storeAt buf off bs).length = buf.length := by
  simp only [storeAt, List.length_append, List.length_take, List.length_drop]
  omega

theorem storeAt_getElem? (h : off + bs.length ≤ buf.length) (i : Nat) :
    (storeAt buf off bs)[i]? =
      if off ≤ i ∧ i < off + bs.length then bs[i - off]? else buf[i]? := by
  have htake : (buf.take off).length = off := by rw [List.length_take]; omega
  rcases Nat.lt_or_ge i off with hlow | hge
  · rw [if_neg (by omega), storeAt, List.getElem?_append_left (by omega),
      List.getElem?_take_of_lt hlow]
  · rw [storeAt, List.getElem?_append_right (by omega), htake]
    rcases Nat.lt_or_ge i (off + bs.length) with hin | hout
    · rw [if_pos ⟨hge, hin⟩, List.getElem?_append_left (by omega)]
    · rw [if_neg (by omega), List.getElem?_append_right (by omega), List.getElem?_drop]
      congr 1
      omega

theorem take_storeAt_zero : (storeAt buf 0 bs).take bs.length = bs := by
  simp [storeAt]

/-- A second store to the same place hides the first. -/
theorem storeAt_storeAt {cs : List α} (hlen : bs.length = cs.length) (h : off + bs.length ≤ buf.length) :
    storeAt (storeAt buf off bs) off cs = storeAt buf off cs := by
  apply List.ext_getElem?
  intro i
  rw [storeAt_getElem? _ _ _ (by rw [length_storeAt _ _ _ h]; omega), storeAt_getElem? _ _ _ h,
    storeAt_getElem? _ _ _ (by omega), hlen]
  split_ifs <;> rfl

/-- Stores to different places commute. -/
theorem storeAt_comm {cs : List α} {off' : Nat} (h : off + bs.length ≤ buf.length)
    (h' : off' + cs.length ≤ buf.length) (hapart : off + bs.length ≤ off' ∨ off' + cs.length ≤ off) :
    storeAt (storeAt buf off bs) off' cs = storeAt (storeAt buf off' cs) off bs := by
  apply List.ext_getElem?
  intro i
  rw [storeAt_getElem? _ _ _ (by rwa [length_storeAt _ _ _ h]), storeAt_getElem? _ _ _ h,
    storeAt_getElem? _ _ _ (by rwa [length_storeAt _ _ _ h']), storeAt_getElem? _ _ _ h']
  split_ifs
  · omega
  · rfl
  · rfl
  · rfl

/-- A store that changes nothing writes what is there. -/
theorem storeAt_eq_self_iff (h : off + bs.length ≤ buf.length) :
    storeAt buf off bs = buf ↔ (buf.drop off).take bs.length = bs := by
  constructor
  · intro heq
    have hdrop : (storeAt buf off bs).drop off = bs ++ buf.drop (off + bs.length) :=
      List.drop_left' (by rw [List.length_take]; omega)
    rw [← heq, hdrop, List.take_left' rfl]
  · intro htake
    have hjoin : bs ++ buf.drop (off + bs.length) = buf.drop off := by
      rw [← List.drop_drop]
      nth_rewrite 1 [← htake]
      exact List.take_append_drop _ _
    rw [storeAt, hjoin, List.take_append_drop]

/-- What a store elsewhere leaves. -/
theorem take_drop_storeAt {off' n : Nat} (h : off + bs.length ≤ buf.length)
    (hapart : off + bs.length ≤ off' ∨ off' + n ≤ off) :
    ((storeAt buf off bs).drop off').take n = (buf.drop off').take n := by
  apply List.ext_getElem?
  intro i
  rw [List.getElem?_take, List.getElem?_take, List.getElem?_drop, List.getElem?_drop,
    storeAt_getElem? _ _ _ h]
  split_ifs
  · omega
  · rfl
  · rfl

end Store

end PulseLink.Bytes
