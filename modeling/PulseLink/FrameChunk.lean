import PulseLink.Frame

/-! The chunks of a frame. The parser of `frame_asm_feed` accepts a payload exactly when its fields fit
together (`Chunk.Legal`), and the payloads `frame_chunk_build` makes of an image are accepted as the
image's own slices. -/

namespace PulseLink

open Bytes

/-! ### Accepted chunks -/

/-- What the checks of the parser establish, as facts about numbers. -/
structure Chunk.Legal (c : Chunk) : Prop where
  width_pos : 0 < c.width.toNat
  height_pos : 0 < c.height.toNat
  total_eq : c.total.toNat = c.width.toNat * c.height.toNat
  total_le : c.total.toNat ≤ 2 ^ 22
  count_eq : c.count.toNat = Blocks.count FRAME_CHUNK_MAX c.total.toNat
  idx_lt : c.idx.toNat < c.count.toNat
  off_eq : c.off.toNat = FRAME_CHUNK_MAX * c.idx.toNat
  len_eq : c.bytes.length = Blocks.len FRAME_CHUNK_MAX c.total.toNat c.idx.toNat

theorem frameChunkCount_toNat {total : UInt32} (hle : total.toNat ≤ 2 ^ 22) :
    (frameChunkCount total).toNat = Blocks.count FRAME_CHUNK_MAX total.toNat := by
  have hadd : (total + 1024).toNat = total.toNat + 1024 := by
    rw [UInt32.toNat_add]
    exact Nat.mod_eq_of_lt (by show total.toNat + 1024 < 2 ^ 32; omega)
  have hsub : (total + 1024 - 1).toNat = total.toNat + 1024 - 1 := by
    rw [UInt32.toNat_sub_of_le _ _ (by rw [UInt32.le_iff_toNat_le, hadd]; show 1 ≤ _; omega), hadd]
    rfl
  rw [frameChunkCount, UInt32.toNat_toUInt16, UInt32.toNat_div, hsub, Blocks.count]
  show (total.toNat + 1024 - 1) / 1024 % 2 ^ 16 = (total.toNat + 1024 - 1) / 1024
  omega

theorem toNat_mul_dims (width height : UInt16) :
    (width.toUInt32 * height.toUInt32).toNat = width.toNat * height.toNat := by
  have hw := width.toNat_lt
  have hh := height.toNat_lt
  rw [UInt32.toNat_mul, UInt16.toNat_toUInt32, UInt16.toNat_toUInt32]
  apply Nat.mod_eq_of_lt
  calc width.toNat * height.toNat ≤ (2 ^ 16 - 1) * (2 ^ 16 - 1) :=
        Nat.mul_le_mul (by omega) (by omega)
    _ < 2 ^ 32 := by norm_num

theorem toNat_chunk_off (idx : UInt16) :
    (idx.toUInt32 * 1024).toNat = FRAME_CHUNK_MAX * idx.toNat := by
  have hidx := idx.toNat_lt
  rw [UInt32.toNat_mul, UInt16.toNat_toUInt32]
  show idx.toNat * 1024 % 2 ^ 32 = 1024 * idx.toNat
  rw [Nat.mod_eq_of_lt (by omega), Nat.mul_comm]

theorem toNat_chunkExpect {total off : UInt32} (hoff : off.toNat ≤ total.toNat) :
    (chunkExpect total off).toNat = min 1024 (total.toNat - off.toNat) := by
  have hsub : (total - off).toNat = total.toNat - off.toNat :=
    UInt32.toNat_sub_of_le _ _ (UInt32.le_iff_toNat_le.mpr hoff)
  have hiff : total - off > 1024 ↔ 1024 < total.toNat - off.toNat := by
    rw [gt_iff_lt, UInt32.lt_iff_toNat_lt, hsub]
    rfl
  rw [chunkExpect]
  split_ifs with hbig
  · rw [hiff] at hbig
    show 1024 = min 1024 (total.toNat - off.toNat)
    omega
  · rw [hiff] at hbig
    omega

theorem pos_of_ne_zero {v : UInt16} (hv : v ≠ 0) : 0 < v.toNat := by
  rcases Nat.eq_zero_or_pos v.toNat with h0 | h0
  · exact absurd (UInt16.toNat_inj.mp h0) hv
  · exact h0

theorem length_readChunk_bytes {payload : List UInt8} (h12 : ¬ UInt16.ofNat payload.length < 12) :
    (readChunk payload).bytes.length = (UInt16.ofNat payload.length - 12).toNat := by
  have hle : 12 ≤ UInt16.ofNat payload.length := UInt16.not_lt.mp h12
  have hmod : (UInt16.ofNat payload.length).toNat = payload.length % 2 ^ 16 := UInt16.toNat_ofNat'
  rw [readChunk, List.length_take, List.length_drop, UInt16.toNat_sub_of_le _ _ hle, hmod]
  show min (payload.length % 2 ^ 16 - 12) (payload.length - 12) = payload.length % 2 ^ 16 - 12
  omega

/-- The parser accepts exactly the payloads whose fields are legal. -/
theorem parseChunk_eq_some_iff {payload : List UInt8} {c : Chunk} :
    parseChunk payload = some c ↔
      ¬ UInt16.ofNat payload.length < 12 ∧ readChunk payload = c ∧ c.Legal := by
  have htotal : (readChunk payload).total.toNat =
      (readChunk payload).width.toNat * (readChunk payload).height.toNat := toNat_mul_dims _ _
  have hoffN : (readChunk payload).off.toNat = FRAME_CHUNK_MAX * (readChunk payload).idx.toNat :=
    toNat_chunk_off _
  have hcapN : (readChunk payload).total > FRAME_MAX_PIXELS ↔
      2 ^ 22 < (readChunk payload).total.toNat := by
    rw [gt_iff_lt, UInt32.lt_iff_toNat_lt]
    rfl
  simp only [parseChunk]
  constructor
  · intro hparse
    split_ifs at hparse with h12 hdims hcap hcount hidx hoff hlen
    cases hparse
    simp only [not_or] at hdims
    rw [hcapN, not_lt] at hcap
    rw [ne_eq, not_not] at hcount hlen
    rw [ge_iff_le, UInt16.not_le, UInt16.lt_iff_toNat_lt] at hidx
    rw [ge_iff_le, UInt32.not_le, UInt32.lt_iff_toNat_lt] at hoff
    refine ⟨h12, rfl, pos_of_ne_zero hdims.1, pos_of_ne_zero hdims.2.1, htotal, hcap, ?_, hidx, hoffN, ?_⟩
    · rw [← hcount]
      exact frameChunkCount_toNat hcap
    · have hexpect := congrArg UInt32.toNat hlen
      rw [toNat_chunkExpect hoff.le, UInt16.toNat_toUInt32, hoffN] at hexpect
      rw [length_readChunk_bytes h12, hexpect]
      rfl
  · rintro ⟨h12, rfl, hlegal⟩
    have hcountN := frameChunkCount_toNat hlegal.total_le
    have hlt : (readChunk payload).off.toNat < (readChunk payload).total.toNat := by
      rw [hoffN]
      exact Blocks.mul_lt_of_lt_count (by decide) (hlegal.count_eq ▸ hlegal.idx_lt)
    have hne : ∀ {v : UInt16}, 0 < v.toNat → v ≠ 0 := by
      rintro v hpos rfl
      exact absurd hpos (by decide)
    rw [if_neg h12, if_neg, if_neg, if_neg, if_neg, if_neg, if_neg]
    · rw [not_not, ← UInt32.toNat_inj, toNat_chunkExpect hlt.le, UInt16.toNat_toUInt32,
        ← length_readChunk_bytes h12, hlegal.len_eq, hoffN]
      rfl
    · rw [ge_iff_le, UInt32.not_le, UInt32.lt_iff_toNat_lt]
      exact hlt
    · rw [ge_iff_le, UInt16.not_le, UInt16.lt_iff_toNat_lt]
      exact hlegal.idx_lt
    · rw [not_not, ← UInt16.toNat_inj, hcountN, hlegal.count_eq]
    · rw [hcapN, not_lt]
      exact hlegal.total_le
    · simp only [not_or]
      exact ⟨hne hlegal.width_pos, hne hlegal.height_pos, hne (by have := hlegal.idx_lt; omega)⟩

/-! ### Frames -/

/-- What tells one frame from another. -/
structure FrameId where
  width : UInt16
  height : UInt16
  frameSeq : UInt32
  deriving DecidableEq, Repr

def Chunk.frame (c : Chunk) : FrameId := ⟨c.width, c.height, c.frameSeq⟩

/-- The number of pixels of a frame. -/
def FrameId.size (id : FrameId) : Nat := id.width.toNat * id.height.toNat

/-- The number of chunks of a frame. -/
def FrameId.chunks (id : FrameId) : Nat := Blocks.count FRAME_CHUNK_MAX id.size

/-- A chunk as a block write into the pixel buffer. -/
def Chunk.write (c : Chunk) : Blocks.Write UInt8 := (c.idx.toNat, c.bytes)

theorem Chunk.Legal.size_eq {c : Chunk} (hlegal : c.Legal) : c.total.toNat = c.frame.size :=
  hlegal.total_eq

theorem Chunk.Legal.idx_lt_chunks {c : Chunk} (hlegal : c.Legal) : c.idx.toNat < c.frame.chunks := by
  have h := hlegal.idx_lt
  rw [hlegal.count_eq, hlegal.size_eq] at h
  exact h

theorem Chunk.Legal.fits {c : Chunk} (hlegal : c.Legal) {ws : List (Blocks.Write UInt8)}
    (hfits : Blocks.Fits FRAME_CHUNK_MAX c.frame.size ws) :
    Blocks.Fits FRAME_CHUNK_MAX c.frame.size (ws ++ [c.write]) := by
  intro w hw
  rcases List.mem_append.mp hw with h | h
  · exact hfits w h
  · rw [List.mem_singleton] at h
    subst h
    refine ⟨hlegal.idx_lt_chunks, ?_⟩
    rw [← hlegal.size_eq]
    exact hlegal.len_eq

theorem FrameId.chunks_le {id : FrameId} (hle : id.size ≤ 2 ^ 22) : id.chunks ≤ 4096 := by
  rw [FrameId.chunks, Blocks.count]
  show (id.size + 1024 - 1) / 1024 ≤ 4096
  omega

theorem FrameId.chunks_pos {id : FrameId} (hpos : 0 < id.size) : 0 < id.chunks :=
  Nat.zero_lt_of_lt (Blocks.div_lt_count (B := FRAME_CHUNK_MAX) (by decide) hpos)

/-! ### Header and bytes -/

section Payload

variable (width height : UInt16) (frameSeq : UInt32) (idx count : UInt16)

/-- The parser reads back the fields of a frame header, and the bytes behind it. -/
theorem readChunk_frameHeader {bytes : List UInt8} (hlen : bytes.length ≤ 65523) :
    readChunk (frameHeader width height frameSeq idx count ++ bytes) =
      { width := width, height := height, frameSeq := frameSeq, idx := idx, count := count
        total := width.toUInt32 * height.toUInt32, off := idx.toUInt32 * 1024, bytes := bytes } := by
  have h0 : rdBe16 (frameHeader width height frameSeq idx count ++ bytes) 0 = width :=
    rdBe16_append [] _ _ rfl
  have h2 : rdBe16 (frameHeader width height frameSeq idx count ++ bytes) 2 = height :=
    rdBe16_append (be16 width) _ _ rfl
  have h4 : rdBe32 (frameHeader width height frameSeq idx count ++ bytes) 4 = frameSeq :=
    rdBe32_append (be16 width ++ be16 height) _ _ rfl
  have h8 : rdBe16 (frameHeader width height frameSeq idx count ++ bytes) 8 = idx :=
    rdBe16_append (be16 width ++ be16 height ++ be32 frameSeq) _ _ rfl
  have h10 : rdBe16 (frameHeader width height frameSeq idx count ++ bytes) 10 = count :=
    rdBe16_append (be16 width ++ be16 height ++ be32 frameSeq ++ be16 idx) _ _ rfl
  have hplen : (UInt16.ofNat (frameHeader width height frameSeq idx count ++ bytes).length).toNat =
      12 + bytes.length := by
    rw [List.length_append]
    exact UInt16.toNat_ofNat_of_lt' (by show 12 + bytes.length < 2 ^ 16; omega)
  have hbytes : ((frameHeader width height frameSeq idx count ++ bytes).drop 12).take
      (UInt16.ofNat (frameHeader width height frameSeq idx count ++ bytes).length - 12).toNat = bytes := by
    rw [UInt16.toNat_sub_of_le _ _ (UInt16.le_iff_toNat_le.mpr (by rw [hplen]; exact Nat.le_add_right _ _)),
      hplen]
    exact List.take_of_length_le (by show bytes.length ≤ 12 + bytes.length - 12; omega)
  rw [readChunk, h0, h2, h4, h8, h10, hbytes]

/-- Twelve bytes are the frame header read out of them. -/
theorem frameHeader_readChunk {payload : List UInt8} (hlen : 12 ≤ payload.length) :
    let c := readChunk payload
    frameHeader c.width c.height c.frameSeq c.idx c.count ++ payload.drop 12 = payload := by
  intro c
  have h0 : be16 c.width = payload.take 2 := be16_rdBe16 (by omega)
  have h2 : be16 c.height = (payload.drop 2).take 2 := be16_rdBe16 (by omega)
  have h4 : be32 c.frameSeq = (payload.drop 4).take 4 := be32_rdBe32 (by omega)
  have h8 : be16 c.idx = (payload.drop 8).take 2 := be16_rdBe16 (by omega)
  have h10 : be16 c.count = (payload.drop 10).take 2 := be16_rdBe16 (by omega)
  have hjoin : ∀ i n, (payload.drop i).take n ++ payload.drop (i + n) = payload.drop i := by
    intro i n
    rw [← List.drop_drop, List.take_append_drop]
  rw [frameHeader, h0, h2, h4, h8, h10]
  simp only [List.append_assoc]
  rw [hjoin 10 2, hjoin 8 2, hjoin 4 4, hjoin 2 2]
  exact List.take_append_drop 2 payload

/-- `frame_chunk_build` puts a packet header in front of the frame header and the bytes of its chunk. -/
theorem frameChunkBuild_packet {cap : Nat} (deviceId : UInt32) {chunk : List UInt8} {chunkLen : UInt16}
    (hlen : chunkLen.toNat ≤ chunk.length) (hmax : chunkLen.toNat ≤ FRAME_CHUNK_MAX)
    (hcap : PL_HDR_SIZE + 12 + FRAME_CHUNK_MAX ≤ cap) :
    frameChunkBuild cap deviceId width height frameSeq idx count chunk chunkLen =
      some (packetBytes PktType.frame.code deviceId
        (frameHeader width height frameSeq idx count ++ chunk.take chunkLen.toNat)) := by
  have hplen := toNat_frame_plen hmax
  have hpay : (frameHeader width height frameSeq idx count ++ chunk.take chunkLen.toNat).length =
      (12 + chunkLen).toNat := by
    rw [List.length_append, List.length_take, Nat.min_eq_left hlen, hplen]
    rfl
  have hplenv : UInt16.ofNat (frameHeader width height frameSeq idx count ++
      chunk.take chunkLen.toNat).length = 12 + chunkLen := by
    rw [hpay, UInt16.ofNat_toNat]
  rw [frameChunkBuild, if_neg (by omega)]
  simp only [hplen]
  rw [if_neg (by omega), ← hplen, List.take_of_length_le hpay.le]
  simp only [packetBytes, PlHeader.wire, builtHeader, hplenv]

end Payload

/-! ### The chunks of one image -/

namespace Raster

variable (r : Raster) (frameSeq : UInt32)

def frame : FrameId := ⟨UInt16.ofNat r.w, UInt16.ofNat r.h, frameSeq⟩

/-- The payload of the image's chunk `i`. -/
def chunkPayload (i : Nat) : List UInt8 :=
  frameHeader (UInt16.ofNat r.w) (UInt16.ofNat r.h) frameSeq (UInt16.ofNat i)
    (frameChunkCount (UInt32.ofNat (r.w * r.h))) ++ Blocks.slice FRAME_CHUNK_MAX r.pix i

/-- The chunk the parser reads out of that payload. -/
def chunk (i : Nat) : Chunk where
  width := UInt16.ofNat r.w
  height := UInt16.ofNat r.h
  frameSeq := frameSeq
  idx := UInt16.ofNat i
  count := frameChunkCount (UInt32.ofNat (r.w * r.h))
  total := (UInt16.ofNat r.w).toUInt32 * (UInt16.ofNat r.h).toUInt32
  off := (UInt16.ofNat i).toUInt32 * 1024
  bytes := Blocks.slice FRAME_CHUNK_MAX r.pix i

theorem toNat_w : (UInt16.ofNat r.w).toNat = r.w :=
  UInt16.toNat_ofNat_of_lt' (by have := r.wide; show r.w < 2 ^ 16; omega)

theorem toNat_h : (UInt16.ofNat r.h).toNat = r.h :=
  UInt16.toNat_ofNat_of_lt' (by have := r.high; show r.h < 2 ^ 16; omega)

theorem frame_size : (r.frame frameSeq).size = r.pix.length := by
  rw [FrameId.size, r.hpix]
  exact congrArg₂ (· * ·) r.toNat_w r.toNat_h

theorem pix_le : r.pix.length ≤ 2 ^ 22 := r.hpix ▸ r.hcap

theorem toNat_total : (UInt32.ofNat (r.w * r.h)).toNat = r.pix.length := by
  have := r.hcap
  rw [UInt32.toNat_ofNat_of_lt' (by show r.w * r.h < 2 ^ 32; omega), r.hpix]

theorem frame_chunks : (r.frame frameSeq).chunks = Blocks.count FRAME_CHUNK_MAX r.pix.length := by
  rw [FrameId.chunks, r.frame_size]

theorem toNat_count :
    (frameChunkCount (UInt32.ofNat (r.w * r.h))).toNat = (r.frame frameSeq).chunks := by
  rw [frameChunkCount_toNat (by rw [r.toNat_total]; exact r.pix_le), r.toNat_total, r.frame_chunks]

theorem toNat_idx {i : Nat} (hi : i < (r.frame frameSeq).chunks) : (UInt16.ofNat i).toNat = i := by
  have hsize : (r.frame frameSeq).size ≤ 2 ^ 22 := r.frame_size frameSeq ▸ r.pix_le
  have hle := FrameId.chunks_le hsize
  exact UInt16.toNat_ofNat_of_lt' (by show i < 2 ^ 16; omega)

theorem chunk_legal {i : Nat} (hi : i < (r.frame frameSeq).chunks) : (r.chunk frameSeq i).Legal := by
  have htotal : (r.chunk frameSeq i).total.toNat = r.pix.length := by
    rw [← r.frame_size frameSeq]
    exact toNat_mul_dims _ _
  have hidx : (r.chunk frameSeq i).idx.toNat = i := r.toNat_idx frameSeq hi
  refine ⟨?_, ?_, toNat_mul_dims _ _, ?_, ?_, ?_, toNat_chunk_off _, ?_⟩
  · rw [show (r.chunk frameSeq i).width.toNat = r.w from r.toNat_w]
    exact r.hw
  · rw [show (r.chunk frameSeq i).height.toNat = r.h from r.toNat_h]
    exact r.hh
  · rw [htotal]
    exact r.pix_le
  · rw [htotal, ← r.frame_chunks frameSeq]
    exact r.toNat_count frameSeq
  · rw [hidx]
    exact hi.trans_eq (r.toNat_count frameSeq).symm
  · rw [htotal, hidx]
    exact Blocks.length_slice _ _ _

theorem length_chunkPayload (i : Nat) :
    (r.chunkPayload frameSeq i).length = 12 + Blocks.len FRAME_CHUNK_MAX r.pix.length i := by
  rw [chunkPayload, List.length_append, Blocks.length_slice]
  rfl

theorem length_chunkPayload_le (i : Nat) : (r.chunkPayload frameSeq i).length ≤ 1036 := by
  rw [length_chunkPayload, Blocks.len]
  show 12 + min 1024 _ ≤ 1036
  omega

theorem readChunk_chunkPayload (i : Nat) :
    readChunk (r.chunkPayload frameSeq i) = r.chunk frameSeq i := by
  have hle := r.length_chunkPayload_le frameSeq i
  rw [chunkPayload, List.length_append] at hle
  exact readChunk_frameHeader _ _ _ _ _ (by omega)

theorem parseChunk_chunkPayload {i : Nat} (hi : i < (r.frame frameSeq).chunks) :
    parseChunk (r.chunkPayload frameSeq i) = some (r.chunk frameSeq i) := by
  have hlen := r.length_chunkPayload frameSeq i
  have hle := r.length_chunkPayload_le frameSeq i
  refine parseChunk_eq_some_iff.mpr ⟨?_, r.readChunk_chunkPayload frameSeq i,
    r.chunk_legal frameSeq hi⟩
  rw [UInt16.lt_iff_toNat_lt, UInt16.toNat_ofNat_of_lt' (by show _ < 2 ^ 16; omega), hlen]
  show ¬ 12 + _ < 12
  omega

/-- `frame_chunk_build` on a slice of the image makes the FRAME packet with that payload. -/
theorem frameChunkBuild_eq {cap : Nat} (deviceId : UInt32) {i : Nat}
    (hcap : PL_HDR_SIZE + 12 + FRAME_CHUNK_MAX ≤ cap) :
    frameChunkBuild cap deviceId (UInt16.ofNat r.w) (UInt16.ofNat r.h) frameSeq (UInt16.ofNat i)
      (frameChunkCount (UInt32.ofNat (r.w * r.h))) (r.pix.drop (FRAME_CHUNK_MAX * i))
      (UInt16.ofNat (Blocks.len FRAME_CHUNK_MAX r.pix.length i)) =
    some (packetBytes PktType.frame.code deviceId (r.chunkPayload frameSeq i)) := by
  have hmax : Blocks.len FRAME_CHUNK_MAX r.pix.length i ≤ FRAME_CHUNK_MAX := by
    rw [Blocks.len]
    omega
  have hmaxv : FRAME_CHUNK_MAX = 1024 := rfl
  have hclen : (UInt16.ofNat (Blocks.len FRAME_CHUNK_MAX r.pix.length i)).toNat =
      Blocks.len FRAME_CHUNK_MAX r.pix.length i :=
    UInt16.toNat_ofNat_of_lt' (by show _ < 2 ^ 16; omega)
  have htake : (r.pix.drop (FRAME_CHUNK_MAX * i)).take (Blocks.len FRAME_CHUNK_MAX r.pix.length i) =
      Blocks.slice FRAME_CHUNK_MAX r.pix i := by
    rw [Blocks.slice, List.take_eq_take_iff, List.length_drop, Blocks.len]
    omega
  have hdrop : (UInt16.ofNat (Blocks.len FRAME_CHUNK_MAX r.pix.length i)).toNat ≤
      (r.pix.drop (FRAME_CHUNK_MAX * i)).length := by
    rw [hclen, List.length_drop, Blocks.len]
    omega
  rw [frameChunkBuild_packet _ _ _ _ _ deviceId hdrop (hclen.trans_le hmax) hcap, hclen, htake]
  rfl

end Raster

end PulseLink
