import PulseLink.FrameInvariant

/-! Which payloads `frame_asm_feed` accepts: exactly those that `frame_chunk_build` makes of a slice of a
frame within the caps. A payload it rejects leaves the assembler as it is. -/

namespace PulseLink

/-- A slice of a frame within the caps: chunk `idx` of the frame, with the bytes that belong there. -/
structure FrameSlice where
  width : UInt16
  height : UInt16
  frameSeq : UInt32
  idx : Nat
  bytes : List UInt8
  width_pos : 1 ≤ width.toNat
  height_pos : 1 ≤ height.toNat
  size_le : width.toNat * height.toNat ≤ 2 ^ 22
  idx_lt : idx < (width.toNat * height.toNat + 1023) / 1024
  len_eq : bytes.length = min 1024 (width.toNat * height.toNat - 1024 * idx)

namespace FrameSlice

/-- The number of chunks of the frame. -/
def count (s : FrameSlice) : Nat := (s.width.toNat * s.height.toNat + 1023) / 1024

/-- The packet that `frame_chunk_build` makes of the slice. -/
def build (s : FrameSlice) (cap : Nat) (deviceId : UInt32) : Option (List UInt8) :=
  frameChunkBuild cap deviceId s.width s.height s.frameSeq (UInt16.ofNat s.idx) (UInt16.ofNat s.count)
    s.bytes (UInt16.ofNat s.bytes.length)

/-- The payload of that packet. -/
def payload (s : FrameSlice) : List UInt8 :=
  frameHeader s.width s.height s.frameSeq (UInt16.ofNat s.idx) (UInt16.ofNat s.count) ++ s.bytes

variable (s : FrameSlice)

theorem count_le : s.count ≤ 4096 := by
  have hle := s.size_le
  rw [count]
  omega

theorem toNat_count : (UInt16.ofNat s.count).toNat = s.count :=
  UInt16.toNat_ofNat_of_lt' (by have := s.count_le; show s.count < 2 ^ 16; omega)

theorem toNat_idx : (UInt16.ofNat s.idx).toNat = s.idx := by
  have hlt : s.idx < s.count := s.idx_lt
  exact UInt16.toNat_ofNat_of_lt' (by have := s.count_le; show s.idx < 2 ^ 16; omega)

theorem length_bytes_le : s.bytes.length ≤ 1024 := by
  rw [s.len_eq]
  exact Nat.min_le_left _ _

/-- The chunk that the parser reads out of the payload. -/
theorem readChunk_payload :
    readChunk s.payload =
      { width := s.width, height := s.height, frameSeq := s.frameSeq, idx := UInt16.ofNat s.idx
        count := UInt16.ofNat s.count, total := s.width.toUInt32 * s.height.toUInt32
        off := (UInt16.ofNat s.idx).toUInt32 * 1024, bytes := s.bytes } :=
  readChunk_frameHeader _ _ _ _ _ (by have := s.length_bytes_le; omega)

theorem legal : (readChunk s.payload).Legal := by
  have htotal := toNat_mul_dims s.width s.height
  rw [readChunk_payload]
  refine ⟨s.width_pos, s.height_pos, htotal, htotal.trans_le s.size_le, ?_, ?_, toNat_chunk_off _, ?_⟩
  · rw [htotal]
    exact s.toNat_count
  · show (UInt16.ofNat s.idx).toNat < (UInt16.ofNat s.count).toNat
    rw [s.toNat_idx, s.toNat_count]
    exact s.idx_lt
  · show s.bytes.length = Blocks.len FRAME_CHUNK_MAX _ (UInt16.ofNat s.idx).toNat
    rw [htotal, s.toNat_idx]
    exact s.len_eq

theorem length_payload : s.payload.length = 12 + s.bytes.length := List.length_append

theorem parse_payload : parseChunk s.payload = some (readChunk s.payload) := by
  refine parseChunk_eq_some_iff.mpr ⟨?_, rfl, s.legal⟩
  have hle := s.length_bytes_le
  rw [UInt16.lt_iff_toNat_lt, UInt16.toNat_ofNat_of_lt' (by rw [length_payload]; show _ < 2 ^ 16; omega),
    length_payload]
  exact Nat.not_lt.mpr (Nat.le_add_right _ _)

/-- What `frame_chunk_build` writes behind the packet header, if it writes. -/
theorem build_payload {cap : Nat} {deviceId : UInt32} {packet : List UInt8}
    (hbuild : s.build cap deviceId = some packet) : packet.drop PL_HDR_SIZE = s.payload := by
  have hle := s.length_bytes_le
  have hlen : (UInt16.ofNat s.bytes.length).toNat = s.bytes.length :=
    UInt16.toNat_ofNat_of_lt' (by show _ < 2 ^ 16; omega)
  have hbig : s.build (max cap 1048) deviceId = some packet :=
    frameChunkBuild_mono (Nat.le_max_left cap 1048) hbuild
  have hcap : PL_HDR_SIZE + 12 + FRAME_CHUNK_MAX ≤ max cap 1048 := Nat.le_max_right cap 1048
  rw [build, frameChunkBuild_packet _ _ _ _ _ deviceId hlen.le (hlen.trans_le hle) hcap, hlen,
    List.take_length, Option.some.injEq] at hbig
  rw [← hbig, packetBytes]
  exact List.drop_left' (PlHeader.length_wire _)

theorem build_isSome (deviceId : UInt32) : (s.build 1048 deviceId).isSome := by
  have hle := s.length_bytes_le
  have hlen : (UInt16.ofNat s.bytes.length).toNat = s.bytes.length :=
    UInt16.toNat_ofNat_of_lt' (by show _ < 2 ^ 16; omega)
  have hcap : PL_HDR_SIZE + 12 + FRAME_CHUNK_MAX ≤ 1048 := Nat.le_refl 1048
  rw [build, frameChunkBuild_packet _ _ _ _ _ deviceId hlen.le (hlen.trans_le hle) hcap]
  rfl

end FrameSlice

/-- A legal chunk as a slice of its frame. -/
def Chunk.Legal.slice {c : Chunk} (hlegal : c.Legal) : FrameSlice where
  width := c.width
  height := c.height
  frameSeq := c.frameSeq
  idx := c.idx.toNat
  bytes := c.bytes
  width_pos := hlegal.width_pos
  height_pos := hlegal.height_pos
  size_le := hlegal.total_eq ▸ hlegal.total_le
  idx_lt := hlegal.idx_lt.trans_eq (hlegal.count_eq.trans (congrArg (Blocks.count _) hlegal.total_eq))
  len_eq := hlegal.len_eq.trans (congrArg (Blocks.len _ · _) hlegal.total_eq)

theorem Chunk.Legal.count_slice {c : Chunk} (hlegal : c.Legal) : UInt16.ofNat hlegal.slice.count = c.count := by
  have hcount : hlegal.slice.count = c.count.toNat :=
    ((congrArg (Blocks.count _) hlegal.total_eq).symm.trans hlegal.count_eq.symm)
  rw [hcount, UInt16.ofNat_toNat]

/-- A payload the parser accepts is that of the slice it reads. -/
theorem slice_of_parse {payload : List UInt8} {c : Chunk} (hlen : payload.length ≤ 65535)
    (hparse : parseChunk payload = some c) : ∃ s : FrameSlice, s.payload = payload := by
  obtain ⟨h12, rfl, hlegal⟩ := parseChunk_eq_some_iff.mp hparse
  have hplen : (UInt16.ofNat payload.length).toNat = payload.length :=
    UInt16.toNat_ofNat_of_lt' (by show _ < 2 ^ 16; omega)
  have hlong : 12 ≤ payload.length := by
    rw [UInt16.lt_iff_toNat_lt, hplen] at h12
    exact Nat.not_lt.mp h12
  have hbytes : (readChunk payload).bytes = payload.drop 12 := by
    refine List.take_of_length_le ?_
    rw [UInt16.toNat_sub_of_le _ _ (UInt16.not_lt.mp h12), hplen, List.length_drop]
    exact Nat.le_refl _
  refine ⟨hlegal.slice, ?_⟩
  rw [FrameSlice.payload, hlegal.count_slice]
  show frameHeader _ _ _ (UInt16.ofNat (readChunk payload).idx.toNat) _ ++ (readChunk payload).bytes = payload
  rw [UInt16.ofNat_toNat, hbytes]
  exact frameHeader_readChunk hlong

/-! ### Feeds with memory available -/

/-- With memory for the image, the rest of a feed does not fail. -/
theorem collect_accepts {alloc : FrameAlloc} (himg : alloc.img = true) (fa : FrameAsm) {c : Chunk}
    (hlegal : c.Legal) : (fa.collect alloc c).1 ≠ .malformed := by
  rw [FrameAsm.collect, imageAlloc_frame hlegal, if_pos himg]
  split_ifs
  · simp
  · simp

theorem target_isSome {f : Feed} (halloc : f.AllocOk) (fa : FrameAsm) (c : Chunk) :
    ∃ fa', fa.target f.alloc c = some fa' := by
  obtain ⟨contents, hbuf⟩ := Option.isSome_iff_exists.mp halloc.1
  rw [FrameAsm.target, hbuf, halloc.2.1]
  split_ifs
  · exact ⟨_, rfl⟩
  · exact ⟨_, rfl⟩

/-- With memory available a feed accepts exactly what the parser does. -/
theorem feed_accepts_iff {f : Feed} (halloc : f.AllocOk) (fa : FrameAsm) :
    (fa.feed f).1 ≠ .malformed ↔ ∃ c, parseChunk f.payload = some c := by
  cases hparse : parseChunk f.payload with
  | none => simp [feed_malformed hparse]
  | some c =>
      obtain ⟨fa', htarget⟩ := target_isSome halloc fa c
      rw [feed_target hparse, htarget]
      have haccepts := collect_accepts halloc.2.2 fa' (parseChunk_eq_some_iff.mp hparse).2.2
      exact ⟨fun _ => ⟨c, rfl⟩, fun _ => haccepts⟩

/-- **The chunk parser accepts exactly the legal chunks, and rejects atomically.** In every state of the
assembler, with memory available, a payload is answered with 0 or 1 if and only if it is the payload of a
packet that `frame_chunk_build` makes of a slice of a frame within the caps; a payload answered with -1
leaves the assembler as it was. -/
theorem chunk_accepted_iff (fa : FrameAsm) (f : Feed) (halloc : f.AllocOk) (hlen : f.payload.length ≤ 65535) :
    ((fa.feed f).1 ≠ .malformed ↔ ∃ (s : FrameSlice) (cap : Nat) (deviceId : UInt32) (packet : List UInt8),
      s.build cap deviceId = some packet ∧ f.payload = packet.drop PL_HDR_SIZE) ∧
    ((fa.feed f).1 = .malformed → (fa.feed f).2 = fa) := by
  constructor
  · rw [feed_accepts_iff halloc]
    constructor
    · rintro ⟨c, hparse⟩
      obtain ⟨s, hs⟩ := slice_of_parse hlen hparse
      obtain ⟨packet, hbuild⟩ := Option.isSome_iff_exists.mp (s.build_isSome 0)
      exact ⟨s, 1048, 0, packet, hbuild, by rw [s.build_payload hbuild, hs]⟩
    · rintro ⟨s, cap, deviceId, packet, hbuild, hpayload⟩
      rw [s.build_payload hbuild] at hpayload
      exact ⟨_, by rw [hpayload, s.parse_payload]⟩
  · intro hmalformed
    have hnone : parseChunk f.payload = none := by
      cases hparse : parseChunk f.payload with
      | none => rfl
      | some c => exact absurd hmalformed ((feed_accepts_iff halloc fa).mpr ⟨c, hparse⟩)
    rw [feed_malformed hnone]

/-- The only chunk of a frame of one pixel. -/
def onePixelSlice : FrameSlice where
  width := 1
  height := 1
  frameSeq := 9
  idx := 0
  bytes := [7]
  width_pos := by decide
  height_pos := by decide
  size_le := by decide
  idx_lt := by decide
  len_eq := by decide

/-- The chunk of one pixel is accepted, three bytes are not, and leave the assembler idle. -/
theorem chunk_accepted_iff_onePixel :
    let alloc : FrameAlloc := ⟨some fun _ => 0xAA, true, true⟩
    (frameAsmInit.feed ⟨alloc, onePixelSlice.payload⟩).1 ≠ .malformed ∧
      (frameAsmInit.feed ⟨alloc, [1, 2, 3]⟩).2 = frameAsmInit := by
  intro alloc
  have hshort := chunk_accepted_iff frameAsmInit ⟨alloc, [1, 2, 3]⟩ ⟨rfl, rfl, rfl⟩ (by decide)
  have hpixel := chunk_accepted_iff frameAsmInit ⟨alloc, onePixelSlice.payload⟩ ⟨rfl, rfl, rfl⟩ (by decide)
  obtain ⟨packet, hbuild⟩ := Option.isSome_iff_exists.mp (onePixelSlice.build_isSome 5)
  refine ⟨hpixel.1.mpr ⟨onePixelSlice, 1048, 5, packet, hbuild, ?_⟩, hshort.2 (by decide)⟩
  rw [onePixelSlice.build_payload hbuild]

end PulseLink
