import PulseLink.FrameReassembly

/-! The representation invariant of `frame_asm_t`. The bounds of a store come from the header of the
payload at hand, the sizes of the buffers from the header that started the frame; that the two belong to
one frame makes them equal. -/

namespace PulseLink

/-! ### The invariant -/

/-- An active assembler whose buffers fit its dimensions and whose counter counts its flags. -/
structure FrameAsm.Sized (fa : FrameAsm) : Prop where
  active : fa.active = true
  width_pos : 1 ≤ fa.width.toNat
  height_pos : 1 ≤ fa.height.toNat
  total_eq : fa.total.toNat = fa.width.toNat * fa.height.toNat
  total_le : fa.total.toNat ≤ 2 ^ 22
  count_eq : fa.chunkCount.toNat = (fa.total.toNat + 1023) / 1024
  buf_len : fa.buf.length = fa.total.toNat
  seen_len : fa.seen.length = fa.chunkCount.toNat
  received_eq : fa.received.toNat = fa.seen.count true

/-- Between two feeds some chunks of the frame are there, but not all. -/
structure FrameAsm.InProgress (fa : FrameAsm) : Prop extends fa.Sized where
  received_pos : 0 < fa.received.toNat
  received_lt : fa.received.toNat < fa.chunkCount.toNat

/-- Idle with every field zero, or in the middle of a frame. -/
def FrameAsm.RepInv (fa : FrameAsm) : Prop := fa = frameAsmInit ∨ fa.InProgress

/-- Storing `c` into `fa` stays inside the flags and the pixel buffer, the copy of the finished image
reads exactly the pixel buffer, and the counter does not wrap. -/
structure Chunk.FitsIn (c : Chunk) (fa : FrameAsm) : Prop where
  seen_bound : c.idx.toNat < fa.seen.length
  buf_bound : c.off.toNat + c.bytes.length ≤ fa.buf.length
  image_bound : c.total.toNat = fa.buf.length
  received_next : fa.seen.getD c.idx.toNat false = false →
    (fa.received + 1).toNat = fa.received.toNat + 1 ∧ fa.received.toNat + 1 ≤ fa.chunkCount.toNat

/-! ### Stores -/

/-- A chunk with the dimensions of the frame in progress has its size and its number of chunks. -/
theorem FrameAsm.Sized.same_frame {fa : FrameAsm} {c : Chunk} (hsized : fa.Sized) (hlegal : c.Legal)
    (hwidth : fa.width = c.width) (hheight : fa.height = c.height) :
    c.total.toNat = fa.total.toNat ∧ c.count.toNat = fa.chunkCount.toNat := by
  have htotal : c.total.toNat = fa.total.toNat := by
    rw [hlegal.total_eq, hsized.total_eq, hwidth, hheight]
  refine ⟨htotal, ?_⟩
  rw [hlegal.count_eq, htotal, hsized.count_eq]
  rfl

theorem FrameAsm.Sized.fitsIn {fa : FrameAsm} {c : Chunk} (hsized : fa.Sized) (hlegal : c.Legal)
    (hwidth : fa.width = c.width) (hheight : fa.height = c.height) : c.FitsIn fa := by
  obtain ⟨htotal, hcount⟩ := hsized.same_frame hlegal hwidth hheight
  have hidx : c.idx.toNat < fa.seen.length := by
    rw [hsized.seen_len, ← hcount]
    exact hlegal.idx_lt
  have hoff : FRAME_CHUNK_MAX * c.idx.toNat < c.total.toNat :=
    Blocks.mul_lt_of_lt_count (by decide) (hlegal.count_eq ▸ hlegal.idx_lt)
  refine ⟨hidx, ?_, by rw [htotal, hsized.buf_len], ?_⟩
  · rw [hlegal.off_eq, hlegal.len_eq, hsized.buf_len, ← htotal]
    exact Blocks.off_add_len_le _ _ _ hoff.le
  · intro hflag
    have hnew : fa.seen[c.idx.toNat]? = some false := by
      rw [List.getD_eq_getElem _ _ hidx] at hflag
      rw [List.getElem?_eq_getElem hidx, hflag]
    -- one flag is still clear, so at most all but one are counted
    have hle : fa.received.toNat + 1 ≤ fa.chunkCount.toNat := by
      have hset : (fa.seen.set c.idx.toNat true).count true ≤ (fa.seen.set c.idx.toNat true).length :=
        List.count_le_length
      rw [Blocks.count_set_true hnew, List.length_set, hsized.seen_len] at hset
      rw [hsized.received_eq]
      exact hset
    refine ⟨?_, hle⟩
    have hlt := fa.chunkCount.toNat_lt
    rw [UInt16.toNat_add]
    exact Nat.mod_eq_of_lt (by show fa.received.toNat + 1 < 2 ^ 16; omega)

theorem sized_begin {c : Chunk} (hlegal : c.Legal) (contents : Nat → UInt8) :
    (FrameAsm.begin contents c).Sized where
  active := rfl
  width_pos := hlegal.width_pos
  height_pos := hlegal.height_pos
  total_eq := hlegal.total_eq
  total_le := hlegal.total_le
  count_eq := hlegal.count_eq
  buf_len := by rw [FrameAsm.begin, List.length_map, List.length_range]
  seen_len := List.length_replicate
  received_eq := by
    show 0 = (List.replicate c.count.toNat false).count true
    rw [List.count_replicate]
    rfl

/-- A store keeps the sizes and leaves at least one chunk counted. -/
theorem FrameAsm.Sized.store {fa : FrameAsm} {c : Chunk} (hsized : fa.Sized) (hfits : c.FitsIn fa) :
    (fa.store c).Sized ∧ 0 < (fa.store c).received.toNat := by
  have hidx := hfits.seen_bound
  have hbuf : (Bytes.storeAt fa.buf c.off.toNat c.bytes).length = fa.total.toNat :=
    (Bytes.length_storeAt _ _ _ hfits.buf_bound).trans hsized.buf_len
  rw [FrameAsm.store]
  cases hflag : fa.seen.getD c.idx.toNat false with
  | true =>
      simp only [if_true]
      refine ⟨{ hsized with buf_len := hbuf }, ?_⟩
      rw [List.getD_eq_getElem _ _ hidx] at hflag
      show 0 < fa.received.toNat
      rw [hsized.received_eq, List.count_pos_iff, ← hflag]
      exact List.getElem_mem hidx
  | false =>
      simp only [Bool.false_eq_true, if_false]
      have hnext := (hfits.received_next hflag).1
      have hnew : fa.seen[c.idx.toNat]? = some false := by
        rw [List.getD_eq_getElem _ _ hidx] at hflag
        rw [List.getElem?_eq_getElem hidx, hflag]
      refine ⟨{ hsized with buf_len := hbuf, seen_len := ?_, received_eq := ?_ }, ?_⟩
      · exact List.length_set.trans hsized.seen_len
      · show (fa.received + 1).toNat = (fa.seen.set c.idx.toNat true).count true
        rw [hnext, Blocks.count_set_true hnew, hsized.received_eq]
      · show 0 < (fa.received + 1).toNat
        rw [hnext]
        exact Nat.succ_pos _

/-! ### Feeds -/

/-- The assembler whose buffers a feed of `c` writes to: the one in progress, or a new one if its buffers
can be had. -/
def FrameAsm.target (alloc : FrameAlloc) (fa : FrameAsm) (c : Chunk) : Option FrameAsm :=
  if fa.otherFrame c then
    match alloc.buf, alloc.seen with
    | some contents, true => some (.begin contents c)
    | _, _ => none
  else some fa

/-- A feed stores its chunk into the target, and only there. -/
theorem feed_target {fa : FrameAsm} {f : Feed} {c : Chunk} (hparse : parseChunk f.payload = some c) :
    fa.feed f = match fa.target f.alloc c with
      | none => (.malformed, frameAsmInit)
      | some fa' => fa'.collect f.alloc c := by
  simp only [FrameAsm.feed, frameAsmFeed, hparse, FrameAsm.target]
  split_ifs
  · cases f.alloc.buf with
    | none => rfl
    | some contents => cases f.alloc.seen <;> rfl
  · rfl

theorem FrameAsm.RepInv.target {fa fa' : FrameAsm} {alloc : FrameAlloc} {c : Chunk} (hrep : fa.RepInv)
    (hlegal : c.Legal) (htarget : fa.target alloc c = some fa') : fa'.Sized ∧ c.FitsIn fa' := by
  rw [FrameAsm.target] at htarget
  split_ifs at htarget with hother
  · split at htarget
    · next contents _ _ =>
        cases htarget
        have hsized := sized_begin hlegal contents
        exact ⟨hsized, hsized.fitsIn hlegal rfl rfl⟩
    · cases htarget
  · cases htarget
    rcases hrep with rfl | hprog
    · exact absurd rfl hother
    · have hsame : fa.width = c.width ∧ fa.height = c.height := by
        simp only [FrameAsm.otherFrame, hprog.active, Bool.not_true, Bool.false_or, Bool.or_eq_true,
          bne_iff_ne, ne_eq, not_or, not_not] at hother
        exact ⟨hother.1.2, hother.2⟩
      exact ⟨hprog.toSized, hprog.toSized.fitsIn hlegal hsame.1 hsame.2⟩

/-- The rest of a feed completes the frame and goes idle, or leaves it in progress. -/
theorem FrameAsm.Sized.collect {fa : FrameAsm} {c : Chunk} (hsized : fa.Sized) (hfits : c.FitsIn fa)
    (alloc : FrameAlloc) : (fa.collect alloc c).2.RepInv := by
  obtain ⟨hstore, hpos⟩ := hsized.store hfits
  rw [FrameAsm.collect]
  split_ifs with hall
  · left
    split <;> rfl
  · refine Or.inr ⟨hstore, hpos, lt_of_le_of_ne ?_ fun h => hall (UInt16.toNat_inj.mp h)⟩
    rw [hstore.received_eq, ← hstore.seen_len]
    exact List.count_le_length

theorem FrameAsm.RepInv.feed {fa : FrameAsm} (hrep : fa.RepInv) (f : Feed) : (fa.feed f).2.RepInv := by
  cases hparse : parseChunk f.payload with
  | none =>
      rw [feed_malformed hparse]
      exact hrep
  | some c =>
      rw [feed_target hparse]
      cases htarget : fa.target f.alloc c with
      | none => exact Or.inl rfl
      | some fa' =>
          obtain ⟨hsized, hfits⟩ := hrep.target (parseChunk_eq_some_iff.mp hparse).2.2 htarget
          exact hsized.collect hfits f.alloc

theorem FrameAsm.RepInv.feedAll {fa : FrameAsm} (hrep : fa.RepInv) (fs : List Feed) :
    (fa.feedAll fs).2.RepInv := by
  induction fs generalizing fa with
  | nil => exact hrep
  | cons f fs ih => exact ih (hrep.feed f)

/-- **The reassembler keeps its representation.** After any feeds, with any allocation outcomes, the
assembler is idle or in the middle of a frame with buffers of exactly the right sizes. The next feed
touches its buffers only if it accepts its payload, and then stays inside those it writes to; the size,
the offset and the expected length it computes do not wrap for any payload. -/
theorem reassembler_invariant (fs : List Feed) :
    let fa := (frameAsmInit.feedAll fs).2
    fa.RepInv ∧ ∀ f : Feed,
      (parseChunk f.payload = none → fa.feed f = (.malformed, fa)) ∧
      (∀ c, parseChunk f.payload = some c →
        (fa.target f.alloc c = none → fa.feed f = (.malformed, frameAsmInit)) ∧
        ∀ fa', fa.target f.alloc c = some fa' → fa.feed f = fa'.collect f.alloc c ∧ c.FitsIn fa') ∧
      let c := readChunk f.payload
      c.total.toNat = c.width.toNat * c.height.toNat ∧ c.off.toNat = 1024 * c.idx.toNat ∧
        (c.off < c.total → (c.total - c.off).toNat = c.total.toNat - c.off.toNat ∧
          (chunkExpect c.total c.off).toNat = min 1024 (c.total.toNat - c.off.toNat)) := by
  intro fa
  have hrep : fa.RepInv := FrameAsm.RepInv.feedAll (Or.inl rfl) fs
  refine ⟨hrep, fun f => ⟨feed_malformed, ?_, toNat_mul_dims _ _, toNat_chunk_off _, ?_⟩⟩
  · intro c hparse
    refine ⟨fun htarget => by rw [feed_target hparse, htarget], ?_⟩
    intro fa' htarget
    refine ⟨by rw [feed_target hparse, htarget], ?_⟩
    exact (hrep.target (parseChunk_eq_some_iff.mp hparse).2.2 htarget).2
  · intro hoff
    have hle := (UInt32.lt_iff_toNat_lt.mp hoff).le
    exact ⟨UInt32.toNat_sub_of_le _ _ (UInt32.le_iff_toNat_le.mpr hle), toNat_chunkExpect hle⟩

/-- The first chunk of a two-chunk image leaves the frame in progress, and the second one fits into it. -/
theorem reassembler_invariant_twoChunk :
    let alloc : FrameAlloc := ⟨some fun _ => 0xAA, true, true⟩
    let fa := (frameAsmInit.feedAll [⟨alloc, twoChunkRaster.chunkPayload 9 0⟩]).2
    fa.RepInv ∧ fa.received = 1 ∧ (twoChunkRaster.chunk 9 1).FitsIn fa := by
  intro alloc fa
  have hinv := reassembler_invariant [⟨alloc, twoChunkRaster.chunkPayload 9 0⟩]
  have hparse := twoChunkRaster.parseChunk_chunkPayload 9 (i := 1) (by rw [twoChunkRaster_chunks]; decide)
  have htarget : fa.target alloc (twoChunkRaster.chunk 9 1) = some fa := by
    have hsame : fa.otherFrame (twoChunkRaster.chunk 9 1) = false := by decide +kernel
    rw [FrameAsm.target, hsame]
    rfl
  exact ⟨hinv.1, by decide +kernel,
    (((hinv.2 ⟨alloc, twoChunkRaster.chunkPayload 9 1⟩).2.1 _ hparse).2 fa htarget).2⟩

end PulseLink
