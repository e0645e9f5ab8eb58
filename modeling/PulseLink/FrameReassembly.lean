import PulseLink.FrameChunk

/-! Reassembly of frames. An accepted chunk is a block write into the pixel buffer of its frame; between
two resets the assembler holds exactly the block writes of one frame (`Collecting`), so it completes when
every block has been written and the image it hands out is what the last write of each block left. -/

namespace PulseLink

open Bytes

/-! ### The assembler between two resets -/

/-- The assembler collects frame `id` and has stored the writes `ws` into a buffer that started with
`contents`. -/
structure Collecting (fa : FrameAsm) (id : FrameId) (contents : List UInt8)
    (ws : List (Blocks.Write UInt8)) : Prop where
  active : fa.active = true
  frame : (⟨fa.width, fa.height, fa.frameSeq⟩ : FrameId) = id
  size_pos : 0 < id.size
  size_le : id.size ≤ 2 ^ 22
  count_eq : fa.chunkCount.toNat = id.chunks
  contents_len : contents.length = id.size
  buf_eq : fa.buf = Blocks.writeAll FRAME_CHUNK_MAX contents ws
  seen_eq : fa.seen = Blocks.flags id.chunks ws
  received_eq : fa.received.toNat = (Blocks.flags id.chunks ws).count true
  fits : Blocks.Fits FRAME_CHUNK_MAX id.size ws

/-- A new frame starts with nothing written. -/
theorem collecting_begin {c : Chunk} (hlegal : c.Legal) (contents : Nat → UInt8) :
    Collecting (.begin contents c) c.frame ((List.range c.total.toNat).map contents) [] where
  active := rfl
  frame := rfl
  size_pos := Nat.mul_pos hlegal.width_pos hlegal.height_pos
  size_le := hlegal.size_eq ▸ hlegal.total_le
  count_eq := by rw [FrameId.chunks, ← hlegal.size_eq]; exact hlegal.count_eq
  contents_len := by rw [List.length_map, List.length_range, hlegal.size_eq]
  buf_eq := rfl
  seen_eq := by
    rw [Blocks.flags_nil, FrameId.chunks, ← hlegal.size_eq, ← hlegal.count_eq]
    rfl
  received_eq := by
    rw [Blocks.flags_nil, List.count_replicate]
    rfl
  fits := by simp [Blocks.Fits]

/-- Storing a chunk of the frame in progress is one more block write. -/
theorem Collecting.store {fa : FrameAsm} {c : Chunk} {contents : List UInt8}
    {ws : List (Blocks.Write UInt8)} (hcol : Collecting fa c.frame contents ws) (hlegal : c.Legal) :
    Collecting (fa.store c) c.frame contents (ws ++ [c.write]) := by
  have hlt := hlegal.idx_lt_chunks
  have hflag := Blocks.flags_getElem? ws hlt
  have hbuf : storeAt fa.buf c.off.toNat c.bytes =
      Blocks.writeAll FRAME_CHUNK_MAX contents (ws ++ [c.write]) := by
    rw [Blocks.writeAll_append, hcol.buf_eq, hlegal.off_eq]
    rfl
  have happend : Blocks.flags c.frame.chunks (ws ++ [c.write]) =
      (Blocks.flags c.frame.chunks ws).set c.idx.toNat true := Blocks.flags_append _ _ _
  have hseenD : fa.seen.getD c.idx.toNat false = ws.any fun w => w.1 = c.idx.toNat := by
    rw [hcol.seen_eq, List.getD_eq_getElem?_getD, hflag, Option.getD_some]
  rw [FrameAsm.store]
  cases hseen : ws.any fun w => w.1 = c.idx.toNat with
  | true =>
      have hset : (Blocks.flags c.frame.chunks ws).set c.idx.toNat true =
          Blocks.flags c.frame.chunks ws := Blocks.set_true_of_true (hflag.trans (by rw [hseen]))
      rw [hseen] at hseenD
      simp only [hseenD, if_true]
      exact
        { hcol with
          buf_eq := hbuf
          seen_eq := by rw [happend, hset]; exact hcol.seen_eq
          received_eq := by rw [happend, hset]; exact hcol.received_eq
          fits := hlegal.fits hcol.fits }
  | false =>
      rw [hseen] at hseenD
      simp only [hseenD, if_false, Bool.false_eq_true]
      have hcount := Blocks.count_set_true (hflag.trans (by rw [hseen]))
      have hle := Blocks.count_flags_le c.frame.chunks (ws ++ [c.write])
      rw [happend, hcount] at hle
      have hfit : c.frame.chunks < 2 ^ 16 :=
        (FrameId.chunks_le hcol.size_le).trans_lt (by norm_num)
      exact
        { hcol with
          buf_eq := hbuf
          seen_eq := by rw [happend, hcol.seen_eq]
          received_eq := by
            rw [happend, hcount, UInt16.toNat_add, hcol.received_eq]
            exact Nat.mod_eq_of_lt (by show _ + 1 < 2 ^ 16; omega)
          fits := hlegal.fits hcol.fits }

/-- The received counter reaches the chunk count exactly when every chunk has been stored. -/
theorem Collecting.received_eq_iff {fa : FrameAsm} {id : FrameId} {contents : List UInt8}
    {ws : List (Blocks.Write UInt8)} (hcol : Collecting fa id contents ws) :
    fa.received = fa.chunkCount ↔ Blocks.Covers id.chunks ws := by
  rw [← UInt16.toNat_inj, hcol.received_eq, hcol.count_eq, Blocks.count_flags_eq_iff]

/-- The image a completed frame is handed out as. -/
def FrameId.image (id : FrameId) (pix : List UInt8) : Image :=
  ⟨id.width.toNat, id.height.toNat, pix⟩

theorem imageAlloc_frame {c : Chunk} (hlegal : c.Legal) (callocOk : Bool) :
    imageAlloc callocOk c.width.toNat c.height.toNat =
      if callocOk then
        some ⟨c.width.toNat, c.height.toNat, List.replicate (c.width.toNat * c.height.toNat : Int).toNat 0⟩
      else none := by
  have hw := hlegal.width_pos
  have hh := hlegal.height_pos
  have hle : ((c.width.toNat : Int) * c.height.toNat) ≤ IMAGE_MAX_PIXELS := by
    have := hlegal.total_eq ▸ hlegal.total_le
    rw [IMAGE_MAX_PIXELS]
    exact_mod_cast this
  rw [imageAlloc, if_neg (by omega), if_neg (by omega)]

/-- What a feed does with a chunk of the frame in progress: it waits for more, or hands out the buffer
once every chunk is there; in both cases the chunk counts as one more write. -/
theorem Collecting.collect {fa : FrameAsm} {c : Chunk} {contents : List UInt8}
    {ws : List (Blocks.Write UInt8)} (hcol : Collecting fa c.frame contents ws) (hlegal : c.Legal)
    (alloc : FrameAlloc) :
    (¬ Blocks.Covers c.frame.chunks (ws ++ [c.write]) ∧
      fa.collect alloc c = (.more, fa.store c)) ∨
    (Blocks.Covers c.frame.chunks (ws ++ [c.write]) ∧ alloc.img = false ∧
      fa.collect alloc c = (.malformed, frameAsmInit)) ∨
    (Blocks.Covers c.frame.chunks (ws ++ [c.write]) ∧ alloc.img = true ∧
      fa.collect alloc c =
        (.complete (c.frame.image (Blocks.writeAll FRAME_CHUNK_MAX contents (ws ++ [c.write]))),
          frameAsmInit)) := by
  have hstore := hcol.store hlegal
  rw [FrameAsm.collect, imageAlloc_frame hlegal]
  by_cases hcovers : Blocks.Covers c.frame.chunks (ws ++ [c.write])
  · refine Or.inr ?_
    rw [if_pos (hstore.received_eq_iff.mpr hcovers)]
    cases himg : alloc.img with
    | false => exact Or.inl ⟨hcovers, rfl, rfl⟩
    | true =>
        refine Or.inr ⟨hcovers, rfl, ?_⟩
        have hlen := Blocks.length_writeAll (by decide) hstore.contents_len hstore.fits
        have htake : (fa.store c).buf.take c.total.toNat =
            Blocks.writeAll FRAME_CHUNK_MAX contents (ws ++ [c.write]) := by
          rw [hstore.buf_eq, List.take_of_length_le (by rw [hlen, hlegal.size_eq])]
        simp only [if_true, htake]
        rfl
  · refine Or.inl ⟨hcovers, ?_⟩
    rw [if_neg (fun h => hcovers (hstore.received_eq_iff.mp h))]

theorem otherFrame_iff {fa : FrameAsm} {id : FrameId} {contents : List UInt8}
    {ws : List (Blocks.Write UInt8)} (hcol : Collecting fa id contents ws) (c : Chunk) :
    fa.otherFrame c = true ↔ c.frame ≠ id := by
  rw [FrameAsm.otherFrame, hcol.active, ← hcol.frame, Chunk.frame]
  simp only [Bool.not_true, Bool.false_or, Bool.or_eq_true, bne_iff_ne, ne_eq, FrameId.mk.injEq,
    not_and]
  constructor
  · rintro ((h | h) | h) hw hh hs
    · exact h hs.symm
    · exact h hw.symm
    · exact h hh.symm
  · intro h
    by_contra hall
    push Not at hall
    exact h hall.1.2.symm hall.2.symm hall.1.1.symm

theorem otherFrame_of_idle {fa : FrameAsm} (hidle : fa.active = false) (c : Chunk) :
    fa.otherFrame c = true := by
  simp [FrameAsm.otherFrame, hidle]

/-! ### Sequences of feeds -/

/-- One call of `frame_asm_feed`: its payload and the outcomes of its allocations. -/
structure Feed where
  alloc : FrameAlloc
  payload : List UInt8

/-- All allocations of the feed succeed. -/
def Feed.AllocOk (f : Feed) : Prop := f.alloc.buf.isSome ∧ f.alloc.seen = true ∧ f.alloc.img = true

def FrameAsm.feed (fa : FrameAsm) (f : Feed) : FeedResult × FrameAsm :=
  frameAsmFeed f.alloc fa f.payload

/-- The results of the feeds, in order, and the assembler after them. -/
def FrameAsm.feedAll : FrameAsm → List Feed → List FeedResult × FrameAsm
  | fa, [] => ([], fa)
  | fa, f :: fs =>
      let rest := (fa.feed f).2.feedAll fs
      ((fa.feed f).1 :: rest.1, rest.2)

theorem feedAll_append (fa : FrameAsm) (fs gs : List Feed) :
    fa.feedAll (fs ++ gs) =
      ((fa.feedAll fs).1 ++ ((fa.feedAll fs).2.feedAll gs).1, ((fa.feedAll fs).2.feedAll gs).2) := by
  induction fs generalizing fa with
  | nil => rfl
  | cons f fs ih => simp only [List.cons_append, FrameAsm.feedAll, ih]

theorem feedAll_singleton (fa : FrameAsm) (f : Feed) :
    fa.feedAll [f] = ([(fa.feed f).1], (fa.feed f).2) := rfl

/-- A chunk of the frame in progress is collected into it. -/
theorem feed_same {fa : FrameAsm} {f : Feed} {c : Chunk} {contents : List UInt8}
    {ws : List (Blocks.Write UInt8)} (hcol : Collecting fa c.frame contents ws)
    (hparse : parseChunk f.payload = some c) : fa.feed f = fa.collect f.alloc c := by
  have hsame : fa.otherFrame c ≠ true := fun h => (otherFrame_iff hcol c).mp h rfl
  simp only [FrameAsm.feed, frameAsmFeed, hparse, if_neg hsame]

/-- A chunk of another frame, or any chunk when idle, starts a new frame if the buffers come. -/
theorem feed_other {fa : FrameAsm} {f : Feed} {c : Chunk} (hother : fa.otherFrame c = true)
    (hparse : parseChunk f.payload = some c) :
    fa.feed f = (.malformed, frameAsmInit) ∨
      ∃ contents, f.alloc.buf = some contents ∧ f.alloc.seen = true ∧
        fa.feed f = (FrameAsm.begin contents c).collect f.alloc c := by
  simp only [FrameAsm.feed, frameAsmFeed, hparse, if_pos hother]
  split
  · next contents hbuf hseen => exact Or.inr ⟨contents, hbuf, hseen, rfl⟩
  · exact Or.inl rfl

theorem feed_malformed {fa : FrameAsm} {f : Feed} (hparse : parseChunk f.payload = none) :
    fa.feed f = (.malformed, fa) := by
  simp only [FrameAsm.feed, frameAsmFeed, hparse]

/-- An assembler that is idle with nothing written, or collects `id` with the writes `ws`. -/
def Holds (fa : FrameAsm) (id : FrameId) (ws : List (Blocks.Write UInt8)) : Prop :=
  (fa.active = false ∧ ws = []) ∨ ∃ contents, Collecting fa id contents ws

/-- With memory available, a chunk is collected into its frame, which it starts when idle. -/
theorem Holds.feed {fa : FrameAsm} {f : Feed} {c : Chunk} {ws : List (Blocks.Write UInt8)}
    (hholds : Holds fa c.frame ws) (halloc : f.AllocOk) (hparse : parseChunk f.payload = some c) :
    ∃ fa₀ contents, Collecting fa₀ c.frame contents ws ∧ fa.feed f = fa₀.collect f.alloc c := by
  have hlegal := (parseChunk_eq_some_iff.mp hparse).2.2
  rcases hholds with ⟨hidle, rfl⟩ | ⟨contents, hcol⟩
  · obtain ⟨contents, hbuf⟩ := Option.isSome_iff_exists.mp halloc.1
    refine ⟨.begin contents c, _, collecting_begin hlegal contents, ?_⟩
    simp only [FrameAsm.feed, frameAsmFeed, hparse, if_pos (otherFrame_of_idle hidle c), hbuf,
      halloc.2.1]
  · exact ⟨fa, contents, hcol, feed_same hcol hparse⟩

/-! ### Any order, any repetition -/

namespace Raster

variable (r : Raster) (frameSeq : UInt32)

/-- Feeds of chunks of the image, with memory available. -/
def Sends (fs : List Feed) : Prop :=
  ∀ f ∈ fs, f.AllocOk ∧ ∃ i < (r.frame frameSeq).chunks, f.payload = r.chunkPayload frameSeq i

/-- Every chunk of the image has been fed at least once. -/
def AllSent (fs : List Feed) : Prop :=
  ∀ i < (r.frame frameSeq).chunks, ∃ f ∈ fs, f.payload = r.chunkPayload frameSeq i

/-- The block writes that the feeds `fs` amount to. -/
structure Writes (fs : List Feed) (ws : List (Blocks.Write UInt8)) : Prop where
  slices : ∀ w ∈ ws, w.1 < (r.frame frameSeq).chunks ∧ w.2 = Blocks.slice FRAME_CHUNK_MAX r.pix w.1
  sent : ∀ i < (r.frame frameSeq).chunks,
    (∃ w ∈ ws, w.1 = i) ↔ ∃ f ∈ fs, f.payload = r.chunkPayload frameSeq i

variable {r frameSeq}

theorem chunkPayload_injective {i j : Nat} (hi : i < (r.frame frameSeq).chunks)
    (hj : j < (r.frame frameSeq).chunks)
    (heq : r.chunkPayload frameSeq i = r.chunkPayload frameSeq j) : i = j := by
  have hchunk := congrArg readChunk heq
  rw [readChunk_chunkPayload, readChunk_chunkPayload] at hchunk
  have hidx : UInt16.ofNat i = UInt16.ofNat j := congrArg Chunk.idx hchunk
  rw [← r.toNat_idx frameSeq hi, ← r.toNat_idx frameSeq hj, hidx]

theorem Writes.covers_iff {fs : List Feed} {ws : List (Blocks.Write UInt8)}
    (hws : r.Writes frameSeq fs ws) :
    Blocks.Covers (r.frame frameSeq).chunks ws ↔ r.AllSent frameSeq fs :=
  forall₂_congr hws.sent

theorem writes_nil : r.Writes frameSeq [] [] where
  slices := by simp
  sent := by simp

theorem Writes.snoc {fs : List Feed} {ws : List (Blocks.Write UInt8)} {f : Feed} {i : Nat}
    (hws : r.Writes frameSeq fs ws) (hi : i < (r.frame frameSeq).chunks)
    (hf : f.payload = r.chunkPayload frameSeq i) :
    r.Writes frameSeq (fs ++ [f]) (ws ++ [(r.chunk frameSeq i).write]) := by
  have hidx : (r.chunk frameSeq i).idx.toNat = i := r.toNat_idx frameSeq hi
  constructor
  · intro w hw
    rcases List.mem_append.mp hw with h | h
    · exact hws.slices w h
    · rw [List.mem_singleton] at h
      subst h
      rw [Chunk.write, hidx]
      exact ⟨hi, rfl⟩
  · intro j hj
    have hlast : (r.chunk frameSeq i).write.1 = j ↔ f.payload = r.chunkPayload frameSeq j := by
      rw [Chunk.write, hidx, hf]
      constructor
      · rintro rfl
        rfl
      · exact chunkPayload_injective hi hj
    simp only [List.mem_append, List.mem_singleton, or_and_right, exists_or, exists_eq_left, hlast,
      hws.sent j hj]

theorem AllSent.mono {fs gs : List Feed} (hall : r.AllSent frameSeq fs) :
    r.AllSent frameSeq (fs ++ gs) := by
  intro i hi
  obtain ⟨f, hf, hpay⟩ := hall i hi
  exact ⟨f, List.mem_append_left _ hf, hpay⟩

/-- Before the image is complete every feed asks for more, and the assembler holds the writes made. -/
theorem feedAll_before {fa : FrameAsm} (hidle : fa.active = false) {fs : List Feed}
    (hsends : r.Sends frameSeq fs) (hmissing : ¬ r.AllSent frameSeq fs) :
    (fa.feedAll fs).1 = List.replicate fs.length .more ∧
      ∃ ws, r.Writes frameSeq fs ws ∧ Holds (fa.feedAll fs).2 (r.frame frameSeq) ws := by
  induction fs using List.reverseRecOn with
  | nil => exact ⟨rfl, [], writes_nil, Or.inl ⟨hidle, rfl⟩⟩
  | append_singleton fs f ih =>
      obtain ⟨hmore, ws, hws, hholds⟩ := ih (fun g hg => hsends g (List.mem_append_left _ hg))
        (fun hall => hmissing hall.mono)
      obtain ⟨halloc, i, hi, hf⟩ := hsends f (by simp)
      have hparse : parseChunk f.payload = some (r.chunk frameSeq i) :=
        hf ▸ r.parseChunk_chunkPayload frameSeq hi
      have hlegal := r.chunk_legal frameSeq hi
      obtain ⟨fa₀, contents, hcol, hfeed⟩ :=
        Holds.feed (c := r.chunk frameSeq i) hholds halloc hparse
      have hws' := hws.snoc hi hf
      rcases hcol.collect hlegal f.alloc with ⟨-, hcollect⟩ | ⟨hcovers, -⟩ | ⟨hcovers, -⟩
      · rw [feedAll_append, feedAll_singleton, hfeed, hcollect, hmore]
        refine ⟨by simp [List.replicate_succ'], _, hws', Or.inr ⟨contents, hcol.store hlegal⟩⟩
      · exact absurd (hws'.covers_iff.mp hcovers) hmissing
      · exact absurd (hws'.covers_iff.mp hcovers) hmissing

/-- The feed that brings the last missing chunk hands out the image and leaves the assembler idle. -/
theorem feed_last {fa : FrameAsm} (hidle : fa.active = false) {fs : List Feed} {f : Feed}
    (hsends : r.Sends frameSeq (fs ++ [f])) (hmissing : ¬ r.AllSent frameSeq fs)
    (hall : r.AllSent frameSeq (fs ++ [f])) :
    (fa.feedAll fs).2.feed f = (.complete r.image, frameAsmInit) := by
  obtain ⟨-, ws, hws, hholds⟩ := feedAll_before hidle
    (fun g hg => hsends g (List.mem_append_left _ hg)) hmissing
  obtain ⟨halloc, i, hi, hf⟩ := hsends f (by simp)
  have hparse : parseChunk f.payload = some (r.chunk frameSeq i) :=
    hf ▸ r.parseChunk_chunkPayload frameSeq hi
  obtain ⟨fa₀, contents, hcol, hfeed⟩ := Holds.feed (c := r.chunk frameSeq i) hholds halloc hparse
  have hws' := hws.snoc hi hf
  have hcovers := hws'.covers_iff.mpr hall
  have hlen : contents.length = r.pix.length := hcol.contents_len.trans (r.frame_size frameSeq)
  rw [hfeed]
  rcases hcol.collect (r.chunk_legal frameSeq hi) f.alloc with ⟨hnot, -⟩ | ⟨-, himg, -⟩ | ⟨-, -, hcollect⟩
  · exact absurd hcovers hnot
  · exact absurd halloc.2.2 (by rw [himg]; decide)
  · rw [r.frame_chunks] at hcovers
    have hslices := hws'.slices
    rw [r.frame_chunks] at hslices
    rw [hcollect, Blocks.writeAll_slices (by decide) hlen hslices hcovers]
    simp only [FrameId.image, Chunk.frame, chunk, r.toNat_w, r.toNat_h, Canvas.image]

end Raster

/-- **Reassembly does not depend on order or repetition.** Chunks of one image, fed to an idle assembler
in any order and with any repetitions, return 0 until all of them have been fed; the feed that brings the
last missing one returns 1 with the image and leaves the assembler idle for what follows. -/
theorem reassembly_any_order (r : Raster) (frameSeq : UInt32) (fa : FrameAsm)
    (hidle : fa.active = false) (fs : List Feed) (hsends : r.Sends frameSeq fs) :
    (¬ r.AllSent frameSeq fs → (fa.feedAll fs).1 = List.replicate fs.length .more) ∧
    ∀ before f after, fs = before ++ f :: after → ¬ r.AllSent frameSeq before →
      r.AllSent frameSeq (before ++ [f]) →
      fa.feedAll fs =
        (List.replicate before.length .more ++ .complete r.image :: (frameAsmInit.feedAll after).1,
          (frameAsmInit.feedAll after).2) := by
  refine ⟨fun hmissing => (Raster.feedAll_before hidle hsends hmissing).1, ?_⟩
  rintro before f after rfl hmissing hall
  have hsends' : r.Sends frameSeq (before ++ [f]) := by
    intro g hg
    refine hsends g ?_
    rcases List.mem_append.mp hg with h | h
    · exact List.mem_append_left _ h
    · rw [List.mem_singleton] at h
      simp [h]
  have hbefore := (Raster.feedAll_before hidle
    (fun g hg => hsends' g (List.mem_append_left _ hg)) hmissing).1
  rw [feedAll_append, hbefore, FrameAsm.feedAll, Raster.feed_last hidle hsends' hmissing hall]

/-- A 41 by 25 image, which takes two chunks. -/
def twoChunkRaster : Raster where
  w := 41
  h := 25
  pix := List.replicate 1025 7
  hw := by decide
  hh := by decide
  hpix := List.length_replicate
  hcap := by decide
  wide := by decide
  high := by decide

theorem twoChunkRaster_chunks (frameSeq : UInt32) : (twoChunkRaster.frame frameSeq).chunks = 2 := by
  rw [Raster.frame_chunks, Canvas.hpix]
  decide

/-- The second chunk twice and then the first: the image comes with the third feed. -/
theorem reassembly_any_order_twoChunk :
    let alloc : FrameAlloc := ⟨some fun _ => 0xAA, true, true⟩
    let send (i : Nat) : Feed := ⟨alloc, twoChunkRaster.chunkPayload 9 i⟩
    frameAsmInit.feedAll [send 1, send 1, send 0] =
      ([.more, .more, .complete twoChunkRaster.image], frameAsmInit) := by
  intro alloc send
  have hchunks := twoChunkRaster_chunks 9
  have hsends : twoChunkRaster.Sends 9 [send 1, send 1, send 0] := by
    intro f hf
    have hmem : f = send 1 ∨ f = send 0 := by simpa using hf
    rcases hmem with rfl | rfl
    · exact ⟨⟨rfl, rfl, rfl⟩, 1, by rw [hchunks]; decide, rfl⟩
    · exact ⟨⟨rfl, rfl, rfl⟩, 0, by rw [hchunks]; decide, rfl⟩
  have hmissing : ¬ twoChunkRaster.AllSent 9 [send 1, send 1] := by
    intro hall
    obtain ⟨f, hf, hpay⟩ := hall 0 (by rw [hchunks]; decide)
    have hf1 : f = send 1 := by simpa using hf
    subst hf1
    exact absurd (Raster.chunkPayload_injective (by rw [hchunks]; decide) (by rw [hchunks]; decide) hpay)
      (by decide)
  have hall : twoChunkRaster.AllSent 9 ([send 1, send 1] ++ [send 0]) := by
    intro i hi
    rw [hchunks] at hi
    interval_cases i
    · exact ⟨send 0, by simp, rfl⟩
    · exact ⟨send 1, by simp, rfl⟩
  exact (reassembly_any_order twoChunkRaster 9 frameAsmInit rfl _ hsends).2
    [send 1, send 1] (send 0) [] rfl hmissing hall

end PulseLink
