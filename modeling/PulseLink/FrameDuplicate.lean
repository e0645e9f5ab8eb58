import PulseLink.FrameInvariant

/-! A chunk of the frame in progress that has been seen before. `frame_asm_feed` does not count it again, but
copies its bytes over those of the first copy. So a run with the repeated chunk and the run without it return
the same numbers, and the images differ exactly when the frame is completed with the bytes of the repeat. -/

namespace PulseLink

open Bytes

/-- The return value of `frame_asm_feed`. -/
def FeedResult.code : FeedResult → Int
  | .malformed => -1
  | .more => 0
  | .complete _ => 1

/-- The assembler with the bytes of `c` in place of those it holds there. -/
def FrameAsm.overwrite (fa : FrameAsm) (c : Chunk) : FrameAsm :=
  { fa with buf := storeAt fa.buf c.off.toNat c.bytes }

/-- The feeds bring every chunk of the frame in progress that is not there yet. -/
def FrameAsm.Filled (fa : FrameAsm) (gs : List Feed) : Prop :=
  ∀ j < fa.chunkCount.toNat, fa.seen.getD j false = true ∨
    ∃ g ∈ gs, ∃ d, parseChunk g.payload = some d ∧ d.idx.toNat = j

/-- The feeds complete the frame in progress with the bytes that it now has at the place of `c`: up to the feed
that brings the last missing chunk there is no chunk of another frame and no copy of `c`, and the memory for
the image can be had. -/
def FrameAsm.CompletesWith (fa : FrameAsm) (c : Chunk) (fs : List Feed) : Prop :=
  ∃ mid f rest, fs = mid ++ f :: rest ∧
    (∀ g ∈ mid ++ [f], ∀ d, parseChunk g.payload = some d → fa.otherFrame d = false ∧ d.idx ≠ c.idx) ∧
    fa.Filled (mid ++ [f]) ∧ ¬ fa.Filled mid ∧ f.alloc.img = true

/-! ### Stores -/

/-- The first half of a store: flags the chunk, counting it when it is new. -/
def FrameAsm.flag (fa : FrameAsm) (c : Chunk) : FrameAsm :=
  if fa.seen.getD c.idx.toNat false then fa
  else { fa with seen := fa.seen.set c.idx.toNat true, received := fa.received + 1 }

section Stores

variable {fa : FrameAsm} {c d : Chunk}

theorem store_eq (fa : FrameAsm) (c : Chunk) : fa.store c = (fa.flag c).overwrite c := rfl

/-- A repeated chunk is not counted. -/
theorem store_seen (hseen : fa.seen.getD c.idx.toNat false = true) : fa.store c = fa.overwrite c := by
  rw [store_eq, FrameAsm.flag, if_pos hseen]

theorem flag_overwrite (fa : FrameAsm) (c d : Chunk) : (fa.overwrite c).flag d = (fa.flag d).overwrite c := by
  cases hseen : fa.seen.getD d.idx.toNat false with
  | true =>
      rw [FrameAsm.flag, FrameAsm.flag, if_pos hseen]
      exact if_pos hseen
  | false =>
      have hnew : ¬ fa.seen.getD d.idx.toNat false = true := by rw [hseen]; decide
      rw [FrameAsm.flag, FrameAsm.flag, if_neg hnew]
      exact if_neg hnew

theorem buf_flag (fa : FrameAsm) (c : Chunk) : (fa.flag c).buf = fa.buf := by
  rw [FrameAsm.flag]
  split_ifs <;> rfl

theorem FrameAsm.Sized.bound (hsized : fa.Sized) (hlegal : c.Legal) (hsame : fa.otherFrame c = false) :
    c.FitsIn fa := by
  have hdims : fa.width = c.width ∧ fa.height = c.height := by
    simp only [FrameAsm.otherFrame, hsized.active, Bool.not_true, Bool.false_or, Bool.or_eq_false_iff,
      bne_eq_false_iff_eq] at hsame
    exact ⟨hsame.1.2, hsame.2⟩
  exact hsized.fitsIn hlegal hdims.1 hdims.2

theorem Chunk.Legal.length_le (hlegal : c.Legal) : c.bytes.length ≤ FRAME_CHUNK_MAX := by
  rw [hlegal.len_eq]
  exact Nat.min_le_left _ _

/-- Chunks with different indices have their bytes in different places. -/
theorem apart (hc : c.Legal) (hd : d.Legal) (hne : d.idx ≠ c.idx) :
    c.off.toNat + FRAME_CHUNK_MAX ≤ d.off.toNat ∨ d.off.toNat + FRAME_CHUNK_MAX ≤ c.off.toNat := by
  have hidx : d.idx.toNat ≠ c.idx.toNat := fun h => hne (UInt16.toNat_inj.mp h)
  rw [hc.off_eq, hd.off_eq]
  show 1024 * c.idx.toNat + 1024 ≤ 1024 * d.idx.toNat ∨ 1024 * d.idx.toNat + 1024 ≤ 1024 * c.idx.toNat
  omega

/-- The bytes of another chunk do not touch those of `c`. -/
theorem overwrite_store (hc : c.Legal) (hd : d.Legal) (hfits : c.FitsIn fa) (hfits' : d.FitsIn fa)
    (hne : d.idx ≠ c.idx) : (fa.overwrite c).store d = (fa.store d).overwrite c := by
  have hlen := hc.length_le
  have hlen' := hd.length_le
  have hcomm := storeAt_comm (fa.flag d).buf c.bytes c.off.toNat ((buf_flag fa d).symm ▸ hfits.buf_bound)
    ((buf_flag fa d).symm ▸ hfits'.buf_bound) ((apart hc hd hne).imp (by omega) (by omega))
  rw [store_eq, store_eq, flag_overwrite]
  exact congrArg (fun buf => { fa.flag d with buf := buf }) hcomm

/-- Another copy of `c` hides the bytes of the first. -/
theorem overwrite_store_same (hc : c.Legal) (hd : d.Legal) (hfits : c.FitsIn fa) (hfits' : d.FitsIn fa)
    (hidx : d.idx = c.idx) : (fa.overwrite c).store d = fa.store d := by
  have htotal : d.total.toNat = c.total.toNat := hfits'.image_bound.trans hfits.image_bound.symm
  have hoff : d.off.toNat = c.off.toNat := by rw [hd.off_eq, hc.off_eq, hidx]
  have hlen : c.bytes.length = d.bytes.length := by rw [hc.len_eq, hd.len_eq, hidx, htotal]
  have hstore := storeAt_storeAt (fa.flag d).buf c.bytes c.off.toNat hlen
    ((buf_flag fa d).symm ▸ hfits.buf_bound)
  rw [store_eq, store_eq, flag_overwrite, FrameAsm.overwrite, FrameAsm.overwrite, FrameAsm.overwrite, hoff]
  exact congrArg (fun buf => { fa.flag d with buf := buf }) hstore

/-- The bytes that the assembler holds at the place of `c`. -/
theorem slice_store (hc : c.Legal) (hd : d.Legal) (hfits' : d.FitsIn fa) (hne : d.idx ≠ c.idx) :
    Blocks.slice FRAME_CHUNK_MAX (fa.store d).buf c.idx.toNat =
      Blocks.slice FRAME_CHUNK_MAX fa.buf c.idx.toNat := by
  have hlen' := hd.length_le
  have hoff := hc.off_eq
  rw [Blocks.slice, Blocks.slice, ← hoff, ← buf_flag fa d]
  exact take_drop_storeAt _ _ _ ((buf_flag fa d).symm ▸ hfits'.buf_bound)
    ((apart hc hd hne).symm.imp (by omega) id)

/-- Overwriting makes no difference exactly when the same bytes are there. -/
theorem overwrite_buf_iff (hc : c.Legal) (hfits : c.FitsIn fa) :
    (fa.overwrite c).buf = fa.buf ↔ Blocks.slice FRAME_CHUNK_MAX fa.buf c.idx.toNat = c.bytes := by
  have hslice : (fa.buf.drop c.off.toNat).take c.bytes.length =
      Blocks.slice FRAME_CHUNK_MAX fa.buf c.idx.toNat := by
    rw [Blocks.slice, hc.off_eq, List.take_eq_take_iff, List.length_drop, hc.len_eq, hfits.image_bound,
      Blocks.len]
    omega
  rw [← hslice]
  exact storeAt_eq_self_iff fa.buf c.bytes c.off.toNat hfits.buf_bound

end Stores

/-! ### When the frame is complete -/

section Complete

variable {fa : FrameAsm} {c d : Chunk} {g : Feed} {fs : List Feed}

theorem FrameAsm.Sized.received_iff (hsized : fa.Sized) : fa.received = fa.chunkCount ↔ fa.Filled [] := by
  rw [← UInt16.toNat_inj, hsized.received_eq, ← hsized.seen_len, List.count_eq_length]
  constructor
  · intro hall j hj
    rw [← hsized.seen_len] at hj
    left
    rw [List.getD_eq_getElem _ _ hj]
    exact (hall _ (List.getElem_mem hj)).symm
  · intro hfilled b hb
    obtain ⟨j, hj, rfl⟩ := List.mem_iff_getElem.mp hb
    rcases hfilled j (hsized.seen_len ▸ hj) with hseen | ⟨g, hg, -⟩
    · rw [List.getD_eq_getElem _ _ hj] at hseen
      exact hseen.symm
    · cases hg

theorem seen_store (hidx : d.idx.toNat < fa.seen.length) (j : Nat) :
    (fa.store d).seen.getD j false = true ↔ fa.seen.getD j false = true ∨ d.idx.toNat = j := by
  rw [store_eq, FrameAsm.overwrite, FrameAsm.flag]
  split_ifs with hseen
  · constructor
    · exact Or.inl
    · rintro (h | rfl)
      · exact h
      · exact hseen
  · simp only [List.getD_eq_getElem?_getD, List.getElem?_set]
    by_cases hj : d.idx.toNat = j
    · subst hj
      simp [hidx]
    · simp [hj]

theorem filled_cons (hparse : parseChunk g.payload = some d) (hidx : d.idx.toNat < fa.seen.length)
    (gs : List Feed) : fa.Filled (g :: gs) ↔ (fa.store d).Filled gs := by
  have hcount : (fa.store d).chunkCount = fa.chunkCount := by
    rw [store_eq, FrameAsm.overwrite, FrameAsm.flag]
    split_ifs <;> rfl
  unfold FrameAsm.Filled
  rw [hcount]
  refine forall₂_congr fun j _ => ?_
  rw [seen_store hidx, or_assoc]
  refine or_congr_right ?_
  simp [hparse]

theorem filled_skip (hparse : parseChunk g.payload = none) (gs : List Feed) :
    fa.Filled (g :: gs) ↔ fa.Filled gs := by
  unfold FrameAsm.Filled
  simp [hparse]

theorem completes_nil : ¬ fa.CompletesWith c [] := by
  rintro ⟨mid, f, rest, hsplit, -⟩
  simp at hsplit

/-- The frame is completed by the first feed, or by those behind it. -/
theorem completes_cons_iff :
    fa.CompletesWith c (g :: fs) ↔
      (∀ d, parseChunk g.payload = some d → fa.otherFrame d = false ∧ d.idx ≠ c.idx) ∧
      ((fa.Filled [g] ∧ ¬ fa.Filled [] ∧ g.alloc.img = true) ∨
        ∃ mid f rest, fs = mid ++ f :: rest ∧
          (∀ h ∈ mid ++ [f], ∀ d, parseChunk h.payload = some d → fa.otherFrame d = false ∧ d.idx ≠ c.idx) ∧
          fa.Filled (g :: (mid ++ [f])) ∧ ¬ fa.Filled (g :: mid) ∧ f.alloc.img = true) := by
  constructor
  · rintro ⟨mid, f, rest, hsplit, hclear, hfilled, hmissing, himg⟩
    cases mid with
    | nil =>
        obtain ⟨rfl, rfl⟩ := List.cons.inj hsplit
        exact ⟨hclear g List.mem_cons_self, Or.inl ⟨hfilled, hmissing, himg⟩⟩
    | cons g' mid =>
        obtain ⟨rfl, hrest⟩ := List.cons.inj hsplit
        exact ⟨hclear g List.mem_cons_self, Or.inr ⟨mid, f, rest, hrest,
          fun h hh => hclear h (List.mem_cons_of_mem _ hh), hfilled, hmissing, himg⟩⟩
  · rintro ⟨hfirst, ⟨hfilled, hmissing, himg⟩ | ⟨mid, f, rest, rfl, hclear, hfilled, hmissing, himg⟩⟩
    · refine ⟨[], g, fs, rfl, ?_, hfilled, hmissing, himg⟩
      intro h hh
      obtain rfl := List.mem_singleton.mp hh
      exact hfirst
    · refine ⟨g :: mid, f, rest, rfl, ?_, hfilled, hmissing, himg⟩
      intro h hh
      rcases List.mem_cons.mp hh with rfl | hh
      · exact hfirst
      · exact hclear h hh

/-- A malformed payload makes no difference. -/
theorem completes_skip (hmissing : ¬ fa.Filled []) (hparse : parseChunk g.payload = none) :
    fa.CompletesWith c (g :: fs) ↔ fa.CompletesWith c fs := by
  rw [completes_cons_iff]
  simp only [filled_skip hparse, hparse]
  constructor
  · rintro ⟨-, ⟨hfilled, -⟩ | hrest⟩
    · exact absurd hfilled hmissing
    · exact hrest
  · intro hrest
    exact ⟨by simp, Or.inr hrest⟩

theorem completes_stop (hparse : parseChunk g.payload = some d)
    (hstop : fa.otherFrame d = true ∨ d.idx = c.idx) : ¬ fa.CompletesWith c (g :: fs) := by
  rw [completes_cons_iff]
  rintro ⟨hfirst, -⟩
  obtain ⟨hsame, hne⟩ := hfirst d hparse
  rcases hstop with hother | hidx
  · rw [hsame] at hother
    cases hother
  · exact hne hidx

/-- The first feed brings the last missing chunk. -/
theorem completes_last (hmissing : ¬ fa.Filled []) (hparse : parseChunk g.payload = some d)
    (hsame : fa.otherFrame d = false) (hne : d.idx ≠ c.idx) (hidx : d.idx.toNat < fa.seen.length)
    (hfilled : (fa.store d).Filled []) : fa.CompletesWith c (g :: fs) ↔ g.alloc.img = true := by
  have hall : ∀ mid, fa.Filled (g :: mid) := by
    intro mid
    rw [filled_cons hparse hidx]
    intro j hj
    rcases hfilled j hj with hseen | ⟨h, hh, -⟩
    · exact Or.inl hseen
    · cases hh
  rw [completes_cons_iff]
  constructor
  · rintro ⟨-, ⟨-, -, himg⟩ | ⟨mid, f, rest, -, -, -, hnot, -⟩⟩
    · exact himg
    · exact absurd (hall mid) hnot
  · intro himg
    refine ⟨?_, Or.inl ⟨hall [], hmissing, himg⟩⟩
    intro d' hparse'
    cases hparse.symm.trans hparse'
    exact ⟨hsame, hne⟩

theorem otherFrame_store (fa : FrameAsm) (c d : Chunk) : (fa.store c).otherFrame d = fa.otherFrame d := by
  rw [store_eq, FrameAsm.overwrite, FrameAsm.flag]
  split_ifs <;> rfl

/-- The first feed brings a chunk, and others are still missing. -/
theorem completes_next (hparse : parseChunk g.payload = some d) (hsame : fa.otherFrame d = false)
    (hne : d.idx ≠ c.idx) (hidx : d.idx.toNat < fa.seen.length) (hmissing : ¬ (fa.store d).Filled []) :
    fa.CompletesWith c (g :: fs) ↔ (fa.store d).CompletesWith c fs := by
  rw [completes_cons_iff]
  simp only [FrameAsm.CompletesWith, filled_cons hparse hidx, otherFrame_store]
  constructor
  · rintro ⟨-, ⟨hfilled, -⟩ | hrest⟩
    · exact absurd hfilled hmissing
    · exact hrest
  · intro hrest
    refine ⟨?_, Or.inr hrest⟩
    intro d' hparse'
    cases hparse.symm.trans hparse'
    exact ⟨hsame, hne⟩

end Complete

/-! ### Two runs -/

section Runs

variable {fa : FrameAsm} {c d : Chunk} {g : Feed}

theorem collect_eq (alloc : FrameAlloc) (fa : FrameAsm) (hd : d.Legal) :
    fa.collect alloc d =
      if (fa.store d).received = (fa.store d).chunkCount then
        (if alloc.img then .complete (d.frame.image ((fa.store d).buf.take d.total.toNat)) else .malformed,
          frameAsmInit)
      else (.more, fa.store d) := by
  rw [FrameAsm.collect, imageAlloc_frame hd]
  split_ifs <;> rfl

theorem feed_collect (hparse : parseChunk g.payload = some d) (hsame : fa.otherFrame d = false) :
    fa.feed g = fa.collect g.alloc d := by
  rw [feed_target hparse, FrameAsm.target, if_neg (by rw [hsame]; decide)]

theorem feed_overwrite_other (hparse : parseChunk g.payload = some d) (hother : fa.otherFrame d = true) :
    (fa.overwrite c).feed g = fa.feed g := by
  have hother' : (fa.overwrite c).otherFrame d = true := hother
  rw [feed_target hparse, feed_target hparse, FrameAsm.target, FrameAsm.target, if_pos hother, if_pos hother']

/-- A feed that does not complete the frame leaves it in progress. -/
theorem FrameAsm.InProgress.store (hprog : fa.InProgress) (hfits : d.FitsIn fa)
    (hmissing : ¬ (fa.store d).Filled []) : (fa.store d).InProgress := by
  obtain ⟨hsized, hpos⟩ := hprog.toSized.store hfits
  refine ⟨hsized, hpos, lt_of_le_of_ne ?_ fun h => hmissing (hsized.received_iff.mp (UInt16.toNat_inj.mp h))⟩
  rw [hsized.received_eq, ← hsized.seen_len]
  exact List.count_le_length

theorem FrameAsm.InProgress.missing (hprog : fa.InProgress) : ¬ fa.Filled [] := by
  rw [← hprog.toSized.received_iff, ← UInt16.toNat_inj]
  exact hprog.received_lt.ne

/-- The images that the two assemblers hand out when `d` completes the frame. -/
theorem image_overwrite_iff (hsized : fa.Sized) (hc : c.Legal) (hd : d.Legal) (hsame : fa.otherFrame c = false)
    (hsame' : fa.otherFrame d = false) (hne : d.idx ≠ c.idx) :
    d.frame.image (((fa.store d).overwrite c).buf.take d.total.toNat) =
        d.frame.image ((fa.store d).buf.take d.total.toNat) ↔
      Blocks.slice FRAME_CHUNK_MAX fa.buf c.idx.toNat = c.bytes := by
  have hfits := hsized.bound hd hsame'
  have hstored := (hsized.store hfits).1
  have hfitsc : c.FitsIn (fa.store d) := hstored.bound hc ((otherFrame_store fa d c).trans hsame)
  have hfitsd : d.FitsIn (fa.store d) := hstored.bound hd ((otherFrame_store fa d d).trans hsame')
  have hlen : ((fa.store d).overwrite c).buf.length = (fa.store d).buf.length :=
    length_storeAt _ _ _ hfitsc.buf_bound
  rw [List.take_of_length_le (by rw [hlen, hfitsd.image_bound]),
    List.take_of_length_le (by rw [hfitsd.image_bound]), ← slice_store hc hd hfits hne,
    ← overwrite_buf_iff hc hfitsc]
  exact ⟨congrArg Image.pix, congrArg d.frame.image⟩

/-- The feeds `fs` return the same numbers whether or not the bytes of `c` are written first; they hand out the
same images unless the frame is completed with other bytes. -/
structure RunsAlike (fa : FrameAsm) (c : Chunk) (fs : List Feed) : Prop where
  codes : ((fa.overwrite c).feedAll fs).1.map FeedResult.code = (fa.feedAll fs).1.map FeedResult.code
  results : ((fa.overwrite c).feedAll fs).1 = (fa.feedAll fs).1 ↔
    Blocks.slice FRAME_CHUNK_MAX fa.buf c.idx.toNat = c.bytes ∨ ¬ fa.CompletesWith c fs

/-- Once the two assemblers agree, so does everything behind. -/
theorem runsAlike_agree {fs : List Feed} (hfeed : (fa.overwrite c).feed g = fa.feed g)
    (hcompletes : ¬ fa.CompletesWith c (g :: fs)) : RunsAlike fa c (g :: fs) := by
  have hruns : ((fa.overwrite c).feedAll (g :: fs)).1 = (fa.feedAll (g :: fs)).1 := by
    rw [FrameAsm.feedAll, FrameAsm.feedAll, hfeed]
  exact ⟨by rw [hruns], fun _ => Or.inr hcompletes, fun _ => hruns⟩

theorem runsAlike_skip {fs : List Feed} (hmissing : ¬ fa.Filled []) (hparse : parseChunk g.payload = none)
    (hrest : RunsAlike fa c fs) : RunsAlike fa c (g :: fs) := by
  constructor
  · simp only [FrameAsm.feedAll, feed_malformed hparse, List.map_cons, hrest.codes]
  · rw [completes_skip hmissing hparse, ← hrest.results]
    simp only [FrameAsm.feedAll, feed_malformed hparse, List.cons.injEq, true_and]

section Same

variable (hc : c.Legal) (hprog : fa.InProgress) (hsame : fa.otherFrame c = false)
  (hparse : parseChunk g.payload = some d) (hsame' : fa.otherFrame d = false)

include hc hprog hsame hparse hsame'

theorem feed_overwrite_same (hidx : d.idx = c.idx) : (fa.overwrite c).feed g = fa.feed g := by
  have hd := (parseChunk_eq_some_iff.mp hparse).2.2
  have hother : (fa.overwrite c).otherFrame d = false := hsame'
  have hstore := overwrite_store_same hc hd (hprog.toSized.bound hc hsame) (hprog.toSized.bound hd hsame') hidx
  rw [feed_collect hparse hother, feed_collect hparse hsame', FrameAsm.collect, FrameAsm.collect, hstore]

/-- A chunk with another index, fed to both assemblers. -/
theorem feed_overwrite_apart (hne : d.idx ≠ c.idx) :
    (fa.overwrite c).feed g =
      if (fa.store d).received = (fa.store d).chunkCount then
        (if g.alloc.img then .complete (d.frame.image (((fa.store d).overwrite c).buf.take d.total.toNat))
          else .malformed, frameAsmInit)
      else (.more, (fa.store d).overwrite c) := by
  have hd := (parseChunk_eq_some_iff.mp hparse).2.2
  have hother : (fa.overwrite c).otherFrame d = false := hsame'
  have hstore := overwrite_store hc hd (hprog.toSized.bound hc hsame) (hprog.toSized.bound hd hsame') hne
  rw [feed_collect hparse hother, collect_eq g.alloc _ hd, hstore]
  rfl

theorem runsAlike_last {fs : List Feed} (hne : d.idx ≠ c.idx) (hfilled : (fa.store d).Filled []) :
    RunsAlike fa c (g :: fs) := by
  have hd := (parseChunk_eq_some_iff.mp hparse).2.2
  have hfits := hprog.toSized.bound hd hsame'
  have hall := (hprog.toSized.store hfits).1.received_iff.mpr hfilled
  have hfeed := feed_overwrite_apart hc hprog hsame hparse hsame' hne
  have hfeed' := feed_collect hparse hsame'
  rw [if_pos hall] at hfeed
  rw [collect_eq g.alloc _ hd, if_pos hall] at hfeed'
  have hcompletes : fa.CompletesWith c (g :: fs) ↔ g.alloc.img = true :=
    completes_last hprog.missing hparse hsame' hne hfits.seen_bound hfilled
  cases himg : g.alloc.img with
  | false =>
      rw [himg] at hfeed hfeed' hcompletes
      exact runsAlike_agree (hfeed.trans hfeed'.symm) (by rw [hcompletes]; decide)
  | true =>
      rw [himg, if_pos rfl] at hfeed hfeed'
      rw [himg] at hcompletes
      constructor
      · simp only [FrameAsm.feedAll, hfeed, hfeed', List.map_cons, FeedResult.code]
      · have hyes : fa.CompletesWith c (g :: fs) := hcompletes.mpr rfl
        rw [← image_overwrite_iff hprog.toSized hc hd hsame hsame' hne]
        simp only [FrameAsm.feedAll, hfeed, hfeed', List.cons.injEq, and_true, FeedResult.complete.injEq, hyes,
          not_true, or_false]

theorem runsAlike_next {fs : List Feed} (hne : d.idx ≠ c.idx) (hmissing : ¬ (fa.store d).Filled [])
    (hrest : RunsAlike (fa.store d) c fs) : RunsAlike fa c (g :: fs) := by
  have hd := (parseChunk_eq_some_iff.mp hparse).2.2
  have hfits := hprog.toSized.bound hd hsame'
  have hnot : (fa.store d).received ≠ (fa.store d).chunkCount := by
    rw [ne_eq, (hprog.toSized.store hfits).1.received_iff]
    exact hmissing
  have hfeed := feed_overwrite_apart hc hprog hsame hparse hsame' hne
  have hfeed' := feed_collect hparse hsame'
  rw [if_neg hnot] at hfeed
  rw [collect_eq g.alloc _ hd, if_neg hnot] at hfeed'
  constructor
  · simp only [FrameAsm.feedAll, hfeed, hfeed', List.map_cons, hrest.codes]
  · rw [completes_next hparse hsame' hne hfits.seen_bound hmissing, ← slice_store hc hd hfits hne, ← hrest.results]
    simp only [FrameAsm.feedAll, hfeed, hfeed', List.cons.injEq, true_and]

end Same

/-- Any feeds, to an assembler that has the bytes of `c` written over what it holds, and to one that has not. -/
theorem runsAlike (hc : c.Legal) (hprog : fa.InProgress) (hsame : fa.otherFrame c = false) (fs : List Feed) :
    RunsAlike fa c fs := by
  induction fs generalizing fa with
  | nil => exact ⟨rfl, fun _ => Or.inr completes_nil, fun _ => rfl⟩
  | cons g fs ih =>
      cases hparse : parseChunk g.payload with
      | none => exact runsAlike_skip hprog.missing hparse (ih hprog hsame)
      | some d =>
          cases hother : fa.otherFrame d with
          | true =>
              exact runsAlike_agree (feed_overwrite_other hparse hother) (completes_stop hparse (Or.inl hother))
          | false =>
              by_cases hidx : d.idx = c.idx
              · exact runsAlike_agree (feed_overwrite_same hc hprog hsame hparse hother hidx)
                  (completes_stop hparse (Or.inr hidx))
              by_cases hfilled : (fa.store d).Filled []
              · exact runsAlike_last hc hprog hsame hparse hother hidx hfilled
              · have hd := (parseChunk_eq_some_iff.mp hparse).2.2
                have hnext := hprog.store (hprog.toSized.bound hd hother) hfilled
                exact runsAlike_next hc hprog hsame hparse hother hidx hfilled
                  (ih hnext ((otherFrame_store fa d c).trans hsame))

/-- Feeding the repeat itself: not counted, and the frame stays incomplete. -/
theorem feed_repeated (hparse : parseChunk g.payload = some c) (hprog : fa.InProgress)
    (hsame : fa.otherFrame c = false) (hseen : fa.seen.getD c.idx.toNat false = true) :
    fa.feed g = (.more, fa.overwrite c) := by
  have hincomplete : fa.received ≠ fa.chunkCount := by
    rw [ne_eq, hprog.toSized.received_iff]
    exact hprog.missing
  rw [feed_collect hparse hsame, collect_eq _ _ (parseChunk_eq_some_iff.mp hparse).2.2, store_seen hseen]
  exact if_neg hincomplete

end Runs

theorem length_feedAll (fa : FrameAsm) (fs : List Feed) : (fa.feedAll fs).1.length = fs.length := by
  induction fs generalizing fa with
  | nil => rfl
  | cons f fs ih => rw [FrameAsm.feedAll, List.length_cons, List.length_cons, ih]

/-- The results of all feeds but the one in the middle. -/
theorem feedAll_erase (fa : FrameAsm) (before after : List Feed) (f : Feed) :
    (fa.feedAll (before ++ f :: after)).1.eraseIdx before.length =
      (fa.feedAll before).1 ++ (((fa.feedAll before).2.feed f).2.feedAll after).1 := by
  rw [feedAll_append, FrameAsm.feedAll, ← length_feedAll fa before,
    List.eraseIdx_append_of_length_le (Nat.le_refl _), Nat.sub_self]
  rfl

/-- **A repeated chunk is counted once, but its bytes win.** Delete from any feeds of an initialised assembler a
chunk of the frame in progress that has been seen before. The other feeds return the same numbers. They hand out
the same images if and only if the chunk repeats the bytes that are there, or the feeds behind it do not complete
the frame before another copy of the chunk or a chunk of another frame comes. -/
theorem duplicate_ignored_iff (before after : List Feed) (f : Feed) (c : Chunk)
    (hparse : parseChunk f.payload = some c) :
    let fa := (frameAsmInit.feedAll before).2
    fa.otherFrame c = false → fa.seen.getD c.idx.toNat false = true →
    let others := (frameAsmInit.feedAll (before ++ f :: after)).1.eraseIdx before.length
    let without := (frameAsmInit.feedAll (before ++ after)).1
    others.map FeedResult.code = without.map FeedResult.code ∧
      (others = without ↔
        Blocks.slice FRAME_CHUNK_MAX fa.buf c.idx.toNat = c.bytes ∨ ¬ fa.CompletesWith c after) := by
  intro fa hsame hseen others without
  have hprog : fa.InProgress := by
    rcases FrameAsm.RepInv.feedAll (Or.inl rfl) before with hidle | hprog
    · rw [otherFrame_of_idle (congrArg FrameAsm.active hidle)] at hsame
      cases hsame
    · exact hprog
  have hothers : others = (frameAsmInit.feedAll before).1 ++ ((fa.overwrite c).feedAll after).1 := by
    have hfeed : (fa.feed f).2 = fa.overwrite c := congrArg Prod.snd (feed_repeated hparse hprog hsame hseen)
    rw [← hfeed]
    exact feedAll_erase _ _ _ _
  have hwithout : without = (frameAsmInit.feedAll before).1 ++ (fa.feedAll after).1 :=
    congrArg Prod.fst (feedAll_append _ _ _)
  have halike := runsAlike (parseChunk_eq_some_iff.mp hparse).2.2 hprog hsame after
  rw [hothers, hwithout]
  constructor
  · rw [List.map_append, List.map_append, halike.codes]
  · rw [List.append_cancel_left_eq]
    exact halike.results

/-- The image of two chunks with other pixels. -/
def otherRaster : Raster :=
  { twoChunkRaster with pix := List.replicate 1025 9, hpix := List.length_replicate }

/-- Chunk 0 of one image, chunk 0 with other pixels, chunk 1: the image has the pixels of the repeat. -/
theorem duplicate_changes_image :
    let alloc : FrameAlloc := ⟨some fun _ => 0xAA, true, true⟩
    let first : Feed := ⟨alloc, twoChunkRaster.chunkPayload 9 0⟩
    let repeated : Feed := ⟨alloc, otherRaster.chunkPayload 9 0⟩
    let last : Feed := ⟨alloc, twoChunkRaster.chunkPayload 9 1⟩
    let fa := (frameAsmInit.feedAll [first]).2
    parseChunk repeated.payload = some (otherRaster.chunk 9 0) ∧
      fa.otherFrame (otherRaster.chunk 9 0) = false ∧ fa.seen = [true, false] ∧
      (frameAsmInit.feedAll [first, repeated, last]).1.eraseIdx 1 ≠ (frameAsmInit.feedAll [first, last]).1 :=
  ⟨by decide +kernel, by decide +kernel, by decide +kernel, by decide +kernel⟩

/-- The same chunk once more changes nothing. -/
theorem duplicate_ignored_iff_twoChunk :
    let alloc : FrameAlloc := ⟨some fun _ => 0xAA, true, true⟩
    let send (i : Nat) : Feed := ⟨alloc, twoChunkRaster.chunkPayload 9 i⟩
    (frameAsmInit.feedAll [send 0, send 0, send 1]).1.eraseIdx 1 = (frameAsmInit.feedAll [send 0, send 1]).1 := by
  intro alloc send
  have hduplicate := duplicate_ignored_iff [send 0] [send 1] (send 0) (twoChunkRaster.chunk 9 0)
    (by decide +kernel) (by decide +kernel) (by decide +kernel)
  exact hduplicate.2.mpr (Or.inl (by decide +kernel))

end PulseLink
