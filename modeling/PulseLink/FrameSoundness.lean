import PulseLink.FrameReassembly

/-! Reassembly on arbitrary payloads. Malformed chunks, restarts by another frame and failed allocations
may come at any point, so what the assembler holds is explained by a window of the last feeds: the
chunks accepted in it all belong to one frame and are exactly the block writes made. -/

namespace PulseLink

/-! ### The window of the frame in progress -/

/-- The chunks accepted, that is not answered with -1, among the feeds. -/
def FrameAsm.accepted : FrameAsm → List Feed → List Chunk
  | _, [] => []
  | fa, f :: fs =>
      match (fa.feed f).1 with
      | .malformed => (fa.feed f).2.accepted fs
      | _ => readChunk f.payload :: (fa.feed f).2.accepted fs

theorem accepted_append (fa : FrameAsm) (fs gs : List Feed) :
    fa.accepted (fs ++ gs) = fa.accepted fs ++ (fa.feedAll fs).2.accepted gs := by
  induction fs generalizing fa with
  | nil => rfl
  | cons f fs ih =>
      simp only [List.cons_append, FrameAsm.accepted, FrameAsm.feedAll, ih]
      cases (fa.feed f).1 <;> rfl

theorem accepted_malformed {fa : FrameAsm} {f : Feed} (hf : (fa.feed f).1 = .malformed) :
    fa.accepted [f] = [] := by
  simp only [FrameAsm.accepted, hf]

theorem accepted_singleton {fa : FrameAsm} {f : Feed} {c : Chunk}
    (hparse : parseChunk f.payload = some c) (hf : (fa.feed f).1 ≠ .malformed) :
    fa.accepted [f] = [c] := by
  rw [← (parseChunk_eq_some_iff.mp hparse).2.1]
  unfold FrameAsm.accepted
  split
  · next h => exact absurd h hf
  · rfl

/-- The last feeds `during` of a history that left the assembler in `fa`: the chunks accepted among them
all belong to frame `id`, and `fa` holds exactly them. -/
structure Window (history before during : List Feed) (fa : FrameAsm) (id : FrameId)
    (contents : List UInt8) : Prop where
  split : history = before ++ during
  legal : ∀ c ∈ (frameAsmInit.feedAll before).2.accepted during, c.Legal ∧ c.frame = id
  collecting : Collecting fa id contents
    (((frameAsmInit.feedAll before).2.accepted during).map Chunk.write)

/-- The assembler after a history is idle or holds the accepted chunks of a window of it. -/
def Explained (history : List Feed) (fa : FrameAsm) : Prop :=
  fa.active = false ∨ ∃ before during id contents, Window history before during fa id contents

/-- Whatever came before, a feed of chunk `c` fails for lack of memory or collects `c` into what a window
of accepted chunks of the same frame has written. -/
theorem feed_window {fs : List Feed} {f : Feed} {c : Chunk}
    (hexp : Explained fs (frameAsmInit.feedAll fs).2) (hparse : parseChunk f.payload = some c) :
    (frameAsmInit.feedAll fs).2.feed f = (.malformed, frameAsmInit) ∨
      ∃ before during fa₀ contents, Window fs before during fa₀ c.frame contents ∧
        (frameAsmInit.feedAll fs).2.feed f = fa₀.collect f.alloc c := by
  have hlegal := (parseChunk_eq_some_iff.mp hparse).2.2
  by_cases hother : (frameAsmInit.feedAll fs).2.otherFrame c = true
  · refine (feed_other hother hparse).imp id ?_
    rintro ⟨contents, -, -, hfeed⟩
    exact ⟨fs, [], _, _, ⟨by simp, by simp [FrameAsm.accepted], collecting_begin hlegal contents⟩, hfeed⟩
  · rcases hexp with hidle | ⟨before, during, id, contents, hwin⟩
    · exact absurd (otherFrame_of_idle hidle c) hother
    · have hid : c.frame = id := by
        by_contra hne
        exact hother ((otherFrame_iff hwin.collecting c).mpr hne)
      subst hid
      exact Or.inr ⟨before, during, _, contents, hwin, feed_same hwin.collecting hparse⟩

/-- An accepted chunk joins the window. -/
theorem Window.accept {fs before during : List Feed} {f : Feed} {c : Chunk} {fa₀ : FrameAsm}
    {contents : List UInt8} (hwin : Window fs before during fa₀ c.frame contents)
    (hparse : parseChunk f.payload = some c)
    (hf : ((frameAsmInit.feedAll fs).2.feed f).1 ≠ .malformed) :
    (frameAsmInit.feedAll before).2.accepted (during ++ [f]) =
      (frameAsmInit.feedAll before).2.accepted during ++ [c] := by
  rw [hwin.split, feedAll_append] at hf
  rw [accepted_append, accepted_singleton hparse hf]

theorem Window.legal_snoc {fs before during : List Feed} {c : Chunk} {fa₀ : FrameAsm}
    {contents : List UInt8} (hwin : Window fs before during fa₀ c.frame contents)
    (hlegal : c.Legal) :
    ∀ d ∈ (frameAsmInit.feedAll before).2.accepted during ++ [c], d.Legal ∧ d.frame = c.frame := by
  intro d hd
  rcases List.mem_append.mp hd with h | h
  · exact hwin.legal d h
  · rw [List.mem_singleton] at h
    subst h
    exact ⟨hlegal, rfl⟩

/-- After any feeds the assembler is idle or explained by a window of accepted chunks. -/
theorem explained_feedAll (fs : List Feed) : Explained fs (frameAsmInit.feedAll fs).2 := by
  induction fs using List.reverseRecOn with
  | nil => exact Or.inl rfl
  | append_singleton fs f ih =>
      rw [feedAll_append, feedAll_singleton]
      cases hparse : parseChunk f.payload with
      | none =>
          rw [feed_malformed hparse]
          refine ih.imp id ?_
          rintro ⟨before, during, id, contents, hwin⟩
          have hacc : (frameAsmInit.feedAll before).2.accepted (during ++ [f]) =
              (frameAsmInit.feedAll before).2.accepted during := by
            rw [accepted_append, accepted_malformed (by rw [feed_malformed hparse]), List.append_nil]
          refine ⟨before, during ++ [f], id, contents, ?_, ?_, ?_⟩
          · rw [hwin.split, List.append_assoc]
          · rw [hacc]
            exact hwin.legal
          · rw [hacc]
            exact hwin.collecting
      | some c =>
          have hlegal := (parseChunk_eq_some_iff.mp hparse).2.2
          rcases feed_window ih hparse with hfail | ⟨before, during, fa₀, contents, hwin, hfeed⟩
          · exact Or.inl (by rw [hfail]; rfl)
          · rcases hwin.collecting.collect hlegal f.alloc with ⟨-, hres⟩ | ⟨-, -, hres⟩ | ⟨-, -, hres⟩
            · have hacc := hwin.accept hparse (by rw [hfeed, hres]; simp)
              rw [hfeed, hres]
              refine Or.inr ⟨before, during ++ [f], c.frame, contents, ?_, ?_, ?_⟩
              · rw [hwin.split, List.append_assoc]
              · rw [hacc]
                exact hwin.legal_snoc hlegal
              · rw [hacc, List.map_append]
                exact hwin.collecting.store hlegal
            · exact Or.inl (by rw [hfeed, hres]; rfl)
            · exact Or.inl (by rw [hfeed, hres]; rfl)

/-! ### Completed images -/

/-- The image `img` is made of the chunks `cs`: they are chunks of one frame of its size, every chunk of
the frame is among them, and each pixel comes from the latest of them that covers it. -/
structure MadeOf (img : Image) (cs : List Chunk) (id : FrameId) : Prop where
  legal : ∀ c ∈ cs, c.Legal ∧ c.frame = id
  width : img.w = id.width.toNat
  height : img.h = id.height.toNat
  length : img.pix.length = id.size
  all : ∀ i < id.chunks, ∃ c ∈ cs, c.idx.toNat = i
  latest : ∀ p < id.size, ∃ earlier c later, cs = earlier ++ c :: later ∧
    c.idx.toNat = p / FRAME_CHUNK_MAX ∧ (∀ d ∈ later, d.idx.toNat ≠ p / FRAME_CHUNK_MAX) ∧
    p % FRAME_CHUNK_MAX < c.bytes.length ∧ img.pix[p]? = c.bytes[p % FRAME_CHUNK_MAX]?

/-- The buffer of a frame whose chunks are all there is made of them. -/
theorem Collecting.madeOf {fa : FrameAsm} {id : FrameId} {contents : List UInt8} {cs : List Chunk}
    (hcol : Collecting fa id contents (cs.map Chunk.write))
    (hlegal : ∀ c ∈ cs, c.Legal ∧ c.frame = id)
    (hcovers : Blocks.Covers id.chunks (cs.map Chunk.write)) :
    MadeOf (id.image (Blocks.writeAll FRAME_CHUNK_MAX contents (cs.map Chunk.write))) cs id where
  legal := hlegal
  width := rfl
  height := rfl
  length := Blocks.length_writeAll (by decide) hcol.contents_len hcol.fits
  all := by
    intro i hi
    obtain ⟨w, hw, hwi⟩ := hcovers i hi
    obtain ⟨c, hc, rfl⟩ := List.mem_map.mp hw
    exact ⟨c, hc, hwi⟩
  latest := by
    intro p hp
    obtain ⟨block, hlast, hpix⟩ :=
      Blocks.writeAll_getElem?_of_covers (by decide) hcol.contents_len hcol.fits hcovers hp
    obtain ⟨ws, ws', hws, hafter⟩ := Blocks.last_eq_some hlast
    obtain ⟨earlier, rest, rfl, -, hrest⟩ := List.map_eq_append_iff.mp hws
    obtain ⟨c, later, rfl, hc, hlater⟩ := List.map_eq_cons_iff.mp hrest
    have hidx : c.idx.toNat = p / FRAME_CHUNK_MAX := congrArg Prod.fst hc
    have hbytes : c.bytes = block := congrArg Prod.snd hc
    have hlen := Blocks.length_writeAll (by decide) hcol.contents_len hcol.fits
    refine ⟨earlier, c, later, rfl, hidx, ?_, ?_, ?_⟩
    · intro d hd
      exact hafter d.write (hlater ▸ List.mem_map_of_mem hd)
    · rw [← hlen] at hp
      rw [hbytes]
      exact (List.getElem?_eq_some_iff.mp (hpix.symm.trans (List.getElem?_eq_getElem hp))).1
    · rw [hbytes]
      exact hpix

/-- **Reassembly is sound on arbitrary payloads.** Whatever is fed, a feed that returns 1 completes a
window of feeds whose accepted chunks, the completing one included, make the image. -/
theorem reassembly_sound (fs : List Feed) (f : Feed) (img : Image)
    (hdone : ((frameAsmInit.feedAll fs).2.feed f).1 = .complete img) :
    ∃ before during id, fs = before ++ during ∧
      MadeOf img ((frameAsmInit.feedAll before).2.accepted (during ++ [f])) id := by
  cases hparse : parseChunk f.payload with
  | none =>
      rw [feed_malformed hparse] at hdone
      cases hdone
  | some c =>
      have hlegal := (parseChunk_eq_some_iff.mp hparse).2.2
      rcases feed_window (explained_feedAll fs) hparse with
        hfail | ⟨before, during, fa₀, contents, hwin, hfeed⟩
      · rw [hfail] at hdone
        cases hdone
      · have hacc := hwin.accept hparse (by rw [hdone]; simp)
        refine ⟨before, during, c.frame, hwin.split, ?_⟩
        rw [hacc]
        rcases hwin.collecting.collect hlegal f.alloc with ⟨-, hres⟩ | ⟨-, -, hres⟩ | ⟨hcovers, -, hres⟩
        · rw [hfeed, hres] at hdone
          cases hdone
        · rw [hfeed, hres] at hdone
          cases hdone
        · rw [hfeed, hres] at hdone
          cases hdone
          have hstore := hwin.collecting.store hlegal
          rw [← List.map_singleton, ← List.map_append] at hstore hcovers ⊢
          exact hstore.madeOf (hwin.legal_snoc hlegal) hcovers

/-- The payload of a chunk of frame 5, an image of 41 by 25 pixels. -/
def bigFrameChunk (idx : UInt16) (bytes : List UInt8) : Feed :=
  ⟨⟨some fun _ => 0xAA, true, true⟩, frameHeader 41 25 5 idx 2 ++ bytes⟩

/-- A frame of two chunks that arrive in the wrong order, the last one twice, after a chunk of an image that never gets
complete and around a malformed payload. -/
theorem reassembly_sound_twoChunks :
    let abandoned : Feed := ⟨⟨some fun _ => 0xAA, true, true⟩, frameHeader 41 25 4 0 2 ++ List.replicate 1024 1⟩
    let fs := [abandoned, bigFrameChunk 1 [7], ⟨⟨none, true, true⟩, [1, 2]⟩, bigFrameChunk 1 [9]]
    let f := bigFrameChunk 0 (List.replicate 1024 5)
    ∃ before during id, fs = before ++ during ∧
      MadeOf ⟨41, 25, List.replicate 1024 5 ++ [9]⟩ ((frameAsmInit.feedAll before).2.accepted (during ++ [f])) id :=
  reassembly_sound _ _ _ (by decide +kernel)

end PulseLink
