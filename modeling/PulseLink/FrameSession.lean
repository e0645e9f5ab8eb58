import PulseLink.FrameReassembly
import PulseLink.Session

/-! A frame through the whole server: an image sent in chunks behind a HELLO is accepted chunk by chunk
under any segmentation, completes with its last chunk, and is written to a file that reads back as the
image. -/

namespace PulseLink

open Bytes

/-! ### Chunks in order -/

namespace Raster

variable {r : Raster} {frameSeq : UInt32}

/-- Feeds of the first chunks of the image, in order, with memory available. -/
structure InOrder (r : Raster) (frameSeq : UInt32) (fs : List Feed) : Prop where
  allocOk : ∀ f ∈ fs, f.AllocOk
  payloads : fs.map Feed.payload = (List.range fs.length).map (r.chunkPayload frameSeq)

theorem inOrder_nil : r.InOrder frameSeq [] := ⟨by simp, rfl⟩

theorem InOrder.snoc {fs : List Feed} (horder : r.InOrder frameSeq fs) {f : Feed} (halloc : f.AllocOk)
    (hpayload : f.payload = r.chunkPayload frameSeq fs.length) : r.InOrder frameSeq (fs ++ [f]) where
  allocOk := by
    intro g hg
    rcases List.mem_append.mp hg with h | h
    · exact horder.allocOk g h
    · rw [List.mem_singleton] at h
      exact h ▸ halloc
  payloads := by
    rw [List.map_append, horder.payloads, List.length_append, List.length_singleton, List.range_succ,
      List.map_append, List.map_singleton, hpayload]
    rfl

theorem InOrder.exists_index {fs : List Feed} (horder : r.InOrder frameSeq fs) {f : Feed} (hf : f ∈ fs) :
    ∃ i < fs.length, f.payload = r.chunkPayload frameSeq i := by
  have hmem : f.payload ∈ (List.range fs.length).map (r.chunkPayload frameSeq) :=
    horder.payloads ▸ List.mem_map_of_mem hf
  obtain ⟨i, hi, hpayload⟩ := List.mem_map.mp hmem
  exact ⟨i, List.mem_range.mp hi, hpayload.symm⟩

theorem InOrder.sends {fs : List Feed} (horder : r.InOrder frameSeq fs)
    (hlen : fs.length ≤ (r.frame frameSeq).chunks) : r.Sends frameSeq fs := by
  intro f hf
  obtain ⟨i, hi, hpayload⟩ := horder.exists_index hf
  exact ⟨horder.allocOk f hf, i, by omega, hpayload⟩

/-- In order, all chunks are there when there are as many feeds as chunks. -/
theorem InOrder.allSent_iff {fs : List Feed} (horder : r.InOrder frameSeq fs)
    (hlen : fs.length ≤ (r.frame frameSeq).chunks) :
    r.AllSent frameSeq fs ↔ fs.length = (r.frame frameSeq).chunks := by
  constructor
  · intro hall
    by_contra hne
    obtain ⟨f, hf, hpayload⟩ := hall fs.length (by omega)
    obtain ⟨i, hi, hpayload'⟩ := horder.exists_index hf
    have := chunkPayload_injective (by omega) (by omega) (hpayload'.symm.trans hpayload)
    omega
  · intro heq i hi
    have hmem : r.chunkPayload frameSeq i ∈ fs.map Feed.payload := by
      rw [horder.payloads]
      exact List.mem_map_of_mem (List.mem_range.mpr (by omega))
    obtain ⟨f, hf, hpayload⟩ := List.mem_map.mp hmem
    exact ⟨f, hf, hpayload⟩

/-- What the chunk number `k` gives when those before it have been fed in order. -/
theorem InOrder.feed {fs : List Feed} (horder : r.InOrder frameSeq fs) {f : Feed} (halloc : f.AllocOk)
    (hpayload : f.payload = r.chunkPayload frameSeq fs.length)
    (hlt : fs.length < (r.frame frameSeq).chunks) :
    ((frameAsmInit.feedAll fs).2.feed f).1 =
      if fs.length + 1 = (r.frame frameSeq).chunks then .complete r.image else .more := by
  have hsnoc := horder.snoc halloc hpayload
  have hlen : (fs ++ [f]).length = fs.length + 1 := by simp
  have hmissing : ¬ r.AllSent frameSeq fs := by
    rw [horder.allSent_iff hlt.le]
    omega
  have hsends := hsnoc.sends (by omega)
  have hidle : frameAsmInit.active = false := rfl
  split_ifs with hlast
  · rw [feed_last hidle hsends hmissing ((hsnoc.allSent_iff (by omega)).mpr (by omega))]
  · have hnot : ¬ r.AllSent frameSeq (fs ++ [f]) := by
      rw [hsnoc.allSent_iff (by omega)]
      omega
    have hmore := (feedAll_before hidle hsends hnot).1
    rw [feedAll_append, feedAll_singleton, (feedAll_before hidle (horder.sends hlt.le) hmissing).1, hlen,
      List.replicate_succ'] at hmore
    exact List.singleton_inj.mp (List.append_cancel_left hmore)

end Raster

/-! ### Saving a frame -/

/-- Nothing fails, files included. -/
structure CalmFiles (w : World) : Prop extends Calm w where
  files : ∀ f ∈ w.2.choices.fileFaults, f = none

theorem CalmFiles.step (o : ServerOp) {w : World} (hcalm : CalmFiles w) :
    CalmFiles (serverHandler o w).2 := by
  refine { hcalm.toCalm.step o with files := ?_ }
  obtain ⟨conn, ctx⟩ := w
  cases o with
  | writeFile path bytes =>
      simp only [serverHandler]
      split <;> exact fun f hf => hcalm.files f (mem_draw_of_mem hf)
  | _ => exact hcalm.files

theorem CalmFiles.runs {α : Type} {p : ServerProc α} {w w' : World} {value : α}
    {t : List (Event ServerSig)} (hcalm : CalmFiles w) (hruns : Does p w value w' t) : CalmFiles w' :=
  hruns.invariant (fun o _ => CalmFiles.step o) hcalm

theorem does_bmpWrite {conn : Conn} {ctx : ServerCtx} (hcalm : CalmFiles (conn, ctx)) {img : Image}
    {bytes : List UInt8} (hbytes : bmpBytes img = some bytes) (path : List UInt8) :
    ∃ ctx', Does (bmpWrite img path) (conn, ctx) true (conn, ctx') [⟨.writeFile path bytes, true⟩] ∧
      ctx'.files = ctx.files ++ [(path, bytes)] ∧ ctx'.devices = ctx.devices := by
  have hnone : (draw none ctx.choices.fileFaults).1 = none :=
    (draw_all (P := fun f => f = none) rfl hcalm.files).1
  rw [bmpWrite, hbytes]
  have hop : ∃ ctx', serverHandler (.writeFile path bytes) (conn, ctx) = (true, conn, ctx') ∧
      ctx'.files = ctx.files ++ [(path, bytes)] ∧ ctx'.devices = ctx.devices := by
    simp only [serverHandler, hnone]
    exact ⟨_, rfl, rfl, rfl⟩
  obtain ⟨ctx', hop, hfiles, hdevices⟩ := hop
  exact ⟨ctx', .op hop (.ret _ _), hfiles, hdevices⟩

/-- What saving a completed frame leaves: with a frame directory the files of the image and its edges. -/
def Saved (cfg : Config) (deviceId : UInt32) (r : Raster) (before after : List (List UInt8 × List UInt8)) :
    Prop :=
  match cfg.frameDir with
  | none => after = before
  | some dir => ∃ file edges, after = before ++ [(framePath dir deviceId "_in.bmp", file),
      (framePath dir deviceId "_edges.bmp", edges)] ∧ bmpBytes r.image = some file

theorem does_saveFrame {conn : Conn} {ctx : ServerCtx} (hcalm : CalmFiles (conn, ctx)) (cfg : Config)
    (h : PlHeader) (r : Raster) :
    ∃ ctx' t, Does (saveFrame cfg h r.image) (conn, ctx) () (conn, ctx') t ∧
      ctx'.devices = ctx.devices ∧ Saved cfg h.deviceId r ctx.files ctx'.files ∧
      outputs t = [] ∧ feedResults t = [] := by
  cases hdir : cfg.frameDir with
  | none =>
      simp only [saveFrame, Saved, hdir]
      exact ⟨ctx, [], .ret _ _, rfl, rfl, rfl, rfl⟩
  | some dir =>
      simp only [saveFrame, Saved, hdir]
      have hok : (draw true ctx.choices.imageAllocs).1 = true :=
        (draw_all (P := fun ok => ok = true) rfl hcalm.imageAllocs).1
      obtain ⟨ctx₁, hop, hfiles₁, hdevices₁⟩ : ∃ ctx₁, serverHandler .imageAlloc (conn, ctx) =
          (true, conn, ctx₁) ∧ ctx₁.files = ctx.files ∧ ctx₁.devices = ctx.devices := by
        simp only [serverHandler, hok]
        exact ⟨_, rfl, rfl, rfl⟩
      have hcalm₁ : CalmFiles (conn, ctx₁) := by
        have := hcalm.step .imageAlloc
        rwa [hop] at this
      have hbuf : (List.replicate (r.w * r.h) (0 : UInt8)).length = r.w * r.h := List.length_replicate
      obtain ⟨e, -, -, hsobel⟩ := sobel_raster r hbuf
      obtain ⟨file, hfile, -⟩ := bmpRead_bmpBytes r
      obtain ⟨efile, hefile, -⟩ := bmpRead_bmpBytes e
      obtain ⟨ctx₂, hwrite₁, hfiles₂, hdevices₂⟩ :=
        does_bmpWrite hcalm₁ hfile (framePath dir h.deviceId "_in.bmp")
      obtain ⟨ctx₃, hwrite₂, hfiles₃, hdevices₃⟩ :=
        does_bmpWrite (hcalm₁.runs hwrite₁) hefile (framePath dir h.deviceId "_edges.bmp")
      have halloc : imageAlloc true r.image.w r.image.h = _ := r.imageAlloc_eq
      refine ⟨ctx₃, [⟨.imageAlloc, true⟩, ⟨.writeFile (framePath dir h.deviceId "_in.bmp") file, true⟩,
        ⟨.writeFile (framePath dir h.deviceId "_edges.bmp") efile, true⟩], .perform hop ?_, ?_,
        ⟨file, efile, ?_, hfile⟩, rfl, rfl⟩
      · rw [halloc]
        simp only [hsobel, Option.getD_some]
        exact hwrite₁.bind (hwrite₂.bind (.ret _ _))
      · rw [hdevices₃, hdevices₂, hdevices₁]
      · rw [hfiles₃, hfiles₂, hfiles₁, List.append_assoc]
        rfl

/-! ### The chunks of a frame -/

/-- The effect of the chunk that makes `k` chunks of the image complete. -/
def chunkResult (r : Raster) (frameSeq : UInt32) (k : Nat) : FeedResult :=
  if k = (r.frame frameSeq).chunks then .complete r.image else .more

/-- What the files are after the chunk that makes `k` chunks complete. -/
def FilesAfter (cfg : Config) (deviceId : UInt32) (r : Raster) (frameSeq : UInt32) (k : Nat)
    (before after : List (List UInt8 × List UInt8)) : Prop :=
  if k = (r.frame frameSeq).chunks then Saved cfg deviceId r before after else after = before

/-- A FRAME packet in state ACTIVE that holds the next chunk of the image. -/
theorem does_handleFrame {conn : Conn} {ctx : ServerCtx} (hcalm : CalmFiles (conn, ctx)) (cfg : Config)
    {l : Locals} {h : PlHeader} {r : Raster} {frameSeq : UInt32} {fs : List Feed}
    (horder : r.InOrder frameSeq fs) (hlt : fs.length < (r.frame frameSeq).chunks)
    (hfa : l.fa = (frameAsmInit.feedAll fs).2)
    (hpayload : l.payload.bytes.take h.payloadLen.toNat = r.chunkPayload frameSeq fs.length) :
    ∃ l' ctx' t f, Does (handleFrame cfg l h) (conn, ctx) (.inl l') (conn, ctx') t ∧
      l'.state = l.state ∧ r.InOrder frameSeq (fs ++ [f]) ∧
      l'.fa = (frameAsmInit.feedAll (fs ++ [f])).2 ∧ ctx'.devices = ctx.devices ∧
      FilesAfter cfg h.deviceId r frameSeq (fs.length + 1) ctx.files ctx'.files ∧
      outputs t = [] ∧ feedResults t = [chunkResult r frameSeq (fs.length + 1)] := by
  obtain ⟨alloc, halloc⟩ : ∃ alloc, alloc = (draw FrameAlloc.ok ctx.choices.frameAllocs).1 := ⟨_, rfl⟩
  have hallocOk : (⟨alloc, r.chunkPayload frameSeq fs.length⟩ : Feed).AllocOk := by
    rw [halloc]
    exact (draw_all (P := fun a : FrameAlloc => a.buf.isSome ∧ a.seen = true ∧ a.img = true) ⟨rfl, rfl, rfl⟩
      hcalm.frameAllocs).1
  obtain ⟨ctx₁, hop, hfiles₁, hdevices₁⟩ : ∃ ctx₁, serverHandler .frameAlloc (conn, ctx) =
      (alloc, conn, ctx₁) ∧ ctx₁.files = ctx.files ∧ ctx₁.devices = ctx.devices := by
    rw [halloc]
    exact ⟨_, rfl, rfl, rfl⟩
  have hcalm₁ : CalmFiles (conn, ctx₁) := by
    have := hcalm.step .frameAlloc
    rwa [hop] at this
  have hresult := horder.feed hallocOk rfl hlt
  have hfa' : (frameAsmInit.feedAll (fs ++ [⟨alloc, r.chunkPayload frameSeq fs.length⟩])).2 =
      ((frameAsmInit.feedAll fs).2.feed ⟨alloc, r.chunkPayload frameSeq fs.length⟩).2 := by
    rw [feedAll_append, feedAll_singleton]
  have hfeed : frameAsmFeed alloc l.fa (l.payload.bytes.take h.payloadLen.toNat) =
      (chunkResult r frameSeq (fs.length + 1),
        (frameAsmInit.feedAll (fs ++ [⟨alloc, r.chunkPayload frameSeq fs.length⟩])).2) := by
    rw [hfa', hpayload, hfa]
    exact Prod.ext hresult rfl
  have horder' := horder.snoc hallocOk rfl
  simp only [handleFrame]
  by_cases hlast : fs.length + 1 = (r.frame frameSeq).chunks
  · have hcomplete : chunkResult r frameSeq (fs.length + 1) = .complete r.image := if_pos hlast
    obtain ⟨ctx₂, t, hsave, hdevices₂, hsaved, hout, hfed⟩ := does_saveFrame hcalm₁ cfg h r
    refine ⟨{ l with fa := (frameAsmInit.feedAll (fs ++ [⟨alloc, _⟩])).2, strikes := 0 }, ctx₂,
      [⟨.frameAlloc, alloc⟩, ⟨.fed (.complete r.image), ()⟩] ++ (t ++ []), _, .perform hop ?_, rfl, horder', rfl,
      by rw [hdevices₂, hdevices₁], ?_, ?_, ?_⟩
    · rw [hfeed, hcomplete]
      refine .perform rfl ?_
      exact hsave.bind (.ret _ _)
    · rw [FilesAfter, if_pos hlast, ← hfiles₁]
      exact hsaved
    · rw [outputs_append, outputs_append, hout]
      rfl
    · rw [feedResults_append, feedResults_append, hfed, hcomplete]
      rfl
  · have hmore : chunkResult r frameSeq (fs.length + 1) = .more := if_neg hlast
    refine ⟨{ l with fa := (frameAsmInit.feedAll (fs ++ [⟨alloc, _⟩])).2, strikes := 0 }, ctx₁,
      [⟨.frameAlloc, alloc⟩, ⟨.fed .more, ()⟩], _, .perform hop ?_, rfl, horder', rfl, hdevices₁,
      by rw [FilesAfter, if_neg hlast, hfiles₁], rfl, by rw [hmore]; rfl⟩
    rw [hfeed, hmore]
    refine .perform rfl ?_
    exact .ret _ _

/-- A turn in front of the FRAME packet with the next chunk. -/
theorem turn_chunk (cfg : Config) {l : Locals} {conn : Conn} {ctx : ServerCtx}
    (hcalm : CalmFiles (conn, ctx)) (hstate : l.state = .active) (hclean : Clean conn.script)
    {deviceId : UInt32} {r : Raster} {frameSeq : UInt32} {fs : List Feed}
    (horder : r.InOrder frameSeq fs) (hlt : fs.length < (r.frame frameSeq).chunks)
    (hfa : l.fa = (frameAsmInit.feedAll fs).2) {rest : List UInt8}
    (hbytes : bytesOf conn.script =
      packetBytes PktType.frame.code deviceId (r.chunkPayload frameSeq fs.length) ++ rest) :
    ∃ l' w' t f, Does (clientTurn cfg l) (conn, ctx) (.inl l') w' t ∧ l'.state = .active ∧
      r.InOrder frameSeq (fs ++ [f]) ∧ l'.fa = (frameAsmInit.feedAll (fs ++ [f])).2 ∧
      Clean w'.1.script ∧ bytesOf w'.1.script = rest ∧ w'.1.after = conn.after ∧
      w'.2.devices = ctx.devices ∧
      FilesAfter cfg deviceId r frameSeq (fs.length + 1) ctx.files w'.2.files ∧
      outputs t = [] ∧ feedResults t = [chunkResult r frameSeq (fs.length + 1)] := by
  have hlen : (r.chunkPayload frameSeq fs.length).length ≤ 1100 :=
    (r.length_chunkPayload_le frameSeq fs.length).trans (by decide)
  have hopen : l.state ≠ .closing := by rw [hstate]; decide
  obtain ⟨script, hclean', hbytes', hpacket⟩ := turn_packet cfg l hcalm.toCalm hopen hclean hlen hbytes
  have hcalm₁ : CalmFiles ({ conn with script := script }, ctx) :=
    { hcalm.toCalm with files := hcalm.files }
  have htake : (l.received (r.chunkPayload frameSeq fs.length)).payload.bytes.take
      (builtHeader PktType.frame.code deviceId (r.chunkPayload frameSeq fs.length)).payloadLen.toNat =
        r.chunkPayload frameSeq fs.length := by
    rw [toNat_builtHeader_len hlen]
    exact l.payload.take_fill hlen
  obtain ⟨l', ctx', t, f, hframe, hstate', horder', hfa', hdevices, hfiles, hout, hfed⟩ :=
    does_handleFrame hcalm₁ cfg (l := l.received (r.chunkPayload frameSeq fs.length)) horder hlt hfa htake
  rw [← dispatch_frame cfg (l := l.received (r.chunkPayload frameSeq fs.length)) hstate rfl] at hframe
  refine ⟨l', _, _, f, hpacket hframe, hstate'.trans hstate, horder', hfa', hclean', hbytes', rfl, hdevices,
    hfiles, ?_, ?_⟩
  · rw [outputs_append, outputs_readEvents, hout]
    rfl
  · rw [feedResults_append, feedResults_readEvents, hfed]
    rfl

/-- The bytes of the chunk packets with the given indices. -/
def chunkStream (r : Raster) (frameSeq deviceId : UInt32) (is : List Nat) : List UInt8 :=
  is.flatMap fun i => packetBytes PktType.frame.code deviceId (r.chunkPayload frameSeq i)

/-- The FRAME part of a session, from any chunk of the image on. -/
theorem session_chunks (cfg : Config) {deviceId : UInt32} {r : Raster} {frameSeq : UInt32} (m : Nat)
    {l : Locals} {conn : Conn} {ctx : ServerCtx} (hcalm : CalmFiles (conn, ctx))
    (hstate : l.state = .active) (hclean : Clean conn.script) (hafter : conn.after = .eof)
    {fs : List Feed} (horder : r.InOrder frameSeq fs) (hlen : fs.length + m = (r.frame frameSeq).chunks)
    (hfa : l.fa = (frameAsmInit.feedAll fs).2)
    (hbytes : bytesOf conn.script = chunkStream r frameSeq deviceId (List.range' fs.length m)) :
    ∃ w' t, Loop.Ends (clientWorker cfg) serverHandler (.running l) (conn, ctx) ⟨.closed, w', t⟩ ∧
      outputs t = [] ∧ w'.2.devices = ctx.devices ∧
      feedResults t = (List.range' (fs.length + 1) m).map (chunkResult r frameSeq) ∧
      (if m = 0 then w'.2.files = ctx.files else Saved cfg deviceId r ctx.files w'.2.files) := by
  induction m generalizing l conn ctx fs with
  | zero =>
      have hturn := turn_end cfg l hcalm.running (by rw [hstate]; decide) hclean hbytes hafter
      exact ⟨_, _, .turn (does_running hturn) (.stop rfl), rfl, rfl, rfl, rfl⟩
  | succ m ih =>
      obtain ⟨l', ⟨conn', ctx'⟩, t, f, hturn, hstate', horder', hfa', hclean', hbytes', hafter', hdevices,
        hfiles, hout, hfed⟩ := turn_chunk cfg hcalm hstate hclean horder (by omega) hfa hbytes
      have hlen' : (fs ++ [f]).length = fs.length + 1 := by simp
      obtain ⟨w', t', hends, hout', hdevices', hfed', hfiles'⟩ := ih (hcalm.runs hturn) hstate' hclean'
        (hafter'.trans hafter) horder' (by omega) hfa' (by rw [hlen']; exact hbytes')
      refine ⟨w', _, .turn (does_running hturn) hends, ?_, ?_, ?_, ?_⟩
      · rw [outputs_append, hout, hout']
        rfl
      · rw [hdevices', hdevices]
      · rw [feedResults_append, hfed, hfed', hlen']
        rfl
      · rw [if_neg (Nat.succ_ne_zero m)]
        rw [FilesAfter] at hfiles
        by_cases hm : m = 0
        · rw [if_pos hm] at hfiles'
          rw [if_pos (by omega)] at hfiles
          rw [hfiles']
          exact hfiles
        · rw [if_neg hm] at hfiles'
          rw [if_neg (by omega)] at hfiles
          rw [← hfiles]
          exact hfiles'

/-- The sender's call of `frame_chunk_build` for chunk `i` of the image. -/
def Raster.buildChunk (r : Raster) (cap : Nat) (deviceId frameSeq : UInt32) (i : Nat) : Option (List UInt8) :=
  frameChunkBuild cap deviceId (UInt16.ofNat r.w) (UInt16.ofNat r.h) frameSeq (UInt16.ofNat i)
    (frameChunkCount (UInt32.ofNat (r.w * r.h))) (r.pix.drop (FRAME_CHUNK_MAX * i))
    (UInt16.ofNat (Blocks.len FRAME_CHUNK_MAX r.pix.length i))

theorem buildChunk_some {r : Raster} {cap : Nat} {deviceId frameSeq : UInt32} {i : Nat} {bs : List UInt8}
    (hbuild : r.buildChunk cap deviceId frameSeq i = some bs) :
    bs = packetBytes PktType.frame.code deviceId (r.chunkPayload frameSeq i) := by
  have hlarge := frameChunkBuild_mono (le_max_left cap (PL_HDR_SIZE + 12 + FRAME_CHUNK_MAX)) hbuild
  rw [r.frameChunkBuild_eq frameSeq deviceId (le_max_right _ _)] at hlarge
  exact (Option.some.inj hlarge).symm

theorem chunkStream_eq {r : Raster} {cap : Nat} {deviceId frameSeq : UInt32} {is : List Nat}
    {packets : List (List UInt8)}
    (hbuild : List.Forall₂ (fun i bs => r.buildChunk cap deviceId frameSeq i = some bs) is packets) :
    packets.flatten = chunkStream r frameSeq deviceId is := by
  induction hbuild with
  | nil => rfl
  | cons hhead _ ih =>
      rw [List.flatten_cons, ih, buildChunk_some hhead]
      rfl

theorem chunkResults_eq (r : Raster) (frameSeq : UInt32) {n : Nat} (hn : n + 1 = (r.frame frameSeq).chunks) :
    (List.range' 1 (n + 1)).map (chunkResult r frameSeq) = List.replicate n .more ++ [.complete r.image] := by
  rw [List.range'_concat, List.map_append, List.map_singleton, chunkResult, if_pos (by omega)]
  congr 1
  rw [List.eq_replicate_iff]
  refine ⟨by simp, ?_⟩
  intro result hresult
  obtain ⟨k, hk, rfl⟩ := List.mem_map.mp hresult
  rw [List.mem_range'_1] at hk
  exact if_neg (by omega)

/-- **A frame survives the server.** An image sent behind a HELLO in the chunks `frame_chunk_build` makes
of it, in order and under any segmentation, is accepted chunk by chunk without a single error, completes
with its last chunk, and is written to a file that `bmp_read` turns back into the image. -/
theorem frame_survives (cfg : Config) (payload : PayloadBuf) (r : Raster) {cap : Nat}
    {deviceId frameSeq firmwareVersion capabilities : UInt32} {hello : List UInt8}
    (hhello : plBuildHello cap deviceId firmwareVersion capabilities = some hello)
    {packets : List (List UInt8)}
    (hpackets : List.Forall₂ (fun i bs => r.buildChunk cap deviceId frameSeq i = some bs)
      (List.range (r.frame frameSeq).chunks) packets)
    {conn : Conn} {ctx : ServerCtx} (hcalm : CalmFiles (conn, ctx)) (hclean : Clean conn.script)
    (hbytes : bytesOf conn.script = hello ++ packets.flatten) (hafter : conn.after = .eof) :
    (∃ w' t, Loop.Ends (clientWorker cfg) serverHandler (.enter payload) (conn, ctx) ⟨.closed, w', t⟩ ∧
      outputs t = [.reply (helloAckPacket deviceId ctx.nextSession)] ∧
      w'.2.devices.badOf deviceId = ctx.devices.badOf deviceId ∧
      feedResults t =
        List.replicate ((r.frame frameSeq).chunks - 1) .more ++ [.complete r.image] ∧
      Saved cfg deviceId r ctx.files w'.2.files) ∧
    ∃ file, bmpBytes r.image = some file ∧ bmpRead true file = some r.image := by
  refine ⟨?_, bmpRead_bmpBytes r⟩
  have hcalm₀ : CalmFiles (conn, { ctx with activeWorkers := ctx.activeWorkers + 1 }) :=
    { hcalm.toCalm with files := hcalm.files }
  have hsize : 0 < (r.frame frameSeq).size := by
    rw [r.frame_size, r.hpix]
    exact r.size_pos
  have hpos := FrameId.chunks_pos hsize
  rw [fwPacket_some rfl hhello, chunkStream_eq hpackets] at hbytes
  obtain ⟨l, ⟨conn₁, ctx₁⟩, t₁, p, hturn, hstate, -, -, hfa, hclean₁, hbytes₁, hafter₁, -, -, hbad₁, hfiles₁,
    hout₁, hfed₁⟩ :=
    turn_hello cfg (l := .init payload) hcalm₀.toCalm rfl hclean (by show 8 ≤ 1100; decide) hbytes
  obtain ⟨w', t₂, hends, hout₂, hdevices₂, hfed₂, hfiles₂⟩ := session_chunks cfg (r.frame frameSeq).chunks
    (hcalm₀.runs hturn) hstate hclean₁ (hafter₁.trans hafter) Raster.inOrder_nil (Nat.zero_add _) hfa
    (by rw [hbytes₁, List.range_eq_range']; rfl)
  refine ⟨w', _, .turn rfl (.turn (does_running hturn) hends), ?_, ?_, ?_, ?_⟩
  · rw [outputs_append, outputs_append, hout₁, hout₂]
    rfl
  · rw [hdevices₂, hbad₁]
  · obtain ⟨n, hn⟩ : ∃ n, n + 1 = (r.frame frameSeq).chunks := ⟨_, Nat.sub_add_cancel hpos⟩
    rw [feedResults_append, feedResults_append, hfed₁, hfed₂, ← hn, Nat.add_sub_cancel]
    exact chunkResults_eq r frameSeq hn
  · rw [if_neg (by omega), hfiles₁] at hfiles₂
    exact hfiles₂

/-- The two chunk packets of `twoChunkRaster`. -/
def twoChunkPackets : List (List UInt8) :=
  [packetBytes PktType.frame.code 7 (twoChunkRaster.chunkPayload 9 0),
    packetBytes PktType.frame.code 7 (twoChunkRaster.chunkPayload 9 1)]

def twoChunkStream : List UInt8 :=
  packetBytes PktType.hello.code 7 (helloPayload 1 0) ++ twoChunkPackets.flatten

theorem frame_survives_twoChunk :
    let cfg : Config := ⟨.little, some (ascii "/tmp")⟩
    let script := unread (twoChunkStream.take 500) (unread (twoChunkStream.drop 500) [])
    (∃ w' t, Loop.Ends (clientWorker cfg) serverHandler (.enter zeroPayload)
        (scripted script, freshServer) ⟨.closed, w', t⟩ ∧
      outputs t = [.reply (helloAckPacket 7 freshServer.nextSession)] ∧
      w'.2.devices.badOf 7 = freshServer.devices.badOf 7 ∧
      feedResults t = List.replicate ((twoChunkRaster.frame 9).chunks - 1) .more ++
        [.complete twoChunkRaster.image] ∧
      Saved cfg 7 twoChunkRaster freshServer.files w'.2.files) ∧
    ∃ file, bmpBytes twoChunkRaster.image = some file ∧ bmpRead true file = some twoChunkRaster.image := by
  intro cfg script
  have hcalm : CalmFiles (scripted script, freshServer) :=
    { calm_freshServer script with files := by simp [freshServer] }
  have hclean : Clean script := clean_unread (clean_unread (by simp [Clean]) _) _
  have hbytes : bytesOf script = twoChunkStream := by
    simp only [script, bytesOf_unread, bytesOf, List.append_nil, List.take_append_drop]
  have hhello := plBuildHello_eq 7 1 0 (show 20 ≤ 1048 by decide)
  have hpackets : List.Forall₂ (fun i bs => twoChunkRaster.buildChunk 1048 7 9 i = some bs)
      (List.range (twoChunkRaster.frame 9).chunks) twoChunkPackets := by
    rw [twoChunkRaster_chunks]
    exact .cons (twoChunkRaster.frameChunkBuild_eq 9 7 (le_refl _))
      (.cons (twoChunkRaster.frameChunkBuild_eq 9 7 (le_refl _)) .nil)
  exact frame_survives cfg zeroPayload twoChunkRaster hhello hpackets hcalm hclean hbytes rfl

end PulseLink
