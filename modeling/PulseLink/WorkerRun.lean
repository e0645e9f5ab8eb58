import PulseLink.ClientWorker

/-! A worker running alone on a connection where nothing fails: `running` stays set, sends and allocations
succeed. However the bytes of a packet arrive, a turn of the loop that starts in front of the packet reads
it whole and dispatches it (`turn_packet`). -/

namespace PulseLink

open Bytes

/-- A connection together with the state the workers share. -/
abbrev World := Conn × ServerCtx

/-- `p`, run alone from `w`, returns `value` in `w'` having performed `t`. -/
abbrev Does {α : Type} (p : ServerProc α) (w : World) (value : α) (w' : World)
    (t : List (Event ServerSig)) : Prop :=
  Proc.Runs serverHandler p w value w' t

/-- The server keeps running, sends and allocations succeed. -/
structure Calm (w : World) : Prop where
  running : w.2.choices.stop = none
  sends : ∀ s ∈ w.1.sends, s ≠ .failed
  callocs : ∀ ok ∈ w.2.choices.callocs, ok = true
  frameAllocs : ∀ a ∈ w.2.choices.frameAllocs, a.buf.isSome ∧ a.seen = true ∧ a.img = true
  imageAllocs : ∀ ok ∈ w.2.choices.imageAllocs, ok = true

theorem noFail_step {o : ServerOp} {w : World} (hsends : ∀ s ∈ w.1.sends, s ≠ .failed) :
    ∀ s ∈ (serverHandler o w).2.1.sends, s ≠ .failed := by
  obtain ⟨conn, ctx⟩ := w
  cases o with
  | writeN bs =>
      obtain ⟨rest, hwrite, hsub⟩ := writeN_ok (Nat.zero_le bs.length) hsends
      intro s hs
      simp only [serverHandler, hwrite] at hs
      exact hsends s (hsub hs)
  | writeFile path bytes =>
      simp only [serverHandler]
      split <;> exact hsends
  | _ => exact hsends

/-- Nothing the workers do changes that nothing fails. -/
theorem Calm.step (o : ServerOp) {w : World} (hcalm : Calm w) : Calm (serverHandler o w).2 := by
  obtain ⟨conn, ctx⟩ := w
  cases o with
  | loadRunning =>
      have hstop : ctx.choices.stop = none := hcalm.running
      exact { hcalm with running := by rw [serverHandler, hstop, loadStop] }
  | writeN bs => exact { hcalm with sends := noFail_step hcalm.sends }
  | insert id sessionId =>
      exact { hcalm with callocs := fun ok hok => hcalm.callocs ok (mem_draw_of_mem hok) }
  | frameAlloc =>
      exact { hcalm with frameAllocs := fun a ha => hcalm.frameAllocs a (mem_draw_of_mem ha) }
  | imageAlloc =>
      exact { hcalm with imageAllocs := fun ok hok => hcalm.imageAllocs ok (mem_draw_of_mem hok) }
  | writeFile path bytes =>
      simp only [serverHandler]
      split <;> exact { hcalm with }
  | _ => exact { hcalm with }

theorem Calm.runs {α : Type} {p : ServerProc α} {w w' : World} {value : α}
    {t : List (Event ServerSig)} (hcalm : Calm w) (hruns : Does p w value w' t) : Calm w' :=
  hruns.invariant (fun o _ => Calm.step o) hcalm

/-- While nothing stops the server, `running` is seen true. -/
theorem loadRunning_true {conn : Conn} {ctx : ServerCtx} (hstop : ctx.choices.stop = none) :
    serverHandler .loadRunning (conn, ctx) = (true, conn, ctx) := by
  rw [serverHandler, hstop]
  simp only [loadStop, ← hstop]

theorem stop_step (o : ServerOp) {w : World} (hstop : w.2.choices.stop = none) :
    (serverHandler o w).2.2.choices.stop = none := by
  obtain ⟨conn, ctx⟩ := w
  cases o with
  | loadRunning =>
      have hnone : ctx.choices.stop = none := hstop
      simp only [serverHandler, hnone, loadStop]
  | writeFile path bytes =>
      simp only [serverHandler]
      split <;> exact hstop
  | _ => exact hstop

theorem stop_runs {α : Type} {p : ServerProc α} {w w' : World} {value : α} {t : List (Event ServerSig)}
    (hstop : w.2.choices.stop = none) (hruns : Does p w value w' t) : w'.2.choices.stop = none :=
  hruns.invariant (J := fun w => w.2.choices.stop = none) (fun o _ => stop_step o) hstop

theorem after_step (o : ServerOp) {w : World} {after : Afterwards} (hafter : w.1.after = after) :
    (serverHandler o w).2.1.after = after := by
  obtain ⟨conn, ctx⟩ := w
  cases o with
  | writeFile path bytes =>
      simp only [serverHandler]
      split <;> exact hafter
  | _ => exact hafter

/-! ### Replies -/

/-- A reply of at most 64 payload bytes goes out whole, and nothing else changes. -/
theorem does_sendPacket {w : World} (hcalm : Calm w) (cfg : Config) (type : PktType) (deviceId : UInt32)
    {payload : List UInt8} {plen : UInt16} (hlen : payload.length = plen.toNat) (hfit : plen.toNat ≤ 64) :
    ∃ conn, Does (sendPacket cfg type deviceId payload plen) w true (conn, w.2)
        [⟨.writeN (packetBytes type.code deviceId payload), true⟩] ∧
      conn.script = w.1.script ∧ conn.after = w.1.after := by
  obtain ⟨rest, hwrite, -⟩ :=
    writeN_ok (Nat.zero_le (packetBytes type.code deviceId payload).length) hcalm.sends
  rw [sendPacket_eq cfg type deviceId hlen hfit]
  refine ⟨{ w.1 with sends := rest, sent := w.1.sent ++ packetBytes type.code deviceId payload },
    .op ?_ (.ret _ _), rfl, rfl⟩
  simp only [serverHandler, hwrite, List.take_length]

/-! ### Reading a packet -/

/-- Reading `bs` from a clean stream that starts with it. -/
theorem readN_packet (after : Afterwards) {script : List Recv} (hclean : Clean script)
    {bs rest : List UInt8} (hbytes : bytesOf script = bs ++ rest) :
    ∃ script', readN after bs.length [] script = (.count bs, script') ∧ Clean script' ∧
      bytesOf script' = rest := by
  obtain ⟨script', hread, hclean', hrest⟩ :=
    readN_clean after bs.length hclean [] (Nat.zero_le _) (by rw [hbytes]; simp)
  refine ⟨script', ?_, hclean', ?_⟩
  · rw [hread, hbytes]
    simp
  · rw [hrest, hbytes]
    simp

theorem PayloadBuf.fill_nil (buf : PayloadBuf) : buf.fill [] = buf := by
  cases buf with
  | mk bytes size =>
      simp only [PayloadBuf.fill, storeAt, PayloadBuf.mk.injEq]
      simp [← size]

/-- The locals after a packet with this payload has been read. -/
def Locals.received (l : Locals) (payload : List UInt8) : Locals :=
  { l with idleTicks := 0, payload := l.payload.fill payload }

/-- The event of receiving a payload, if there is one. -/
def payloadEvents (payload : List UInt8) : List (Event ServerSig) :=
  if payload = [] then [] else [⟨.readN payload.length, .count payload⟩]

/-- The events of reading an accepted packet. -/
def readEvents (h : PlHeader) (payload : List UInt8) : List (Event ServerSig) :=
  [⟨.loadRunning, true⟩, ⟨.readN PL_HDR_SIZE, .count h.wire⟩] ++
    (payloadEvents payload ++ [⟨.decided h (.accepted payload), ()⟩])

/-- What a turn does with the result of reading a header. -/
def afterRead (cfg : Config) (l : Locals) : ReadResult → ServerProc Turn
  | .again _ =>
      if (l.idleTicks + 1) * WORKER_TICK_S ≥ DEAD_PEER_S then return .inr .idle
      else return .inl { l with idleTicks := l.idleTicks + 1 }
  | .failed _ => return .inr .recvError
  | .count got =>
      if got.length = 0 then return .inr .closed
      else if got.length ≠ PL_HDR_SIZE then return .inr .midHeader
      else handleHeader cfg { l with idleTicks := 0 } (plParseHeader cfg.host got)

theorem clientTurn_eq (cfg : Config) (l : Locals) :
    clientTurn cfg l = (do
      let running ← ask .loadRunning
      if running = false then return .inr .shutdown
      else if l.state = .closing then return .inr .closing
      else
        let r ← ask (.readN PL_HDR_SIZE)
        afterRead cfg l r) := rfl

/-- In state CLOSING the loop is left. -/
theorem turn_closing {cfg : Config} {l : Locals} {conn : Conn} {ctx : ServerCtx}
    (hstop : ctx.choices.stop = none) (hstate : l.state = .closing) :
    Does (clientTurn cfg l) (conn, ctx) (.inr .closing) (conn, ctx) [⟨.loadRunning, true⟩] := by
  refine .perform (loadRunning_true hstop) ?_
  rw [if_neg (show ¬ true = false by decide), if_pos hstate]
  exact .ret _ _

/-- A turn reads a header and goes on with the result. -/
theorem turn_read (cfg : Config) (l : Locals) {conn : Conn} {ctx : ServerCtx}
    (hstop : ctx.choices.stop = none) (hstate : l.state ≠ .closing) {r : ReadResult} {rest : List Recv}
    (hread : readN conn.after PL_HDR_SIZE [] conn.script = (r, rest)) {turn : Turn} {w' : World}
    {t : List (Event ServerSig)}
    (hdoes : Does (afterRead cfg l r) ({ conn with script := rest }, ctx) turn w' t) :
    Does (clientTurn cfg l) (conn, ctx) turn w'
      (⟨.loadRunning, true⟩ :: ⟨.readN PL_HDR_SIZE, r⟩ :: t) := by
  have hop : serverHandler (.readN PL_HDR_SIZE) (conn, ctx) = (r, { conn with script := rest }, ctx) := by
    simp only [serverHandler, hread]
  rw [clientTurn_eq]
  refine .perform (loadRunning_true hstop) ?_
  rw [if_neg (show ¬ true = false by decide), if_neg hstate]
  exact .perform hop hdoes

/-- A turn in front of 12 header bytes reads them. -/
theorem turn_header (cfg : Config) (l : Locals) {conn : Conn} {ctx : ServerCtx}
    (hstop : ctx.choices.stop = none) (hstate : l.state ≠ .closing) (hclean : Clean conn.script)
    {h : PlHeader} {rest : List UInt8} (hbytes : bytesOf conn.script = h.wire ++ rest) :
    ∃ script, Clean script ∧ bytesOf script = rest ∧
      ∀ {turn w' t}, Does (handleHeader cfg { l with idleTicks := 0 } h)
          ({ conn with script := script }, ctx) turn w' t →
        Does (clientTurn cfg l) (conn, ctx) turn w'
          (⟨.loadRunning, true⟩ :: ⟨.readN PL_HDR_SIZE, .count h.wire⟩ :: t) := by
  obtain ⟨script, hread, hclean', hrest⟩ := readN_packet conn.after hclean hbytes
  rw [h.length_wire] at hread
  refine ⟨script, hclean', hrest, ?_⟩
  intro turn w' t hdoes
  refine turn_read cfg l hstop hstate hread ?_
  have hparse : plParseHeader cfg.host h.wire = h := by
    have := plParseHeader_wire cfg.host h []
    rwa [List.append_nil] at this
  simp only [afterRead, h.length_wire, hparse]
  exact hdoes

theorem toNat_builtHeader_len {type : UInt8} {deviceId : UInt32} {payload : List UInt8}
    (hlen : payload.length ≤ 1100) :
    (builtHeader type deviceId payload).payloadLen.toNat = payload.length :=
  UInt16.toNat_ofNat_of_lt' (show payload.length < 2 ^ 16 by omega)

theorem checkHeader_built {type : UInt8} {deviceId : UInt32} {payload : List UInt8}
    (hlen : payload.length ≤ 1100) : checkHeader (builtHeader type deviceId payload) = none := by
  refine checkHeader_eq_none.mpr ⟨rfl, rfl, ?_⟩
  rw [toNat_builtHeader_len hlen]
  exact hlen

/-- An acceptable header whose payload arrives: the checksum test comes next. -/
theorem handleHeader_payload (cfg : Config) (l : Locals) {h : PlHeader} (hcheck : checkHeader h = none)
    {conn : Conn} {ctx : ServerCtx} {payload : List UInt8} {rest : List Recv}
    (hread : readN conn.after h.payloadLen.toNat [] conn.script = (.count payload, rest))
    (hlen : payload.length = h.payloadLen.toNat) {turn : Turn} {w' : World} {t : List (Event ServerSig)}
    (hdoes : Does (checkPayload cfg { l with payload := l.payload.fill payload } h)
      ({ conn with script := rest }, ctx) turn w' t) :
    Does (handleHeader cfg l h) (conn, ctx) turn w' (payloadEvents payload ++ t) := by
  rw [handleHeader, hcheck]
  simp only [recvPayload, payloadEvents]
  by_cases hpos : h.payloadLen > 0
  · have hne : payload ≠ [] := by
      rintro rfl
      rw [gt_iff_lt, UInt16.lt_iff_toNat_lt, ← hlen] at hpos
      exact Nat.lt_irrefl 0 hpos
    have hop : serverHandler (.readN h.payloadLen.toNat) (conn, ctx) =
        (.count payload, { conn with script := rest }, ctx) := by
      simp only [serverHandler, hread]
    rw [if_pos hpos, if_neg hne, hlen]
    refine .perform hop ?_
    simp only [if_pos hlen]
    exact hdoes
  · have hzero : h.payloadLen.toNat = 0 := by
      rw [gt_iff_lt, UInt16.lt_iff_toNat_lt] at hpos
      exact Nat.eq_zero_of_not_pos hpos
    rw [hzero, readN_full conn.after 0 (Nat.zero_le _)] at hread
    obtain ⟨rfl, rfl⟩ : [] = payload ∧ conn.script = rest :=
      ⟨ReadResult.count.inj (Prod.mk.inj hread).1, (Prod.mk.inj hread).2⟩
    rw [if_neg hpos, if_pos rfl]
    rw [PayloadBuf.fill_nil] at hdoes
    exact hdoes

/-- **A framed packet is read whole.** A turn in front of an acceptable header and its payload, however
their bytes arrive, comes to the checksum test with the payload in the buffer and leaves the stream
behind the packet. -/
theorem turn_framed (cfg : Config) (l : Locals) {conn : Conn} {ctx : ServerCtx}
    (hstop : ctx.choices.stop = none) (hstate : l.state ≠ .closing) (hclean : Clean conn.script)
    {h : PlHeader} (hcheck : checkHeader h = none) {payload rest : List UInt8}
    (hlen : payload.length = h.payloadLen.toNat)
    (hbytes : bytesOf conn.script = h.wire ++ (payload ++ rest)) :
    ∃ script, Clean script ∧ bytesOf script = rest ∧
      ∀ {turn w' t}, Does (checkPayload cfg (l.received payload) h) ({ conn with script := script }, ctx)
          turn w' t →
        Does (clientTurn cfg l) (conn, ctx) turn w'
          ([⟨.loadRunning, true⟩, ⟨.readN PL_HDR_SIZE, .count h.wire⟩] ++ (payloadEvents payload ++ t)) := by
  obtain ⟨script₁, hclean₁, hbytes₁, hturn⟩ := turn_header cfg l hstop hstate hclean hbytes
  obtain ⟨script₂, hread, hclean₂, hbytes₂⟩ := readN_packet conn.after hclean₁ hbytes₁
  rw [hlen] at hread
  refine ⟨script₂, hclean₂, hbytes₂, ?_⟩
  intro turn w' t hdoes
  exact hturn (handleHeader_payload cfg _ hcheck hread hlen hdoes)

/-- The checksum test sees the payload just received. -/
theorem checkPayload_received (cfg : Config) (l : Locals) {h : PlHeader} {payload : List UInt8}
    (hlen : payload.length = h.payloadLen.toNat) (hfits : payload.length ≤ 1100) :
    checkPayload cfg (l.received payload) h =
      if plChecksum payload ≠ h.checksum then strikeOut cfg (l.received payload) h .badChecksum
      else (do
        ask (.decided h (.accepted payload))
        dispatch cfg (l.received payload) h) := by
  have htake : (l.received payload).payload.bytes.take h.payloadLen.toNat = payload := by
    rw [← hlen]
    exact l.payload.take_fill hfits
  simp only [checkPayload]
  rw [htake]

/-- A turn in front of a packet built with its own length and checksum passes it to `dispatch`. -/
theorem turn_packet (cfg : Config) (l : Locals) {conn : Conn} {ctx : ServerCtx}
    (hcalm : Calm (conn, ctx)) (hstate : l.state ≠ .closing) (hclean : Clean conn.script)
    {type : UInt8} {deviceId : UInt32} {payload rest : List UInt8} (hlen : payload.length ≤ 1100)
    (hbytes : bytesOf conn.script = packetBytes type deviceId payload ++ rest) :
    ∃ script, Clean script ∧ bytesOf script = rest ∧
      ∀ {turn w' t}, Does (dispatch cfg (l.received payload) (builtHeader type deviceId payload))
          ({ conn with script := script }, ctx) turn w' t →
        Does (clientTurn cfg l) (conn, ctx) turn w'
          (readEvents (builtHeader type deviceId payload) payload ++ t) := by
  have hplen := @toNat_builtHeader_len type deviceId payload hlen
  rw [packetBytes, List.append_assoc] at hbytes
  obtain ⟨script, hclean', hbytes', hturn⟩ := turn_framed cfg l hcalm.running hstate hclean
    (checkHeader_built hlen) hplen.symm hbytes
  refine ⟨script, hclean', hbytes', ?_⟩
  intro turn w' t hdoes
  rw [readEvents, List.append_assoc, List.append_assoc]
  refine hturn ?_
  rw [checkPayload_received cfg l hplen.symm hlen, if_neg (fun hne => hne rfl)]
  refine .perform rfl ?_
  exact hdoes

/-! ### Dispatch -/

theorem dispatch_hello (cfg : Config) {l : Locals} (hstate : l.state = .waitHello) (h : PlHeader) :
    dispatch cfg l h = handleHello cfg l h := by
  rw [dispatch, if_pos hstate]

theorem dispatch_sensor (cfg : Config) {l : Locals} (hstate : l.state = .active) {h : PlHeader}
    (htype : h.type = PktType.sensor.code) : dispatch cfg l h = handleSensor cfg l h := by
  rw [dispatch, hstate, if_neg (by decide), if_pos htype]

theorem dispatch_frame (cfg : Config) {l : Locals} (hstate : l.state = .active) {h : PlHeader}
    (htype : h.type = PktType.frame.code) : dispatch cfg l h = handleFrame cfg l h := by
  rw [dispatch, hstate, htype, if_neg (by decide), if_neg (by decide), if_pos rfl]

end PulseLink
