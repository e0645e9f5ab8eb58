import PulseLink.Framing
import PulseLink.Maintenance

/-! Heartbeats against the TCP side of the server. The UDP listener keeps one buffer for all datagrams and
checks a header in its own order, without a bound on `payload_len`; it accepts what a worker would accept and
reads only what it has received. What a heartbeat leaves in the device table, on the other hand, depends on
whether it comes before or after the HELLO of a new device. -/

namespace PulseLink

open Bytes

/-! ### The receive buffer -/

/-- The array `buf[PL_HDR_SIZE + PL_MAX_PAYLOAD]` of `udp_listener_thread`. -/
structure UdpBuf where
  bytes : List UInt8
  size : bytes.length = 1112

theorem UdpBuf.length_stored (buf : UdpBuf) (datagram : List UInt8) :
    (storeAt buf.bytes 0 (datagram.take 1112)).length = 1112 := by
  have hsize := buf.size
  simp only [storeAt, List.length_append, List.length_take, List.length_drop]
  omega

/-- `recvfrom`: the number of bytes kept of a datagram, and the buffer with them; what lies behind stays. -/
def UdpBuf.recvfrom (buf : UdpBuf) (datagram : List UInt8) : Nat × UdpBuf :=
  let got := datagram.take 1112
  (got.length, { bytes := storeAt buf.bytes 0 got, size := buf.length_stored datagram })

/-- Reading `len` bytes of the buffer from `off` on. -/
inductive BufOp where
  | load (off len : Nat)

abbrev BufSig : Sig := ⟨BufOp, fun _ => List UInt8⟩

abbrev load (off len : Nat) : Proc BufSig (List UInt8) := Proc.perform (I := BufSig) (.load off len)

def bufHandler : Handler BufSig UdpBuf
  | .load off len, buf => ((buf.bytes.drop off).take len, buf)

/-- What the listener takes out of a heartbeat. -/
structure Heartbeat where
  deviceId : UInt32
  uptime : UInt32
  heap : UInt32
  deriving DecidableEq, Repr

/-- The checks of `udp_listener_thread` on a buffer with `n` bytes received; `none` is a `continue`. -/
def udpCheck (host : Endian) (n : Nat) : Proc BufSig (Option Heartbeat) :=
  if n < PL_HDR_SIZE then return none
  else do
    let hdr ← load 0 PL_HDR_SIZE
    let h := plParseHeader host hdr
    if h.magic ≠ PL_MAGIC ∨ h.version ≠ PL_VERSION then return none
    else if n < PL_HDR_SIZE + h.payloadLen.toNat then return none
    else
      let payload ← load PL_HDR_SIZE h.payloadLen.toNat
      if plChecksum payload ≠ h.checksum then return none
      else if h.type ≠ PktType.heartbeat.code then return none
      else if h.payloadLen ≥ 8 then
        let uptime ← load PL_HDR_SIZE 4
        let heap ← load (PL_HDR_SIZE + 4) 4
        return some ⟨h.deviceId, htonl host (load32 host uptime 0), htonl host (load32 host heap 0)⟩
      else return some ⟨h.deviceId, 0, 0⟩

/-- The listener's checks of a datagram that arrives with `buf` in the buffer. -/
def udpReceive (host : Endian) (buf : UdpBuf) (datagram : List UInt8) :
    Outcome BufSig UdpBuf (Option Heartbeat) :=
  (udpCheck host (buf.recvfrom datagram).1).exec bufHandler (buf.recvfrom datagram).2

/-! ### What it reads -/

/-- The read stays inside the `n` bytes received. -/
def InBounds (n : Nat) : BufOp → Prop
  | .load off len => off + len ≤ n

theorem uses_load {α : Type} {P : BufOp → Prop} {off len : Nat} {f : List UInt8 → Proc BufSig α}
    (hload : P (.load off len)) (hf : ∀ bs, (f bs).Uses P) : (load off len >>= f).Uses P :=
  ⟨hload, hf⟩

/-- Whatever the buffer holds, the checks never leave the bytes received: the length test comes before the
checksum, and the two words of the payload are read only if it is long enough for them. -/
theorem udpCheck_inBounds (host : Endian) (n : Nat) : (udpCheck host n).Uses (InBounds n) := by
  rw [udpCheck]
  by_cases hrunt : n < PL_HDR_SIZE
  · rw [if_pos hrunt]
    trivial
  rw [if_neg hrunt]
  refine uses_load (show 0 + PL_HDR_SIZE ≤ n by omega) fun hdr => ?_
  generalize plParseHeader host hdr = h
  by_cases hmagic : h.magic ≠ PL_MAGIC ∨ h.version ≠ PL_VERSION
  · rw [if_pos hmagic]
    trivial
  rw [if_neg hmagic]
  by_cases hshort : n < PL_HDR_SIZE + h.payloadLen.toNat
  · rw [if_pos hshort]
    trivial
  rw [if_neg hshort]
  refine uses_load (show PL_HDR_SIZE + h.payloadLen.toNat ≤ n by omega) fun payload => ?_
  split_ifs with hsum htype hlong
  · trivial
  · trivial
  · have height : 8 ≤ h.payloadLen.toNat := UInt16.le_iff_toNat_le.mp hlong
    refine uses_load (show PL_HDR_SIZE + 4 ≤ n by omega) fun uptime => ?_
    exact uses_load (show PL_HDR_SIZE + 4 + 4 ≤ n by omega) fun heap => trivial
  · trivial

/-- A read inside the bytes received sees the datagram, not what earlier ones left behind it. -/
theorem load_recvfrom (buf : UdpBuf) (datagram : List UInt8) {off len : Nat}
    (hin : off + len ≤ (buf.recvfrom datagram).1) :
    ((buf.recvfrom datagram).2.bytes.drop off).take len = (datagram.drop off).take len := by
  have hbytes : (buf.recvfrom datagram).2.bytes =
      datagram.take 1112 ++ buf.bytes.drop (datagram.take 1112).length := by
    simp [UdpBuf.recvfrom, storeAt]
  have hle : off + len ≤ (datagram.take 1112).length := hin
  have hcap : off + len ≤ 1112 := le_trans hle (List.length_take_le _ _)
  rw [hbytes, List.drop_append_of_le_length (by omega), List.take_append_of_le_length]
  · rw [List.drop_take, List.take_take, Nat.min_eq_left (by omega)]
  · rw [List.length_drop]
    omega

/-- Reading inside the bytes received, and going on with the bytes of the datagram. -/
theorem exec_load {α : Type} (buf : UdpBuf) (datagram : List UInt8) {off len : Nat}
    (hin : off + len ≤ (buf.recvfrom datagram).1) (f : List UInt8 → Proc BufSig α) :
    ((load off len >>= f).exec bufHandler (buf.recvfrom datagram).2).value =
      ((f ((datagram.drop off).take len)).exec bufHandler (buf.recvfrom datagram).2).value := by
  rw [← load_recvfrom buf datagram hin]
  rfl

/-- The device named by what the listener accepts. -/
theorem udpReceive_value (host : Endian) (buf : UdpBuf) (datagram : List UInt8) :
    (udpReceive host buf datagram).value.map Heartbeat.deviceId = heartbeatId host datagram := by
  have hn : (datagram.take (PL_HDR_SIZE + PL_MAX_PAYLOAD.toNat)).length = (buf.recvfrom datagram).1 := rfl
  have hload := @exec_load (Option Heartbeat) buf datagram
  generalize hgot : datagram.take (PL_HDR_SIZE + PL_MAX_PAYLOAD.toNat) = got at hn
  rw [udpReceive, udpCheck, heartbeatId]
  simp only [hgot, hn]
  by_cases hrunt : (buf.recvfrom datagram).1 < PL_HDR_SIZE
  · rw [if_pos hrunt, if_pos hrunt]
    rfl
  have hhdr : plParseHeader host ((datagram.drop 0).take PL_HDR_SIZE) = plParseHeader host got := by
    rw [← plParseHeader_take host (show PL_HDR_SIZE ≤ got.length by omega), ← hgot, List.take_take, List.drop_zero]
    rfl
  rw [if_neg hrunt, if_neg hrunt, hload (by omega), hhdr]
  generalize plParseHeader host got = h
  by_cases hmagic : h.magic ≠ PL_MAGIC ∨ h.version ≠ PL_VERSION
  · rw [if_pos hmagic, if_pos hmagic]
    rfl
  rw [if_neg hmagic, if_neg hmagic]
  by_cases hshort : (buf.recvfrom datagram).1 < PL_HDR_SIZE + h.payloadLen.toNat
  · rw [if_pos hshort, if_pos hshort]
    rfl
  have hpayload : (got.drop PL_HDR_SIZE).take h.payloadLen.toNat =
      (datagram.drop PL_HDR_SIZE).take h.payloadLen.toNat := by
    rw [← hgot, List.drop_take, List.take_take, Nat.min_eq_left]
    have := List.length_take_le (PL_HDR_SIZE + PL_MAX_PAYLOAD.toNat) datagram
    rw [hgot, hn] at this
    omega
  rw [if_neg hshort, if_neg hshort, hload (by omega), hpayload]
  split_ifs
  · rfl
  · rfl
  · rfl
  · rfl

/-! ### The same packets -/

/-- What the listener accepts, in the terms of the worker's checks. There is no test against
`PL_MAX_PAYLOAD`: a longer payload is not all in the buffer. -/
theorem heartbeatId_eq_some {host : Endian} {datagram : List UInt8} {id : UInt32} {h : PlHeader}
    (hh : plParseHeader host datagram = h) :
    heartbeatId host datagram = some id ↔
      PL_HDR_SIZE ≤ datagram.length ∧ PL_HDR_SIZE + h.payloadLen.toNat ≤ datagram.length ∧
      (checkHeader h = none ∧ plChecksum ((datagram.drop PL_HDR_SIZE).take h.payloadLen.toNat) = h.checksum) ∧
      h.type = PktType.heartbeat.code ∧ h.deviceId = id := by
  have hlen : (datagram.take (PL_HDR_SIZE + PL_MAX_PAYLOAD.toNat)).length =
      min (PL_HDR_SIZE + PL_MAX_PAYLOAD.toNat) datagram.length := List.length_take
  rw [heartbeatId, checkHeader_eq_none]
  by_cases hrunt : datagram.length < PL_HDR_SIZE
  · rw [if_pos (by omega)]
    refine ⟨nofun, fun hiff => ?_⟩
    omega
  have hparse : plParseHeader host (datagram.take (PL_HDR_SIZE + PL_MAX_PAYLOAD.toNat)) = h := by
    calc plParseHeader host (datagram.take (PL_HDR_SIZE + PL_MAX_PAYLOAD.toNat))
      _ = plParseHeader host ((datagram.take (PL_HDR_SIZE + PL_MAX_PAYLOAD.toNat)).take PL_HDR_SIZE) :=
          (plParseHeader_take host (by omega)).symm
      _ = plParseHeader host (datagram.take PL_HDR_SIZE) := by
          rw [List.take_take, Nat.min_eq_left (Nat.le_add_right _ _)]
      _ = plParseHeader host datagram := plParseHeader_take host (Nat.not_lt.mp hrunt)
      _ = h := hh
  rw [if_neg (by omega), hparse, hlen]
  by_cases hfits : PL_HDR_SIZE + h.payloadLen.toNat ≤ min (PL_HDR_SIZE + PL_MAX_PAYLOAD.toNat) datagram.length
  · have hpayload : ((datagram.take (PL_HDR_SIZE + PL_MAX_PAYLOAD.toNat)).drop PL_HDR_SIZE).take
        h.payloadLen.toNat = (datagram.drop PL_HDR_SIZE).take h.payloadLen.toNat := by
      rw [List.drop_take, List.take_take, Nat.min_eq_left (by omega)]
    rw [hpayload]
    have hplen : h.payloadLen.toNat ≤ PL_MAX_PAYLOAD.toNat := by omega
    have hall : PL_HDR_SIZE + h.payloadLen.toNat ≤ datagram.length := by omega
    split_ifs with hmagic hshort hsum htype
    · refine ⟨nofun, ?_⟩
      rintro ⟨-, -, ⟨⟨hm, hv, -⟩, -⟩, -⟩
      exact (hmagic.elim (fun hne => hne hm) fun hne => hne hv).elim
    · omega
    · simp [hsum]
    · simp [htype]
    · simp only [not_or, not_not] at hmagic hsum htype
      simp [hmagic, hsum, htype, hplen, hall, Nat.not_lt.mp hrunt]
  · rw [if_pos (show min (PL_HDR_SIZE + PL_MAX_PAYLOAD.toNat) datagram.length <
      PL_HDR_SIZE + h.payloadLen.toNat by omega)]
    split_ifs <;>
    · refine ⟨nofun, ?_⟩
      rintro ⟨-, hall, ⟨⟨-, -, hplen⟩, -⟩, -⟩
      omega

/-- A worker that gets the string `bs`, whatever it did before and however the bytes arrive, takes the packet
with header `h` and this payload for valid. -/
def WorkerAccepts (host : Endian) (bs : List UInt8) (h : PlHeader) (payload : List UInt8) : Prop :=
  ∀ (cfg : Config) (l : Locals) (conn : Conn) (ctx : ServerCtx), cfg.host = host →
    l.state ≠ .closing → ctx.choices.stop = none → Delivers conn bs →
    ⟨.decided h (.accepted payload), ()⟩ ∈ ((clientTurn cfg l).exec serverHandler (conn, ctx)).trace

theorem not_accepted_of_strikeOut {cfg : Config} {l : Locals} {h h' : PlHeader} {e : PlError}
    {payload : List UInt8} {t : List (Event ServerSig)} {x : Turn} (hpath : (strikeOut cfg l h e).Path t x) :
    ⟨.decided h' (.accepted payload), ()⟩ ∉ t := by
  obtain ⟨post, rfl, hpost, -⟩ := strikeOut_path hpath
  intro hmem
  rcases List.mem_cons.mp hmem with heq | hmem
  · cases heq
  · exact hpost _ hmem

/-- In front of an acceptable header the checksum decides. -/
theorem accepted_mem_iff {cfg : Config} {l : Locals} {conn : Conn} {ctx : ServerCtx}
    (hstate : l.state ≠ .closing) (hstop : ctx.choices.stop = none) {h : PlHeader} {payload : List UInt8}
    (hdelivers : Delivers conn (h.wire ++ payload)) (hcheck : checkHeader h = none)
    (hlen : payload.length = h.payloadLen.toNat) :
    ⟨.decided h (.accepted payload), ()⟩ ∈ ((clientTurn cfg l).exec serverHandler (conn, ctx)).trace ↔
      plChecksum payload = h.checksum := by
  have hfits : payload.length ≤ 1100 := hlen.le.trans (checkHeader_eq_none.mp hcheck).2.2
  have hbytes : bytesOf conn.script = h.wire ++ (payload ++ []) := by rw [hdelivers.bytes, List.append_nil]
  obtain ⟨script, -, -, hturn⟩ := turn_framed cfg l hstop hstate hdelivers.clean hcheck hlen hbytes
  have hruns := hturn (Proc.runs_exec serverHandler (checkPayload cfg (l.received payload) h)
    ({ conn with script := script }, ctx))
  have hread : ⟨.decided h (.accepted payload), ()⟩ ∉ payloadEvents payload := by
    rw [payloadEvents]
    split_ifs <;> simp
  rw [hruns, checkPayload_received cfg l hlen hfits]
  by_cases hsum : plChecksum payload = h.checksum
  · rw [if_neg (not_not_intro hsum)]
    exact iff_of_true (List.mem_append_right _ (List.mem_append_right _ List.mem_cons_self)) hsum
  · rw [if_pos hsum]
    refine iff_of_false ?_ hsum
    have hstrike := Proc.exec_path serverHandler (strikeOut cfg (l.received payload) h .badChecksum)
      ({ conn with script := script }, ctx)
    simp [hread, not_accepted_of_strikeOut hstrike]

/-- The worker accepts what passes the tests on the header and on the checksum. -/
theorem workerAccepts_iff {host : Endian} {h : PlHeader} {payload : List UInt8}
    (hlen : payload.length = h.payloadLen.toNat) :
    WorkerAccepts host (h.wire ++ payload) h payload ↔
      checkHeader h = none ∧ plChecksum payload = h.checksum := by
  constructor
  · intro haccepts
    -- a new connection will do
    have hdelivers := delivers_scripted (h.wire ++ payload)
    have hstate : (Locals.init zeroPayload).state ≠ .closing := by decide
    have hmem := haccepts ⟨host, none⟩ (.init zeroPayload) _ freshServer rfl hstate rfl hdelivers
    cases hcheck : checkHeader h with
    | none => exact ⟨rfl, (accepted_mem_iff hstate rfl hdelivers hcheck hlen).mp hmem⟩
    | some e =>
        obtain ⟨script, -, -, hturn⟩ := turn_header ⟨host, none⟩ (.init zeroPayload)
          (show freshServer.choices.stop = none from rfl) hstate hdelivers.clean hdelivers.bytes
        rw [hturn (Proc.runs_exec serverHandler _ _), handleHeader, hcheck] at hmem
        have hstrike := Proc.exec_path serverHandler (strikeOut ⟨host, none⟩ (.init zeroPayload) h e)
          ({ scripted (unread (h.wire ++ payload) []) with script := script }, freshServer)
        rcases List.mem_cons.mp hmem with heq | hmem
        · cases heq
        rcases List.mem_cons.mp hmem with heq | hmem
        · cases heq
        exact absurd hmem (not_accepted_of_strikeOut hstrike)
  · rintro ⟨hcheck, hsum⟩ cfg l conn ctx - hstate hstop hdelivers
    exact (accepted_mem_iff hstate hstop hdelivers hcheck hlen).mpr hsum

/-- What the loop of `udp_listener_thread` goes on to do with a datagram. -/
def udpServe : Option Heartbeat → ServerProc Unit
  | none => return ()
  | some b => do
      let now ← ask .time
      dtTouch b.deviceId now

/-- **UDP and TCP validate alike.** Whatever earlier datagrams left in its buffer, the listener reads no byte
behind the ones it received, and calls `dt_touch` for a device exactly when the datagram begins with a whole
packet of type HEARTBEAT from it that a worker would accept; this is the turn `udpTurn` of the listener. -/
theorem udp_validates_as_tcp (host : Endian) (buf : UdpBuf) (datagram : List UInt8) :
    let r := udpReceive host buf datagram
    let h := plParseHeader host datagram
    let size := PL_HDR_SIZE + h.payloadLen.toNat
    udpTurn host (some datagram) = udpServe r.value ∧
    (∀ id, r.value.map Heartbeat.deviceId = some id ↔
      PL_HDR_SIZE ≤ datagram.length ∧ size ≤ datagram.length ∧
      WorkerAccepts host (datagram.take size) h ((datagram.take size).drop PL_HDR_SIZE) ∧
      h.type = PktType.heartbeat.code ∧ h.deviceId = id) ∧
    ∀ off len, (∃ ans, ⟨.load off len, ans⟩ ∈ r.trace) → off + len ≤ min datagram.length 1112 := by
  intro r h size
  refine ⟨?_, fun id => ?_, ?_⟩
  · have hvalue : (some datagram).bind (heartbeatId host) = r.value.map Heartbeat.deviceId :=
      (udpReceive_value host buf datagram).symm
    rw [udpTurn, hvalue]
    cases r.value <;> rfl
  · rw [udpReceive_value, heartbeatId_eq_some (show plParseHeader host datagram = h from rfl)]
    refine and_congr_right fun hhdr => and_congr_right fun hsize => and_congr_left fun _ => ?_
    have hpayload : (datagram.drop PL_HDR_SIZE).take h.payloadLen.toNat =
        (datagram.take size).drop PL_HDR_SIZE := by
      rw [List.drop_take, Nat.add_sub_cancel_left]
    have hlen : ((datagram.take size).drop PL_HDR_SIZE).length = h.payloadLen.toNat := by
      rw [List.length_drop, List.length_take_of_le hsize, Nat.add_sub_cancel_left]
    have hwire : datagram.take size = h.wire ++ (datagram.take size).drop PL_HDR_SIZE := by
      have htake : (datagram.take size).take PL_HDR_SIZE = h.wire := by
        rw [List.take_take, Nat.min_eq_left (Nat.le_add_right _ _),
          ← wire_plParseHeader host _ (List.length_take_of_le hhdr), plParseHeader_take host hhdr]
      rw [← htake, List.take_append_drop]
    rw [hpayload, ← workerAccepts_iff hlen, ← hwire]
  · rintro off len ⟨ans, hmem⟩
    have hin := ((udpCheck_inBounds host _).path (Proc.exec_path bufHandler _ _)).1 _ hmem
    rwa [Nat.min_comm, ← List.length_take]

/-! ### A heartbeat and a HELLO of a new device -/

/-- The table of a world. -/
def tableAfter (p : ServerProc Unit) (conn : Conn) (ctx : ServerCtx) : DeviceTable :=
  (p.exec serverHandler (conn, ctx)).world.2.devices

/-- The device is first seen by a heartbeat, then by a HELLO. -/
def touchThenHello (id sessionId : UInt32) (now : Int) : ServerProc Unit := do
  dtTouch id now
  let _ ← dtGetOrCreate id sessionId
  return ()

/-- The device is first seen by a HELLO, then by a heartbeat. -/
def helloThenTouch (id sessionId : UInt32) (now : Int) : ServerProc Unit := do
  let _ ← dtGetOrCreate id sessionId
  dtTouch id now

/-- The state after a slow path of `dt_get_or_create` has taken a clock reading and a result of `calloc`. -/
def ServerCtx.spent (ctx : ServerCtx) : ServerCtx :=
  { ctx with choices := { ctx.choices with
      times := (draw 0 ctx.choices.times).2
      callocs := (draw true ctx.choices.callocs).2 } }

section Orders

variable (conn : Conn) {ctx : ServerCtx} {id : UInt32}

theorem getOrCreate_found {p : Nat} (hp : ctx.devices.lookup id = some p) (sessionId : UInt32) :
    ∃ t, Does (dtGetOrCreate id sessionId) (conn, ctx) (some p) (conn, ctx) t := by
  have hop : serverHandler (.find id) (conn, ctx) = (some p, conn, ctx) := by rw [serverHandler, hp]
  exact ⟨_, .perform hop (.perform rfl (.ret _ _))⟩

theorem getOrCreate_created (hnew : ctx.devices.lookup id = none)
    (hok : (draw true ctx.choices.callocs).1 = true) (sessionId : UInt32) :
    ∃ t, Does (dtGetOrCreate id sessionId) (conn, ctx) (some ctx.devices.heap.length)
      (conn, { ctx.spent with
        devices := ctx.devices.insert id sessionId (draw 0 ctx.choices.times).1 }) t := by
  have hfind : serverHandler (.find id) (conn, ctx) = (none, conn, ctx) := by rw [serverHandler, hnew]
  have hinsert : serverHandler (.insert id sessionId) (conn, ctx) =
      (.inserted ctx.devices.heap.length, conn, { ctx.spent with
        devices := ctx.devices.insert id sessionId (draw 0 ctx.choices.times).1 }) := by
    simp only [serverHandler, dtInsertLocked, hnew, hok, if_true, ServerCtx.spent]
  exact ⟨_, .perform hfind (.perform hinsert (.perform rfl (.ret _ _)))⟩

theorem getOrCreate_refused (hnew : ctx.devices.lookup id = none)
    (hok : (draw true ctx.choices.callocs).1 = false) (sessionId : UInt32) :
    ∃ t, Does (dtGetOrCreate id sessionId) (conn, ctx) none (conn, ctx.spent) t := by
  have hfind : serverHandler (.find id) (conn, ctx) = (none, conn, ctx) := by rw [serverHandler, hnew]
  have hinsert : serverHandler (.insert id sessionId) (conn, ctx) = (.noMemory, conn, ctx.spent) := by
    simp only [serverHandler, dtInsertLocked, hnew, hok, ServerCtx.spent]
    rfl
  exact ⟨_, .perform hfind (.perform hinsert (.perform rfl (.ret _ _)))⟩

theorem insert_atomic (t : DeviceTable) (id sessionId : UInt32) (created : Int) (a : DevAtomic) :
    (t.insert id sessionId created).atomic t.heap.length a =
      { t.insert id sessionId created with
        heap := t.heap ++ [a.apply (DeviceTable.newDevice id sessionId created)] } := by
  have hmodify : ∀ heap : List Device, ∀ d, (heap ++ [d]).modify heap.length a.apply = heap ++ [a.apply d] := by
    intro heap d
    induction heap with
    | nil => rfl
    | cons d' heap ih => exact congrArg (List.cons d') ih
  exact congrArg (fun heap => { t.insert id sessionId created with heap := heap }) (hmodify t.heap _)

/-- Touching a device just created leaves it as if it had been created now. -/
theorem touch_insert (t : DeviceTable) (id sessionId : UInt32) (created now : Int) :
    ((t.insert id sessionId created).atomic t.heap.length (.storeSeen now)).atomic t.heap.length
      (.storeState .online) = t.insert id sessionId now := by
  calc ((t.insert id sessionId created).atomic t.heap.length (.storeSeen now)).atomic t.heap.length
        (.storeState .online)
    _ = (t.insert id sessionId now).atomic t.heap.length (.storeState .online) := by
        rw [insert_atomic]
        rfl
    _ = t.insert id sessionId now := insert_atomic t id sessionId now (.storeState .online)

/-- Two creations of one device agree as maps when they agree on the session and the time. -/
theorem insert_get_iff (t : DeviceTable) (id sessionId sessionId' : UInt32) (now now' : Int) :
    (∀ id', (t.insert id sessionId now).get id' = (t.insert id sessionId' now').get id') ↔
      sessionId = sessionId' ∧ now = now' := by
  constructor
  · intro hsame
    have hdevice := hsame id
    rw [DeviceTable.get_insert, DeviceTable.get_insert] at hdevice
    have hnew := Option.some.inj hdevice
    exact ⟨congrArg Device.sessionId hnew, congrArg Device.lastSeen hnew⟩
  · rintro ⟨rfl, rfl⟩ id'
    rfl

/-- A device without its session. -/
def Device.sessionless (d : Device) : Device := { d with sessionId := 0 }

/-- Two creations of one device at the same time differ in the session only. -/
theorem insert_sessionless (t : DeviceTable) (id sessionId sessionId' : UInt32) (now : Int) (id' : UInt32) :
    ((t.insert id sessionId now).get id').map Device.sessionless =
      ((t.insert id sessionId' now).get id').map Device.sessionless := by
  have hheap : ∀ p : Nat, ((t.insert id sessionId now).heap[p]?).map Device.sessionless =
      ((t.insert id sessionId' now).heap[p]?).map Device.sessionless := by
    intro p
    rw [← List.getElem?_map, ← List.getElem?_map]
    refine congrArg (·[p]?) ?_
    rw [DeviceTable.insert, DeviceTable.insert, List.map_append, List.map_append]
    rfl
  have hidAt : (t.insert id sessionId now).idAt = (t.insert id sessionId' now).idAt := by
    funext p
    have hids := congrArg (Option.map Device.id) (hheap p)
    rwa [Option.map_map, Option.map_map] at hids
  have hlookup : (t.insert id sessionId now).lookup id' = (t.insert id sessionId' now).lookup id' := by
    refine DeviceTable.lookup_congr ?_ hidAt id'
    rfl
  rw [DeviceTable.get, DeviceTable.get, hlookup, Option.map_bind, Option.map_bind]
  exact congrArg (Option.bind _) (funext hheap)

/-- What `dt_touch` does for a device that is there. -/
theorem touch_found {p : Nat} (hp : ctx.devices.lookup id = some p) (now : Int) :
    ∃ t, Does (dtTouch id now) (conn, ctx) () (conn, { ctx with
      devices := (ctx.devices.atomic p (.storeSeen now)).atomic p (.storeState .online) }) t := by
  obtain ⟨t, hcall⟩ := getOrCreate_found conn hp 0
  exact ⟨_, hcall.bind (.perform rfl (.op rfl (.ret _ _)))⟩

theorem touch_created (hnew : ctx.devices.lookup id = none)
    (hok : (draw true ctx.choices.callocs).1 = true) (now : Int) :
    ∃ t, Does (dtTouch id now) (conn, ctx) ()
      (conn, { ctx.spent with devices := ctx.devices.insert id 0 now }) t := by
  obtain ⟨t, hcall⟩ := getOrCreate_created conn hnew hok 0
  rw [← touch_insert _ id 0 (draw 0 ctx.choices.times).1 now]
  exact ⟨_, hcall.bind (.perform rfl (.op rfl (.ret _ _)))⟩

theorem touch_refused (hnew : ctx.devices.lookup id = none)
    (hok : (draw true ctx.choices.callocs).1 = false) (now : Int) :
    ∃ t, Does (dtTouch id now) (conn, ctx) () (conn, ctx.spent) t := by
  obtain ⟨t, hcall⟩ := getOrCreate_refused conn hnew hok 0
  exact ⟨_, hcall.bind (.ret _ _)⟩

/-- Both calls in a table without the device, heartbeat first: if the first call finds memory it creates the
device without a session, and the HELLO keeps that. -/
theorem touchThenHello_table (hnew : ctx.devices.lookup id = none) (sessionId : UInt32) (now : Int) :
    tableAfter (touchThenHello id sessionId now) conn ctx =
      if (draw true ctx.choices.callocs).1 then ctx.devices.insert id 0 now
      else if (draw true ctx.spent.choices.callocs).1 then
        ctx.devices.insert id sessionId (draw 0 ctx.spent.choices.times).1
      else ctx.devices := by
  have htable : ∀ {w' t}, Does (touchThenHello id sessionId now) (conn, ctx) () w' t →
      tableAfter (touchThenHello id sessionId now) conn ctx = w'.2.devices :=
    fun hdoes => congrArg (fun out => out.world.2.devices) hdoes
  split_ifs with hfirst hsecond
  · obtain ⟨_, htouch⟩ := touch_created conn hnew hfirst now
    obtain ⟨_, hhello⟩ := getOrCreate_found conn
      (show ({ ctx.spent with devices := ctx.devices.insert id 0 now } : ServerCtx).devices.lookup id = some _ from
        DeviceTable.insert_lookup id 0 now) sessionId
    exact htable (htouch.bind (hhello.bind (.ret _ _)))
  · obtain ⟨_, htouch⟩ := touch_refused conn hnew (Bool.eq_false_of_not_eq_true hfirst) now
    obtain ⟨_, hhello⟩ := getOrCreate_created conn
      (show ctx.spent.devices.lookup id = none from hnew) hsecond sessionId
    exact htable (htouch.bind (hhello.bind (.ret _ _)))
  · obtain ⟨_, htouch⟩ := touch_refused conn hnew (Bool.eq_false_of_not_eq_true hfirst) now
    obtain ⟨_, hhello⟩ := getOrCreate_refused conn (show ctx.spent.devices.lookup id = none from hnew)
      (Bool.eq_false_of_not_eq_true hsecond) sessionId
    exact htable (htouch.bind (hhello.bind (.ret _ _)))

/-- HELLO first: the device gets its session, and the heartbeat renews the time. -/
theorem helloThenTouch_table (hnew : ctx.devices.lookup id = none) (sessionId : UInt32) (now : Int) :
    tableAfter (helloThenTouch id sessionId now) conn ctx =
      if (draw true ctx.choices.callocs).1 then ctx.devices.insert id sessionId now
      else if (draw true ctx.spent.choices.callocs).1 then ctx.devices.insert id 0 now
      else ctx.devices := by
  have htable : ∀ {w' t}, Does (helloThenTouch id sessionId now) (conn, ctx) () w' t →
      tableAfter (helloThenTouch id sessionId now) conn ctx = w'.2.devices :=
    fun hdoes => congrArg (fun out => out.world.2.devices) hdoes
  split_ifs with hfirst hsecond
  · obtain ⟨_, hhello⟩ := getOrCreate_created conn hnew hfirst sessionId
    obtain ⟨_, htouch⟩ := touch_found conn
      (show ({ ctx.spent with devices := ctx.devices.insert id sessionId (draw 0 ctx.choices.times).1 } :
          ServerCtx).devices.lookup id = some _ from DeviceTable.insert_lookup id sessionId _) now
    exact (htable (hhello.bind htouch)).trans (touch_insert _ id sessionId _ now)
  · obtain ⟨_, hhello⟩ := getOrCreate_refused conn hnew (Bool.eq_false_of_not_eq_true hfirst) sessionId
    obtain ⟨_, htouch⟩ := touch_created conn (show ctx.spent.devices.lookup id = none from hnew) hsecond now
    exact htable (hhello.bind htouch)
  · obtain ⟨_, hhello⟩ := getOrCreate_refused conn hnew (Bool.eq_false_of_not_eq_true hfirst) sessionId
    obtain ⟨_, htouch⟩ := touch_refused conn (show ctx.spent.devices.lookup id = none from hnew)
      (Bool.eq_false_of_not_eq_true hsecond) now
    exact htable (hhello.bind htouch)

end Orders

/-- The order of a first heartbeat and a first HELLO makes no difference: nothing is created, or the session
id is 0 and, if only the second call finds memory, it is made at the time `now`. -/
def OrderBlind (ctx : ServerCtx) (sessionId : UInt32) (now : Int) : Prop :=
  if (draw true ctx.choices.callocs).1 then sessionId = 0
  else if (draw true ctx.spent.choices.callocs).1 then sessionId = 0 ∧ (draw 0 ctx.spent.choices.times).1 = now
  else True

/-- **A heartbeat and a HELLO of a new device commute but for the session.** Whoever comes first creates the device,
a heartbeat with session 0, and `session_id` is set once. So the two orders give tables that agree, as maps from ids
to devices, in everything but the session of the new device, and in that exactly when the HELLO's session id is 0 as
well. (If the first allocation fails, the second call creates the device alone, and then its creation time matters
too.) -/
theorem heartbeat_hello_commute_iff (conn : Conn) (ctx : ServerCtx) (id sessionId : UInt32) (now : Int)
    (hnew : ctx.devices.lookup id = none) :
    ((∀ id', (tableAfter (touchThenHello id sessionId now) conn ctx).get id' =
        (tableAfter (helloThenTouch id sessionId now) conn ctx).get id') ↔
      OrderBlind ctx sessionId now) ∧
    ((draw true ctx.choices.callocs).1 = true → ∀ id',
      ((tableAfter (touchThenHello id sessionId now) conn ctx).get id').map Device.sessionless =
        ((tableAfter (helloThenTouch id sessionId now) conn ctx).get id').map Device.sessionless) := by
  rw [touchThenHello_table conn hnew, helloThenTouch_table conn hnew, OrderBlind]
  constructor
  · split_ifs with hfirst hsecond
    · rw [insert_get_iff]
      exact ⟨fun hsame => hsame.1.symm, fun hzero => ⟨hzero.symm, rfl⟩⟩
    · exact insert_get_iff _ _ _ _ _ _
    · exact iff_of_true (fun _ => rfl) trivial
  · intro hfirst id'
    rw [if_pos hfirst, if_pos hfirst]
    exact insert_sessionless ctx.devices id 0 sessionId now id'

/-- The first session of a server: with the heartbeat first, the device keeps session 0. -/
theorem heartbeat_first_keeps_session_zero :
    (tableAfter (touchThenHello 7 1 100) (scripted []) freshServer).get 7 ≠
      (tableAfter (helloThenTouch 7 1 100) (scripted []) freshServer).get 7 := by
  decide +kernel

theorem heartbeat_hello_commute_iff_zero :
    freshServer.devices.lookup 7 = none ∧
      (∀ id', (tableAfter (touchThenHello 7 0 100) (scripted []) freshServer).get id' =
        (tableAfter (helloThenTouch 7 0 100) (scripted []) freshServer).get id') ∧
      ∀ id', ((tableAfter (touchThenHello 7 1 100) (scripted []) freshServer).get id').map Device.sessionless =
        ((tableAfter (helloThenTouch 7 1 100) (scripted []) freshServer).get id').map Device.sessionless :=
  ⟨rfl, (heartbeat_hello_commute_iff (scripted []) freshServer 7 0 100 rfl).1.mpr rfl,
    (heartbeat_hello_commute_iff (scripted []) freshServer 7 1 100 rfl).2 rfl⟩

end PulseLink
