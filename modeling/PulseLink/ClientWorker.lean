import PulseLink.Server

/-! The connection worker of `server/client_handler.c`: one turn of `clientWorker` in state `running` is one
turn of its `while` loop. Log lines are left out. -/

namespace PulseLink

open Bytes

def WORKER_TICK_S : Nat := 2
def DEAD_PEER_S : Nat := 30
def MAX_STRIKES : Nat := 3
def ACK_EVERY : UInt32 := 8

/-- `worker_state_t`. -/
inductive WorkerState where
  | waitHello
  | active
  | closing
  deriving DecidableEq, Repr

/-- Why a worker left its loop. `crash` is the null dereference in `dt_record_sensor`. -/
inductive ExitReason where
  | shutdown
  | closing
  | idle
  | recvError
  | closed
  | midHeader
  | midPayload
  | strikes
  | noHello
  | helloAckFailed
  | crash
  deriving DecidableEq, Repr

/-- The array `payload[PL_MAX_PAYLOAD]`. -/
structure PayloadBuf where
  bytes : List UInt8
  size : bytes.length = 1100
  deriving DecidableEq, Repr

theorem PayloadBuf.length_filled (buf : PayloadBuf) (got : List UInt8) :
    ((storeAt buf.bytes 0 got).take 1100).length = 1100 := by
  have hsize := buf.size
  simp only [storeAt, List.length_take, List.length_append, List.length_drop]
  omega

/-- The buffer after reading `got` into it; what lies behind stays. -/
def PayloadBuf.fill (buf : PayloadBuf) (got : List UInt8) : PayloadBuf where
  bytes := (storeAt buf.bytes 0 got).take 1100
  size := buf.length_filled got

theorem PayloadBuf.take_fill (buf : PayloadBuf) {got : List UInt8} (hgot : got.length ≤ 1100) :
    (buf.fill got).bytes.take got.length = got := by
  rw [PayloadBuf.fill, List.take_take, Nat.min_eq_left hgot]
  exact take_storeAt_zero _ _

/-- The local variables of `client_worker`. -/
structure Locals where
  state : WorkerState
  sessionId : UInt32
  dev : Option Nat
  strikes : Nat
  idleTicks : Nat
  sensorCount : UInt32
  payload : PayloadBuf
  fa : FrameAsm
  deriving DecidableEq, Repr

/-- The locals before the loop; `payload` is not initialised. -/
def Locals.init (payload : PayloadBuf) : Locals where
  state := .waitHello
  sessionId := 0
  dev := none
  strikes := 0
  idleTicks := 0
  sensorCount := 0
  payload := payload
  fa := frameAsmInit

/-- What does not change while the server runs: the byte order of the host and `ctx->frame_dir`. -/
structure Config where
  host : Endian
  frameDir : Option (List UInt8)

/-- Either the loop goes on with new locals, or the worker leaves it. -/
abbrev Turn := Locals ⊕ ExitReason

/-! ### Replies -/

/-- `send_packet`, with its 76-byte buffer; `false` is -1. -/
def sendPacket (cfg : Config) (type : PktType) (deviceId : UInt32) (payload : List UInt8)
    (plen : UInt16) : ServerProc Bool :=
  match plBuild cfg.host (PL_HDR_SIZE + 64) type.code deviceId payload plen with
  | none => return false
  | some out => ask (.writeN out)

/-- `send_error`. -/
def sendError (cfg : Config) (deviceId : UInt32) (e : PlError) : ServerProc Bool :=
  sendPacket cfg .error deviceId (mem16 cfg.host (htons cfg.host e.code)) 2

/-- The packets a worker sends. -/
def helloAckPacket (deviceId sessionId : UInt32) : List UInt8 :=
  packetBytes PktType.helloAck.code deviceId (be32 sessionId)

def ackPacket (deviceId seq : UInt32) : List UInt8 :=
  packetBytes PktType.ack.code deviceId (be32 seq)

def errorPacket (deviceId : UInt32) (e : PlError) : List UInt8 :=
  packetBytes PktType.error.code deviceId (be16 e.code)

/-- A payload of at most 64 bytes fits the buffer, so a reply is one write. -/
theorem sendPacket_eq (cfg : Config) (type : PktType) (deviceId : UInt32) {payload : List UInt8}
    {plen : UInt16} (hlen : payload.length = plen.toNat) (hfit : plen.toNat ≤ 64) :
    sendPacket cfg type deviceId payload plen =
      ask (.writeN (packetBytes type.code deviceId payload)) := by
  rw [sendPacket, plBuild_eq cfg.host _ _ _ _ _ hlen (by show 12 + _ ≤ 12 + 64; omega)]

theorem sendError_eq (cfg : Config) (deviceId : UInt32) (e : PlError) :
    sendError cfg deviceId e = ask (.writeN (errorPacket deviceId e)) := by
  rw [sendError, mem16_htons]
  exact sendPacket_eq cfg .error deviceId (show (be16 e.code).length = (2 : UInt16).toNat from rfl) (by decide)

theorem sendHelloAck_eq (cfg : Config) (deviceId sessionId : UInt32) :
    sendPacket cfg .helloAck deviceId (mem32 cfg.host (htonl cfg.host sessionId)) 4 =
      ask (.writeN (helloAckPacket deviceId sessionId)) := by
  rw [mem32_htonl]
  exact sendPacket_eq cfg .helloAck deviceId (show (be32 sessionId).length = (4 : UInt16).toNat from rfl)
    (by decide)

theorem sendAck_eq (cfg : Config) (deviceId seq : UInt32) :
    sendPacket cfg .ack deviceId (mem32 cfg.host (htonl cfg.host seq)) 4 =
      ask (.writeN (ackPacket deviceId seq)) := by
  rw [mem32_htonl]
  exact sendPacket_eq cfg .ack deviceId (show (be32 seq).length = (4 : UInt16).toNat from rfl) (by decide)

/-- The wrapping 32-bit counter acknowledges the same packets as an unbounded one. -/
theorem ack_due_iff (i : Nat) : (UInt32.ofNat i + 1) % ACK_EVERY = 0 ↔ (i + 1) % 8 = 0 := by
  rw [← UInt32.toNat_inj, UInt32.toNat_mod, UInt32.toNat_add, UInt32.toNat_ofNat']
  show (i % 2 ^ 32 + 1) % 2 ^ 32 % 8 = 0 ↔ _
  omega

/-- The common part of every rejection: reply, count, strike. -/
def reject (cfg : Config) (l : Locals) (h : PlHeader) (e : PlError) : ServerProc Locals := do
  let _ ← sendError cfg h.deviceId e
  dtRecordBad l.dev
  return { l with strikes := l.strikes + 1 }

/-- A packet that fails a framing check: the third strike leaves the loop at once. -/
def strikeOut (cfg : Config) (l : Locals) (h : PlHeader) (e : PlError) : ServerProc Turn := do
  ask (.decided h (.rejected e))
  let l ← reject cfg l h e
  return if l.strikes ≥ MAX_STRIKES then .inr .strikes else .inl l

/-- A packet rejected after the framing checks: the third strike sets the state. -/
def strikeClose (cfg : Config) (l : Locals) (h : PlHeader) (e : PlError) : ServerProc Turn := do
  let l ← reject cfg l h e
  return .inl (if l.strikes ≥ MAX_STRIKES then { l with state := .closing } else l)

/-! ### Dispatch -/

/-- A valid packet in state WAIT_HELLO. -/
def handleHello (cfg : Config) (l : Locals) (h : PlHeader) : ServerProc Turn := do
  if h.type ≠ PktType.hello.code then
    let _ ← sendError cfg h.deviceId .noHello
    return .inr .noHello
  else
    let sessionId ← ask .nextSession
    let dev ← dtGetOrCreate h.deviceId sessionId
    let ok ← sendPacket cfg .helloAck h.deviceId (mem32 cfg.host (htonl cfg.host sessionId)) 4
    if ok then
      return .inl { l with sessionId := sessionId, dev := dev, state := .active, strikes := 0 }
    else return .inr .helloAckFailed

/-- The fields the worker takes out of its payload buffer for a SENSOR packet. -/
structure SensorFields where
  seq : UInt32
  temp : Int32
  hum : Int32
  deriving DecidableEq, Repr

/-- `memcpy` of the packed struct, then `ntohl` of three of its fields. -/
def readSensor (cfg : Config) (payload : List UInt8) : SensorFields where
  seq := htonl cfg.host (load32 cfg.host payload 0)
  temp := (htonl cfg.host (load32 cfg.host payload 8)).toInt32
  hum := (htonl cfg.host (load32 cfg.host payload 12)).toInt32

/-- Updates the device and passes the reading to the sink, whose result is not looked at. -/
def storeReading (h : PlHeader) (p : Nat) (s : SensorFields) : ServerProc Unit := do
  let now ← ask .time
  dtRecordSensor p s.seq s.temp s.hum now
  let ns ← ask .nowNs
  let _ ← ask (.writeRecord ⟨h.deviceId, s.seq, s.temp, s.hum, ns⟩)
  return ()

/-- `case PKT_SENSOR`. -/
def handleSensor (cfg : Config) (l : Locals) (h : PlHeader) : ServerProc Turn := do
  let s := readSensor cfg l.payload.bytes
  match l.dev with
  | none => return .inr .crash
  | some p =>
      storeReading h p s
      let sensorCount := l.sensorCount + 1
      if sensorCount % ACK_EVERY = 0 then
        let _ ← sendPacket cfg .ack h.deviceId (mem32 cfg.host (htonl cfg.host s.seq)) 4
        return .inl { l with sensorCount := sensorCount, strikes := 0 }
      else return .inl { l with sensorCount := sensorCount, strikes := 0 }

/-- The characters of a format string. -/
def ascii (s : String) : List UInt8 := s.toList.map fun ch => ch.val.toUInt8

/-- `%08X`. -/
def hex8 (v : UInt32) : List UInt8 :=
  (List.range 8).map fun i =>
    (ascii "0123456789ABCDEF").getD ((v.toNat / 16 ^ (7 - i)) % 16) 0

/-- `snprintf` of `"%s/dev%08X<suffix>"` into 512 bytes. -/
def framePath (dir : List UInt8) (deviceId : UInt32) (suffix : String) : List UInt8 :=
  (dir ++ (ascii "/dev" ++ (hex8 deviceId ++ ascii suffix))).take 511

/-- `bmp_write`. -/
def bmpWrite (img : Image) (path : List UInt8) : ServerProc Bool :=
  match bmpBytes img with
  | none => return false
  | some bytes => ask (.writeFile path bytes)

/-- What happens to a completed frame: with a frame directory, it and its edges are written out. -/
def saveFrame (cfg : Config) (h : PlHeader) (img : Image) : ServerProc Unit :=
  match cfg.frameDir with
  | none => return ()
  | some dir => do
      let callocOk ← ask .imageAlloc
      match imageAlloc callocOk img.w img.h with
      | none => return ()
      | some out =>
          -- the result of `sobel` is not looked at; on -1 the zeroed image stays
          let edges := (sobel img out).getD out
          let ok ← bmpWrite img (framePath dir h.deviceId "_in.bmp")
          if ok then
            let _ ← bmpWrite edges (framePath dir h.deviceId "_edges.bmp")
            return ()
          else return ()

/-- `case PKT_FRAME`. -/
def handleFrame (cfg : Config) (l : Locals) (h : PlHeader) : ServerProc Turn := do
  let alloc ← ask .frameAlloc
  let r := frameAsmFeed alloc l.fa (l.payload.bytes.take h.payloadLen.toNat)
  let l := { l with fa := r.2 }
  ask (.fed r.1)
  match r.1 with
  | .malformed => strikeClose cfg l h .tooBig
  | .more => return .inl { l with strikes := 0 }
  | .complete img =>
      saveFrame cfg h img
      return .inl { l with strikes := 0 }

/-- A packet that passed the framing checks. -/
def dispatch (cfg : Config) (l : Locals) (h : PlHeader) : ServerProc Turn :=
  if l.state = .waitHello then handleHello cfg l h
  else if h.type = PktType.sensor.code then handleSensor cfg l h
  else if h.type = PktType.frame.code then handleFrame cfg l h
  else if h.type = PktType.hello.code then return .inl l
  else strikeClose cfg l h .badType

/-! ### The loop -/

/-- The checks on a header alone: the first that fails, in the order of the code. -/
def checkHeader (h : PlHeader) : Option PlError :=
  if h.magic ≠ PL_MAGIC then some .badMagic
  else if h.version ≠ PL_VERSION then some .badVersion
  else if h.payloadLen > PL_MAX_PAYLOAD then some .tooBig
  else none

theorem checkHeader_eq_none {h : PlHeader} :
    checkHeader h = none ↔
      h.magic = PL_MAGIC ∧ h.version = PL_VERSION ∧ h.payloadLen.toNat ≤ PL_MAX_PAYLOAD.toNat := by
  rw [checkHeader, ← Nat.not_lt, ← UInt16.lt_iff_toNat_lt]
  split_ifs with hmagic hversion hbig
  · simp [hmagic]
  · simp [hversion]
  · simp [hbig]
  · simp [not_not.mp hmagic, not_not.mp hversion, hbig]

/-- The checksum test on the payload in the buffer, and what follows it. -/
def checkPayload (cfg : Config) (l : Locals) (h : PlHeader) : ServerProc Turn :=
  let payload := l.payload.bytes.take h.payloadLen.toNat
  if plChecksum payload ≠ h.checksum then strikeOut cfg l h .badChecksum
  else do
    ask (.decided h (.accepted payload))
    dispatch cfg l h

/-- Reads the payload of an acceptable header, if it has one. -/
def recvPayload (cfg : Config) (l : Locals) (h : PlHeader) : ServerProc Turn :=
  if h.payloadLen > 0 then do
    let r ← ask (.readN h.payloadLen.toNat)
    match r with
    | .count got =>
        if got.length = h.payloadLen.toNat then
          checkPayload cfg { l with payload := l.payload.fill got } h
        else return .inr .midPayload
    | _ => return .inr .midPayload
  else checkPayload cfg l h

/-- A packet whose 12 header bytes have been read. -/
def handleHeader (cfg : Config) (l : Locals) (h : PlHeader) : ServerProc Turn :=
  match checkHeader h with
  | some e => strikeOut cfg l h e
  | none => recvPayload cfg l h

/-- One turn of the loop. -/
def clientTurn (cfg : Config) (l : Locals) : ServerProc Turn := do
  let running ← ask .loadRunning
  if running = false then return .inr .shutdown
  else if l.state = .closing then return .inr .closing
  else
    let r ← ask (.readN PL_HDR_SIZE)
    match r with
    | .again _ =>
        if (l.idleTicks + 1) * WORKER_TICK_S ≥ DEAD_PEER_S then return .inr .idle
        else return .inl { l with idleTicks := l.idleTicks + 1 }
    | .failed _ => return .inr .recvError
    | .count got =>
        if got.length = 0 then return .inr .closed
        else if got.length ≠ PL_HDR_SIZE then return .inr .midHeader
        else handleHeader cfg { l with idleTicks := 0 } (plParseHeader cfg.host got)

/-- Where a worker is: about to start, at the top of its loop, or about to clean up. -/
inductive WorkerPc where
  | enter (payload : PayloadBuf)
  | running (l : Locals)
  | leave (why : ExitReason)

/-- What a turn of the loop leads to. A crash ends the thread on the spot. -/
def WorkerPc.next : Turn → WorkerPc ⊕ ExitReason
  | .inl l => .inl (.running l)
  | .inr .crash => .inr .crash
  | .inr why => .inl (.leave why)

/-- `client_worker`. -/
def clientWorker (cfg : Config) : Loop ServerSig WorkerPc ExitReason
  | .enter payload => do
      ask .activeAdd
      return .inl (.running (.init payload))
  | .running l => do
      let turn ← clientTurn cfg l
      return WorkerPc.next turn
  | .leave why => do
      ask .closeFd
      ask .semPost
      ask .activeSub
      ask .freeArg
      return .inr why

end PulseLink
