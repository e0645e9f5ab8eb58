import PulseLink.BaseGate
import PulseLink.BaseQueue
import PulseLink.Telemetry

/-! The two tasks of `firmware/pulselink_fw.ino` that a sample passes through: `sensor_task` takes it and offers
it to a queue that refuses when full, `net_task` takes it from there and sends it over TCP. Each counts what it
did after it did it, and the tasks run on different cores, so every operation on what they share is a step of
its own. What the environment decides (the sensor, the clock, Wi-Fi, the connection) is drawn from scripts. The
console lines, the watchdog and what only the display reads are left out. -/

namespace PulseLink

def DEVICE_ID : UInt32 := 0x1001
def FW_VERSION : UInt32 := 0x00010005
def CAPABILITIES : UInt32 := 0x1
def SAMPLE_PERIOD_MS : UInt32 := 2000
def QUEUE_LEN : Nat := 16
def BACKOFF_MIN_MS : UInt32 := 500
def BACKOFF_MAX_MS : UInt32 := 16000
def PL_FW_HDR_SIZE : Nat := 12
def PL_HELLO_PACKET_SIZE : Nat := 20
def PL_SENSOR_PACKET_SIZE : Nat := 28

/-! ### Operations -/

inductive FwOp where
  /-- `read_sensor`, rounded to hundredths; no answer when the sensor failed -/
  | readSensor
  /-- `++seq` -/
  | nextSeq
  | millis
  | xQueueSend (r : Reading)
  | countProduced
  | countDropped
  | vTaskDelay (ms : UInt32)
  | wifiEnsure
  | connected
  | connect
  | tcpWrite (pkt : List UInt8)
  /-- `read_exact`: `len` bytes, or none of use -/
  | readExact (len : Nat) (deadlineMs : UInt32)
  | tcpStop
  /-- the waiting of `backoff_wait` -/
  | backoffWait (ms : UInt32)
  | xQueueReceive
  | countConsumed
  | available
  deriving DecidableEq, Repr

abbrev FwOp.Ans : FwOp → Type
  | .readSensor => Option (Int32 × Int32)
  | .nextSeq => UInt32
  | .millis => UInt32
  | .xQueueSend _ => Bool
  | .wifiEnsure => Bool
  | .connected => Bool
  | .connect => Bool
  | .tcpWrite _ => Nat
  | .readExact _ _ => Option (List UInt8)
  | .xQueueReceive => Option Reading
  | .available => Nat
  | _ => Unit

abbrev FwSig : Sig := ⟨FwOp, FwOp.Ans⟩

abbrev FwProc := Proc FwSig

abbrev fw (o : FwOp) : FwProc o.Ans := Proc.perform (I := FwSig) o

/-- The outcomes the environment will choose. -/
structure FwChoices where
  sensors : List (Option (Int32 × Int32))
  clocks : List UInt32
  wifis : List Bool
  connections : List Bool
  connects : List Bool
  writes : List Nat
  reads : List (Option (List UInt8))
  availables : List Nat

/-- The globals of the sketch, with the `seq` of `sensor_task`. -/
structure Firmware where
  seq : UInt32
  queue : Fifo QUEUE_LEN Reading
  produced : UInt32
  consumed : UInt32
  dropped : UInt32
  choices : FwChoices

/-- A write sends no more than it was given; with no script left it sends all. `xQueueReceive` gives up only on an
empty queue. -/
def fwHandler : Handler FwSig (Unit × Firmware)
  | .readSensor, (_, s) =>
      let r := draw none s.choices.sensors
      (r.1, (), { s with choices := { s.choices with sensors := r.2 } })
  | .nextSeq, (_, s) => (s.seq + 1, (), { s with seq := s.seq + 1 })
  | .millis, (_, s) =>
      let r := draw 0 s.choices.clocks
      (r.1, (), { s with choices := { s.choices with clocks := r.2 } })
  | .xQueueSend r, (_, s) => ((s.queue.send r).1, (), { s with queue := (s.queue.send r).2 })
  | .countProduced, (_, s) => ((), (), { s with produced := s.produced + 1 })
  | .countDropped, (_, s) => ((), (), { s with dropped := s.dropped + 1 })
  | .vTaskDelay _, (_, s) => ((), (), s)
  | .wifiEnsure, (_, s) =>
      let r := draw true s.choices.wifis
      (r.1, (), { s with choices := { s.choices with wifis := r.2 } })
  | .connected, (_, s) =>
      let r := draw true s.choices.connections
      (r.1, (), { s with choices := { s.choices with connections := r.2 } })
  | .connect, (_, s) =>
      let r := draw true s.choices.connects
      (r.1, (), { s with choices := { s.choices with connects := r.2 } })
  | .tcpWrite pkt, (_, s) =>
      let r := draw pkt.length s.choices.writes
      (min r.1 pkt.length, (), { s with choices := { s.choices with writes := r.2 } })
  | .readExact len _, (_, s) =>
      let r := draw none s.choices.reads
      (r.1.filter fun bs => bs.length = len, (), { s with choices := { s.choices with reads := r.2 } })
  | .tcpStop, (_, s) => ((), (), s)
  | .backoffWait _, (_, s) => ((), (), s)
  | .xQueueReceive, (_, s) => (s.queue.receive.1, (), { s with queue := s.queue.receive.2 })
  | .countConsumed, (_, s) => ((), (), { s with consumed := s.consumed + 1 })
  | .available, (_, s) =>
      let r := draw 0 s.choices.availables
      (r.1, (), { s with choices := { s.choices with availables := r.2 } })

/-! ### The tasks -/

/-- A turn of `sensor_task`. A failed sensor reads as 25 degrees and 50 per cent. -/
def sensorTask : FwProc Unit := do
  let d ← fw .readSensor
  let seq ← fw .nextSeq
  let timestampMs ← fw .millis
  let r : Reading := ⟨seq, timestampMs, (d.getD (2500, 5000)).1, (d.getD (2500, 5000)).2⟩
  let sent ← fw (.xQueueSend r)
  if sent then fw .countProduced else fw .countDropped
  fw (.vTaskDelay SAMPLE_PERIOD_MS)

/-- What both readers of replies do with a header: the header and its payload, unless something is amiss. -/
def readReply (deadlineMs : FwProc UInt32) : FwProc (Option (PlRxHeader × List UInt8)) := do
  let hdr ← fw (.readExact PL_FW_HDR_SIZE (← deadlineMs))
  match hdr.bind plParseHeaderFw with
  | none => return none
  | some rh =>
      if rh.payloadLen > 64 then return none
      else if rh.payloadLen = 0 then return some (rh, [])
      else
        let pl ← fw (.readExact rh.payloadLen.toNat (← deadlineMs))
        return pl.map fun pl => (rh, pl)

/-- `do_handshake`. -/
def doHandshake : FwProc Bool := do
  let pkt := (plBuildHello PL_HELLO_PACKET_SIZE DEVICE_ID FW_VERSION CAPABILITIES).getD []
  let n ← fw (.tcpWrite pkt)
  if n ≠ pkt.length then return false
  else
    let start ← fw .millis
    let reply ← readReply (return start + 2000)
    match reply with
    | none => return false
    | some (rh, pl) => return plChecksum pl = rh.checksum ∧ rh.type = PktType.helloAck.code

/-- Where a task is at the start of a turn of one of its loops. -/
inductive TaskPc where
  | sensor
  | net (backoff : UInt32)
  /-- in the loop of `drain_replies` -/
  | drain (backoff : UInt32)
  deriving DecidableEq, Repr

/-- `backoff_wait`, and back to the top of the loop. -/
def backoffAndRetry (backoff : UInt32) : FwProc TaskPc := do
  fw (.backoffWait backoff)
  return .net (if backoff * 2 > BACKOFF_MAX_MS then BACKOFF_MAX_MS else backoff * 2)

/-- The packet of a sample. -/
def sensorPacket (r : Reading) : List UInt8 := (plBuildSensor PL_SENSOR_PACKET_SIZE DEVICE_ID r).getD []

/-- The part of `net_task` that has a connection. -/
def sendSample (backoff : UInt32) : FwProc TaskPc := do
  let sample ← fw .xQueueReceive
  match sample with
  | none => return .drain backoff
  | some r =>
      let n ← fw (.tcpWrite (sensorPacket r))
      if n ≠ (sensorPacket r).length then
        fw .tcpStop
        backoffAndRetry backoff
      else
        fw .countConsumed
        return .drain backoff

/-- A turn of `net_task` up to `drain_replies`. -/
def netTask (backoff : UInt32) : FwProc TaskPc := do
  let wifi ← fw .wifiEnsure
  if wifi = false then backoffAndRetry backoff
  else
    let up ← fw .connected
    if up then sendSample backoff
    else
      let ok ← fw .connect
      if ok = false then backoffAndRetry backoff
      else
        let hello ← doHandshake
        if hello = false then
          fw .tcpStop
          backoffAndRetry backoff
        else sendSample BACKOFF_MIN_MS

/-- A turn of the loop of `drain_replies`. A reply with a wrong checksum is passed over. -/
def drainReplies (backoff : UInt32) : FwProc TaskPc := do
  let n ← fw .available
  if n < PL_FW_HDR_SIZE then return .net backoff
  else
    let reply ← readReply (do return (← fw .millis) + 200)
    match reply with
    | none => return .net backoff
    | some _ => return .drain backoff

def taskBody : Loop FwSig TaskPc Empty
  | .sensor => do
      sensorTask
      return .inl .sensor
  | .net backoff => do return .inl (← netTask backoff)
  | .drain backoff => do return .inl (← drainReplies backoff)

/-! ### What the parts of `net_task` perform -/

section Uses

variable {P : FwOp → Prop} (hmillis : P .millis) (hread : ∀ len ms, P (.readExact len ms))

include hread

theorem readReply_uses {deadlineMs : FwProc UInt32} (hdeadline : deadlineMs.Uses P) :
    (readReply deadlineMs).Uses P := by
  refine Proc.Uses.bind hdeadline fun deadline => Proc.Within.perform (hread _ _) fun hdr => ?_
  cases hdr.bind plParseHeaderFw with
  | none => trivial
  | some rh =>
      dsimp only
      split_ifs
      · trivial
      · trivial
      · exact Proc.Uses.bind hdeadline fun deadline => Proc.Within.perform (hread _ _) fun pl => trivial

include hmillis

theorem doHandshake_uses (hwrite : ∀ pkt, P (.tcpWrite pkt)) : doHandshake.Uses P := by
  refine Proc.Within.perform (hwrite _) fun n => ?_
  split_ifs
  · trivial
  · refine Proc.Within.perform hmillis fun start => Proc.Uses.bind (readReply_uses hread trivial) fun reply => ?_
    cases reply with
    | none => trivial
    | some reply => trivial

/-- A turn of `drain_replies` leads to another one or back to the top. -/
theorem drainReplies_within (havailable : P .available) (backoff : UInt32) :
    (drainReplies backoff).Within P fun pc => pc = .net backoff ∨ pc = .drain backoff := by
  refine Proc.Within.perform havailable fun n => ?_
  split_ifs
  · exact .inl rfl
  · have hdeadline : (do return (← fw .millis) + 200 : FwProc UInt32).Uses P := ⟨hmillis, fun _ => trivial⟩
    refine Proc.Within.bind (readReply_uses hread hdeadline) fun reply _ => ?_
    cases reply with
    | none => exact .inl rfl
    | some reply => exact .inr rfl

end Uses

theorem TaskPc.ne_sensor {backoff : UInt32} {pc : TaskPc} (hpc : pc = .net backoff ∨ pc = .drain backoff) :
    pc ≠ .sensor := by
  rcases hpc with rfl | rfl
  · exact fun h => by cases h
  · exact fun h => by cases h

/-! ### Both of them -/

inductive FwTask where
  | sensor
  | net
  deriving DecidableEq, Repr

def FwTask.start : FwTask → TaskPc
  | .sensor => .sensor
  | .net => .net BACKOFF_MIN_MS

abbrev FwPool := Pool FwSig FwTask TaskPc Empty Unit Firmware

def Firmware.start (choices : FwChoices) : Firmware := ⟨0, .empty, 0, 0, 0, choices⟩

/-- The firmware after its tasks took steps in the given order. -/
def fwRun (choices : FwChoices) (schedule : List FwTask) : FwPool :=
  Pool.run taskBody fwHandler (.start taskBody FwTask.start (fun _ => ()) (.start choices)) schedule

end PulseLink
