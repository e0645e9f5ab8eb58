import PulseLink.BasePool
import PulseLink.Bmp
import PulseLink.DeviceTable
import PulseLink.Frame
import PulseLink.NetUtil

/-! What the server's threads can do to the world: the atomic operations, their answers, and the handler
that performs them on one connection and the shared server state. Outcomes the environment chooses, such
as the results of `calloc` or of the sink, are drawn from lists; a list used up means success. -/

namespace PulseLink

open Bytes

/-- `sensor_record_t`. -/
structure SensorRecord where
  deviceId : UInt32
  seq : UInt32
  temperature : Int32
  humidity : Int32
  serverTimestampNs : UInt64
  deriving DecidableEq, Repr

/-- What the framing checks made of a packet: its payload, or the first check that failed. -/
inductive Verdict where
  | accepted (payload : List UInt8)
  | rejected (e : PlError)
  deriving DecidableEq, Repr

/-- The atomic operations of the server threads. The last three have no effect: they record that the
framing checks of a packet are through, what `frame_asm_feed` returned, and that a `dt_get_or_create` call
has returned. -/
inductive ServerOp where
  | activeAdd
  | activeSub
  | closeFd
  | semPost
  | freeArg
  | loadRunning
  | readN (n : Nat)
  | writeN (bs : List UInt8)
  | nextSession
  | find (id : UInt32)
  | insert (id sessionId : UInt32)
  | device (p : Nat) (a : DevAtomic)
  | time
  | nowNs
  | writeRecord (rec : SensorRecord)
  | frameAlloc
  | imageAlloc
  | writeFile (path bytes : List UInt8)
  | decided (h : PlHeader) (v : Verdict)
  | fed (result : FeedResult)
  | returned (id : UInt32) (dev : Option Nat)
  deriving DecidableEq, Repr

/-- The type of the answer to each operation. -/
abbrev ServerOp.Ans : ServerOp → Type
  | .loadRunning => Bool
  | .readN _ => ReadResult
  | .writeN _ => Bool
  | .nextSession => UInt32
  | .find _ => Option Nat
  | .insert _ _ => Insertion
  | .time => Int
  | .nowNs => UInt64
  | .writeRecord _ => Bool
  | .frameAlloc => FrameAlloc
  | .imageAlloc => Bool
  | .writeFile _ _ => Bool
  | _ => Unit

abbrev ServerSig : Sig := ⟨ServerOp, ServerOp.Ans⟩

abbrev ServerProc := Proc ServerSig

/-- Performs one operation. -/
abbrev ask (o : ServerOp) : ServerProc o.Ans := Proc.perform (I := ServerSig) o

theorem path_ask_iff {α : Type} {o : ServerOp} {f : o.Ans → ServerProc α} {t : List (Event ServerSig)}
    {value : α} :
    (ask o >>= f).Path t value ↔ ∃ (ans : o.Ans) (t' : _), t = ⟨o, ans⟩ :: t' ∧ (f ans).Path t' value :=
  Proc.path_op_iff

theorem reach_ask_iff {α : Type} {o : ServerOp} {f : o.Ans → ServerProc α} {t : List (Event ServerSig)}
    {q : ServerProc α} :
    (ask o >>= f).Reach t q ↔
      (t = [] ∧ q = (ask o >>= f)) ∨ ∃ (ans : o.Ans) (t' : _), t = ⟨o, ans⟩ :: t' ∧ (f ans).Reach t' q :=
  Proc.reach_op_iff

theorem within_ask {α : Type} {P : ServerOp → Prop} {Q : α → Prop} {o : ServerOp}
    {f : o.Ans → ServerProc α} (ho : P o) (hf : ∀ ans, (f ans).Within P Q) : (ask o >>= f).Within P Q :=
  Proc.Within.perform ho hf

/-! ### State -/

/-- One accepted connection: what its socket will answer, what went out on it, and whether its
descriptor and its `worker_arg_t` are still there. -/
structure Conn where
  script : List Recv
  after : Afterwards
  sends : List Send
  sent : List UInt8
  fdOpen : Bool
  argLive : Bool
  deriving DecidableEq, Repr

/-- How writing a file can fail: at `fopen`, or after some of the bytes. -/
inductive FileFault where
  | noOpen
  | short (n : Nat)
  deriving DecidableEq, Repr

/-- The outcomes the environment will choose. -/
structure Choices where
  /-- how many more loads of `running` see it true; `none` for all of them -/
  stop : Option Nat
  times : List Int
  clock : List UInt64
  callocs : List Bool
  frameAllocs : List FrameAlloc
  imageAllocs : List Bool
  sinkResults : List Bool
  fileFaults : List (Option FileFault)

/-- The state the threads share: `server_ctx_t`, the session counter, the records the sink has stored and
the files written. -/
structure ServerCtx where
  activeWorkers : Int
  clientSlots : Nat
  nextSession : UInt32
  devices : DeviceTable
  stored : List SensorRecord
  files : List (List UInt8 × List UInt8)
  choices : Choices

/-- A frame allocation that succeeds with a zeroed buffer. -/
def FrameAlloc.ok : FrameAlloc := ⟨some fun _ => 0, true, true⟩

/-- How many loads of `running` are left, and what this one sees. -/
def loadStop : Option Nat → Bool × Option Nat
  | none => (true, none)
  | some 0 => (false, some 0)
  | some (n + 1) => (true, some n)

/-- The operations on one connection and the shared state. -/
def serverHandler : Handler ServerSig (Conn × ServerCtx)
  | .activeAdd, (conn, ctx) => ((), conn, { ctx with activeWorkers := ctx.activeWorkers + 1 })
  | .activeSub, (conn, ctx) => ((), conn, { ctx with activeWorkers := ctx.activeWorkers - 1 })
  | .closeFd, (conn, ctx) => ((), { conn with fdOpen := false }, ctx)
  | .semPost, (conn, ctx) => ((), conn, { ctx with clientSlots := ctx.clientSlots + 1 })
  | .freeArg, (conn, ctx) => ((), { conn with argLive := false }, ctx)
  | .loadRunning, (conn, ctx) =>
      let r := loadStop ctx.choices.stop
      (r.1, conn, { ctx with choices := { ctx.choices with stop := r.2 } })
  | .readN n, (conn, ctx) =>
      let r := readN conn.after n [] conn.script
      (r.1, { conn with script := r.2 }, ctx)
  | .writeN bs, (conn, ctx) =>
      let r := writeN bs.length 0 conn.sends
      (r.1, { conn with sends := r.2.2, sent := conn.sent ++ bs.take r.2.1 }, ctx)
  | .nextSession, (conn, ctx) =>
      (ctx.nextSession, conn, { ctx with nextSession := ctx.nextSession + 1 })
  | .find id, (conn, ctx) => (ctx.devices.lookup id, conn, ctx)
  | .insert id sessionId, (conn, ctx) =>
      -- one clock reading and one `calloc` outcome belong to the section, used or not
      let now := draw 0 ctx.choices.times
      let ok := draw true ctx.choices.callocs
      let r := dtInsertLocked ok.1 id sessionId now.1 ctx.devices
      (r.1, conn, { ctx with
        devices := r.2
        choices := { ctx.choices with times := now.2, callocs := ok.2 } })
  | .device p a, (conn, ctx) => ((), conn, { ctx with devices := ctx.devices.atomic p a })
  | .time, (conn, ctx) =>
      let r := draw 0 ctx.choices.times
      (r.1, conn, { ctx with choices := { ctx.choices with times := r.2 } })
  | .nowNs, (conn, ctx) =>
      let r := draw 0 ctx.choices.clock
      (r.1, conn, { ctx with choices := { ctx.choices with clock := r.2 } })
  | .writeRecord rec, (conn, ctx) =>
      let r := draw true ctx.choices.sinkResults
      (r.1, conn, { ctx with
        stored := if r.1 then ctx.stored ++ [rec] else ctx.stored
        choices := { ctx.choices with sinkResults := r.2 } })
  | .frameAlloc, (conn, ctx) =>
      let r := draw FrameAlloc.ok ctx.choices.frameAllocs
      (r.1, conn, { ctx with choices := { ctx.choices with frameAllocs := r.2 } })
  | .imageAlloc, (conn, ctx) =>
      let r := draw true ctx.choices.imageAllocs
      (r.1, conn, { ctx with choices := { ctx.choices with imageAllocs := r.2 } })
  | .writeFile path bytes, (conn, ctx) =>
      let r := draw none ctx.choices.fileFaults
      let choices := { ctx.choices with fileFaults := r.2 }
      match r.1 with
      | none => (true, conn, { ctx with files := ctx.files ++ [(path, bytes)], choices := choices })
      | some .noOpen => (false, conn, { ctx with choices := choices })
      | some (.short n) =>
          (false, conn, { ctx with files := ctx.files ++ [(path, bytes.take n)], choices := choices })
  | .decided _ _, w => ((), w)
  | .fed _, w => ((), w)
  | .returned _ _, w => ((), w)

/-- A server with an empty table in which nothing fails. -/
def freshServer : ServerCtx where
  activeWorkers := 0
  clientSlots := 4
  nextSession := 1
  devices := dtInit
  stored := []
  files := []
  choices := ⟨none, [], [], [], [], [], [], []⟩

/-- A connection on which the given outcomes arrive before the peer closes it. -/
def scripted (script : List Recv) : Conn := ⟨script, .eof, [], [], true, true⟩

/-! ### Calls on the device table -/

/-- `dt_get_or_create`. -/
def dtGetOrCreate (id sessionId : UInt32) : ServerProc (Option Nat) := do
  let hit ← ask (.find id)
  match hit with
  | some p =>
      ask (.returned id (some p))
      return some p
  | none =>
      let r ← ask (.insert id sessionId)
      ask (.returned id r.device)
      return r.device

/-- The operations of `dt_get_or_create`. -/
def LooksUp : ServerOp → Prop
  | .find _ => True
  | .insert _ _ => True
  | .returned _ _ => True
  | _ => False

theorem dtGetOrCreate_looksUp (id sessionId : UInt32) : (dtGetOrCreate id sessionId).Uses LooksUp := by
  refine within_ask trivial fun hit => ?_
  cases hit with
  | some p => exact within_ask trivial fun _ => trivial
  | none => exact within_ask trivial fun _ => within_ask trivial fun _ => trivial

/-- `dt_record_sensor`. -/
def dtRecordSensor (p : Nat) (seq : UInt32) (temp humid : Int32) (now : Int) : ServerProc Unit := do
  ask (.device p (.storeSeq seq))
  ask (.device p (.storeTemp temp))
  ask (.device p (.storeHumid humid))
  ask (.device p (.storeSeen now))
  ask (.device p (.storeState .online))
  ask (.device p .addOk)

/-- `dt_record_bad`. -/
def dtRecordBad : Option Nat → ServerProc Unit
  | some p => ask (.device p .addBad)
  | none => return ()

/-- `dt_touch`. -/
def dtTouch (id : UInt32) (now : Int) : ServerProc Unit := do
  let d ← dtGetOrCreate id 0
  match d with
  | some p =>
      ask (.device p (.storeSeen now))
      ask (.device p (.storeState .online))
  | none => return ()

end PulseLink
