import PulseLink.BaseLayer
import PulseLink.Firmware

/-! The calls of `net_task` that are loops themselves: `wifi_ensure`, `read_exact` and `backoff_wait` poll, wait a
little and feed the task watchdog, which resets the chip when it has not been fed for ten seconds. Here they run
step by step, below the model of `Firmware`, where each of them is one operation. Between two feedings the calls
that block add up to at most 5 s, and twice what a `write` may take. -/

namespace PulseLink

def WDT_TIMEOUT_S : Nat := 10

/-! ### The lower level -/

/-- The operations of the lower level: those of `Firmware` that stay, and the ones its loops are made of. `tcpRead`
answers the bytes read, not more than wanted, and none for a result that is not positive. -/
inductive NetOp where
  | fw (o : FwOp)
  | wdtReset
  | wifiStatus
  | wifiBegin
  | tcpRead (want : Nat)
  deriving DecidableEq, Repr

abbrev NetOp.Ans : NetOp → Type
  | .fw o => o.Ans
  | .wifiStatus => Bool
  | .tcpRead want => { bs : List UInt8 // bs.length ≤ want }
  | _ => Unit

abbrev NetSig : Sig := ⟨NetOp, NetOp.Ans⟩

abbrev NetProc := Proc NetSig

abbrev net (o : NetOp) : NetProc o.Ans := Proc.perform (I := NetSig) o

/-- Where a call is in its loop. -/
inductive CallPc where
  | start
  /-- the loop of `wifi_ensure`, with the time it began -/
  | joining (start : UInt32)
  /-- the loop of `read_exact`, with the bytes it has -/
  | reading (got : List UInt8)
  /-- the loop of `backoff_wait` -/
  | waiting (waited : UInt32)
  deriving DecidableEq, Repr

/-- `wifi_ensure`, behind the feeding at the top of `net_task`. -/
def wifiEnsure : Loop NetSig CallPc Bool
  | .joining start => do
      let up ← net .wifiStatus
      if up then return .inr (← net .wifiStatus)
      else
        let now ← net (.fw .millis)
        if now - start < 15000 then
          net .wdtReset
          net (.fw (.vTaskDelay 250))
          return .inl (.joining start)
        else return .inr (← net .wifiStatus)
  | _ => do
      net .wdtReset
      let up ← net .wifiStatus
      if up then return .inr true
      else
        net .wifiBegin
        let start ← net (.fw .millis)
        return .inl (.joining start)

/-- The connection is closed and has nothing left to read. -/
def tcpGone : NetProc Bool := do
  let up ← net (.fw .connected)
  if up then return false
  else return (← net (.fw .available)) = 0

/-- `read_exact`. -/
def readExact (len : Nat) (deadlineMs : UInt32) : Loop NetSig CallPc (Option (List UInt8))
  | .reading got =>
      if got.length < len then do
        let now ← net (.fw .millis)
        if 0 ≤ (now - deadlineMs).toInt32 then return .inr none
        else
          let gone ← tcpGone
          if gone then return .inr none
          else
            let bs ← net (.tcpRead (len - got.length))
            if bs.1 ≠ [] then return .inl (.reading (got ++ bs.1))
            else
              net .wdtReset
              net (.fw (.vTaskDelay 5))
              return .inl (.reading got)
      else return .inr (some got)
  | _ => return .inl (.reading [])

/-- The waiting of `backoff_wait`. -/
def backoffWait (ms : UInt32) : Loop NetSig CallPc Unit
  | .waiting waited =>
      if waited < ms then do
        net .wdtReset
        net (.fw (.vTaskDelay 500))
        return .inl (.waiting (waited + 500))
      else return .inr ()
  | _ => return .inl (.waiting 0)

/-- `tcp.connect`, behind the feeding before it. -/
def tcpConnect : Loop NetSig CallPc Bool
  | _ => do
      net .wdtReset
      return .inr (← net (.fw .connect))

/-- The operations of `Firmware` on the lower level. -/
def fwLayer : Layer FwSig NetSig CallPc where
  loops
    | .wifiEnsure => true
    | .connect => true
    | .readExact _ _ => true
    | .backoffWait _ => true
    | _ => false
  keep := .fw
  answer _ ans := ans
  init _ := .start
  impl
    | .wifiEnsure => wifiEnsure
    | .connect => tcpConnect
    | .readExact len deadlineMs => readExact len deadlineMs
    | .backoffWait ms => backoffWait ms
    | o => fun _ => do return .inr (← net (.fw o))

/-- What the tasks act on: the state of `Firmware`, what the radio will show, the bytes that will arrive, and the
time in milliseconds since the start, which `millis` shows modulo `2 ^ 32`. Every operation may take some more
time. -/
structure NetWorld where
  firmware : Firmware
  statuses : List Bool
  arrivals : List (List UInt8)
  now : Nat
  lags : List Nat

/-- Time passes: what a call waits, and what it takes. -/
def NetWorld.pass (w : NetWorld) (wait : Nat) : NetWorld :=
  { w with now := w.now + wait + (draw 0 w.lags).1, lags := (draw 0 w.lags).2 }

/-- A read takes what it wants of what has arrived by then; the rest stays. -/
def takeArrived (want : Nat) : List (List UInt8) → { bs : List UInt8 // bs.length ≤ want } × List (List UInt8)
  | [] => (⟨[], Nat.zero_le want⟩, [])
  | bs :: rest => (⟨bs.take want, List.length_take_le want bs⟩, if bs.length ≤ want then rest else bs.drop want :: rest)

def netHandler : Handler NetSig (Unit × NetWorld)
  | .fw .millis, (_, w) => (UInt32.ofNat (w.pass 0).now, (), w.pass 0)
  | .fw (.vTaskDelay ms), (_, w) => ((), (), w.pass ms.toNat)
  | .fw o, (_, w) =>
      let r := fwHandler o ((), w.firmware)
      (r.1, (), { w.pass 0 with firmware := r.2.2 })
  | .wdtReset, (_, w) => ((), (), w.pass 0)
  | .wifiStatus, (_, w) =>
      let r := draw true w.statuses
      (r.1, (), { w.pass 0 with statuses := r.2 })
  | .wifiBegin, (_, w) => ((), (), w.pass 0)
  | .tcpRead want, (_, w) =>
      let r := takeArrived want w.arrivals
      (r.1, (), { w.pass 0 with arrivals := r.2 })

abbrev NetPool := Pool NetSig FwTask (LayerPc FwSig CallPc TaskPc Empty) Empty Unit NetWorld

/-- The firmware on the lower level after its tasks took steps in the given order. -/
def netRun (world : NetWorld) (schedule : List FwTask) : NetPool :=
  Pool.run (fwLayer.lower taskBody) netHandler
    (.start (fwLayer.lower taskBody) (fun i => .before (taskBody i.start)) (fun _ => ()) world) schedule

end PulseLink
