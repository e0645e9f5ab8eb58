import PulseLink.BaseRefine
import PulseLink.FirmwareLoops
import PulseLink.Uplink

/-! The two levels of the firmware. Whatever the tasks do when `wifi_ensure`, `read_exact` and `backoff_wait` are
loops of polls and waits, they do the same, with the same queue and counters, when each of these is one operation
with the right outcome in the scripts. So what is proved of `fwRun` is proved of the loops. -/

namespace PulseLink

/-! ### What the loops do -/

/-- The operations that the loops perform, but for `tcp.connect`. -/
def NetOp.polls : NetOp → Bool
  | .fw .millis => true
  | .fw (.vTaskDelay _) => true
  | .fw .connected => true
  | .fw .available => true
  | .fw _ => false
  | _ => true

/-- The operations that do something to the queue, the counters or the connection. -/
def FwOp.acts : FwOp → Bool
  | .connect => true
  | .tcpStop => true
  | o => !FwQuiet o

/-- What is seen in the order of the whole run. -/
def actOf (e : Event FwSig) : Option (Event FwSig) := if e.op.acts then some e else none

def netActOf : Event NetSig → Option (Event FwSig)
  | ⟨.fw o, ans⟩ => actOf ⟨o, ans⟩
  | _ => none

/-- The bytes of `read_exact` are never more than it was asked for. -/
def LoopState : FwOp → CallPc → Prop
  | .readExact len _, .reading got => got.length ≤ len
  | _, _ => True

def LoopResult : (o : FwOp) → o.Ans → Prop
  | .readExact len _, ans => ∀ bs, ans = some bs → bs.length = len
  | _, _ => True

def fwLoopSpec : LoopSpec FwSig NetSig CallPc (Event FwSig) where
  calls o j := j.polls = true ∨ (o = .connect ∧ j = .fw .connect)
  state := LoopState
  result := LoopResult
  seen := actOf
  seenBelow := netActOf

/-- The state of the upper level has some script in the place of what the lower level draws. -/
def ShowsFirmware (s : Firmware) (w : NetWorld) : Prop := ∃ choices, s = { w.firmware with choices := choices }

/-- A turn of the loop of `o` only polls. -/
abbrev PollsFor (o : FwOp) (p : NetProc (CallPc ⊕ o.Ans)) : Prop :=
  p.Within (fun j : NetOp => j.polls = true) (Sum.elim (LoopState o) (LoopResult o))

theorem polls_unseen {j : NetOp} (hj : j.polls = true) (ans : j.Ans) : netActOf ⟨j, ans⟩ = none := by
  cases j with
  | fw o =>
      cases o with
      | millis => rfl
      | vTaskDelay ms => rfl
      | connected => rfl
      | available => rfl
      | _ => cases hj
  | _ => rfl

theorem PollsFor.proceeds {o : FwOp} (ho : o.acts = false) {p : NetProc (CallPc ⊕ o.Ans)} (hp : PollsFor o p) :
    Layer.Proceeds fwLoopSpec o p := by
  have hcalls : ∀ j ans, fwLoopSpec.calls o j → netActOf ⟨j, ans⟩ = none := by
    rintro j ans (hj | ⟨rfl, -⟩)
    · exact polls_unseen hj ans
    · cases ho
  refine Layer.Proceeds.of_within (fun ans => ?_) hcalls (hp.mono (fun _ hj => Or.inl hj) fun _ hx => hx)
  show actOf ⟨o, ans⟩ = none
  rw [actOf, ho]
  rfl

/-- `tcp.connect` is seen by its call. -/
theorem tcpConnect_proceeds (k : CallPc) : Layer.Proceeds fwLoopSpec .connect (tcpConnect k) :=
  ⟨Or.inl rfl, Or.inl fun _ => ⟨rfl, Or.inr ⟨rfl, rfl⟩, Or.inr fun ans => ⟨ans, rfl, trivial, rfl⟩⟩⟩

theorem wifiEnsure_polls (k : CallPc) : PollsFor .wifiEnsure (wifiEnsure k) := by
  have hstart : PollsFor .wifiEnsure (wifiEnsure .start) := by
    refine ⟨rfl, fun _ => ⟨rfl, fun up => ?_⟩⟩
    cases up with
    | true => exact trivial
    | false => exact ⟨rfl, fun _ => ⟨rfl, fun _ => trivial⟩⟩
  cases k with
  | joining start =>
      refine ⟨rfl, fun up => ?_⟩
      cases up with
      | true => exact ⟨rfl, fun _ => trivial⟩
      | false =>
          refine .perform rfl fun now => ?_
          by_cases hmore : now - start < 15000
          · simp only [if_pos hmore]
            exact ⟨rfl, fun _ => ⟨rfl, fun _ => trivial⟩⟩
          · simp only [if_neg hmore]
            exact ⟨rfl, fun _ => trivial⟩
  | start => exact hstart
  | reading got => exact hstart
  | waiting waited => exact hstart

theorem readExact_polls (len : Nat) (deadlineMs : UInt32) (k : CallPc)
    (hk : LoopState (.readExact len deadlineMs) k) :
    PollsFor (.readExact len deadlineMs) (readExact len deadlineMs k) := by
  have hnone : LoopResult (.readExact len deadlineMs) none := fun bs hbs => by cases hbs
  have hstart : LoopState (.readExact len deadlineMs) (.reading []) := Nat.zero_le len
  cases k with
  | reading got =>
      rw [readExact]
      split_ifs with hmore
      · refine .perform rfl fun now => ?_
        by_cases hlate : 0 ≤ (now - deadlineMs).toInt32
        · simp only [if_pos hlate]
          exact hnone
        · simp only [if_neg hlate]
          have hgone : tcpGone.Within (fun j : NetOp => j.polls = true) fun _ => True := by
            refine ⟨rfl, fun up => ?_⟩
            cases up with
            | true => exact trivial
            | false => exact ⟨rfl, fun _ => trivial⟩
          refine hgone.bind fun gone _ => ?_
          cases gone with
          | true => exact hnone
          | false =>
              refine .perform rfl fun bs => ?_
              by_cases hbs : bs.1 ≠ []
              · simp only [if_pos hbs]
                have hmax := bs.2
                show (got ++ bs.1).length ≤ len
                rw [List.length_append]
                omega
              · simp only [if_neg hbs]
                exact ⟨rfl, fun _ => ⟨rfl, fun _ => hk⟩⟩
      · rintro bs hbs
        cases hbs
        exact Nat.le_antisymm hk (Nat.le_of_not_lt hmore)
  | start => exact hstart
  | joining start => exact hstart
  | waiting waited => exact hstart

theorem backoffWait_polls (ms : UInt32) (k : CallPc) : PollsFor (.backoffWait ms) (backoffWait ms k) := by
  cases k with
  | waiting waited =>
      rw [backoffWait]
      split_ifs with hmore
      · exact ⟨rfl, fun _ => ⟨rfl, fun _ => trivial⟩⟩
      · exact trivial
  | start => exact trivial
  | joining start => exact trivial
  | reading got => exact trivial

/-- A call of a loop draws from the scripts and changes nothing else. -/
theorem calls_quiet {o : FwOp} {j : NetOp} (hj : fwLoopSpec.calls o j) (w : NetWorld) :
    ∃ choices, (netHandler j ((), w)).2.2.firmware = { w.firmware with choices := choices } := by
  rcases hj with hpolls | ⟨-, rfl⟩
  · cases j with
    | fw o =>
      cases o with
      | millis => exact ⟨_, rfl⟩
      | vTaskDelay ms => exact ⟨_, rfl⟩
      | connected => exact ⟨_, rfl⟩
      | available => exact ⟨_, rfl⟩
      | _ => cases hpolls
    | _ => exact ⟨_, rfl⟩
  · exact ⟨_, rfl⟩

/-! ### Backwards through the operations -/

/-- Whatever an operation that stays did, it does with its outcome at the head of the script. -/
theorem keep_backward (o : FwOp) (w : NetWorld) (s' : Firmware) (hkeeps : fwLayer.loops o = false)
    (hs' : ShowsFirmware s' (netHandler (.fw o) ((), w)).2.2) :
    ∃ s, ShowsFirmware s w ∧ fwHandler o ((), s) = ((netHandler (.fw o) ((), w)).1, (), s') := by
  obtain ⟨c, rfl⟩ := hs'
  cases o with
  | readSensor =>
      exact ⟨_, ⟨{ c with sensors := (draw none w.firmware.choices.sensors).1 :: c.sensors }, rfl⟩, rfl⟩
  | millis => exact ⟨_, ⟨{ c with clocks := UInt32.ofNat (w.pass 0).now :: c.clocks }, rfl⟩, rfl⟩
  | connected =>
      exact ⟨_, ⟨{ c with connections := (draw true w.firmware.choices.connections).1 :: c.connections }, rfl⟩, rfl⟩
  | available =>
      exact ⟨_, ⟨{ c with availables := (draw 0 w.firmware.choices.availables).1 :: c.availables }, rfl⟩, rfl⟩
  | tcpWrite pkt =>
      refine ⟨_, ⟨{ c with writes := (netHandler (.fw (.tcpWrite pkt)) ((), w)).1 :: c.writes }, rfl⟩, ?_⟩
      have hmin : min (netHandler (.fw (.tcpWrite pkt)) ((), w)).1 pkt.length =
          (netHandler (.fw (.tcpWrite pkt)) ((), w)).1 := Nat.min_eq_left (Nat.min_le_right _ _)
      exact Prod.ext hmin rfl
  | nextSeq => exact ⟨_, ⟨c, rfl⟩, rfl⟩
  | xQueueSend r => exact ⟨_, ⟨c, rfl⟩, rfl⟩
  | countProduced => exact ⟨_, ⟨c, rfl⟩, rfl⟩
  | countDropped => exact ⟨_, ⟨c, rfl⟩, rfl⟩
  | vTaskDelay ms => exact ⟨_, ⟨c, rfl⟩, rfl⟩
  | tcpStop => exact ⟨_, ⟨c, rfl⟩, rfl⟩
  | xQueueReceive => exact ⟨_, ⟨c, rfl⟩, rfl⟩
  | countConsumed => exact ⟨_, ⟨c, rfl⟩, rfl⟩
  | wifiEnsure => cases hkeeps
  | connect => cases hkeeps
  | readExact len ms => cases hkeeps
  | backoffWait ms => cases hkeeps

/-- Whatever a loop came to, the operation does with that at the head of its script. -/
theorem loop_backward (o : FwOp) (ans : o.Ans) (w : NetWorld) (s' : Firmware) (hloops : fwLayer.loops o = true)
    (hresult : LoopResult o ans) (hs' : ShowsFirmware s' w) :
    ∃ s, ShowsFirmware s w ∧ fwHandler o ((), s) = (ans, (), s') := by
  obtain ⟨c, rfl⟩ := hs'
  cases o with
  | wifiEnsure => exact ⟨_, ⟨{ c with wifis := ans :: c.wifis }, rfl⟩, rfl⟩
  | connect => exact ⟨_, ⟨{ c with connects := ans :: c.connects }, rfl⟩, rfl⟩
  | backoffWait ms => exact ⟨_, ⟨c, rfl⟩, rfl⟩
  | readExact len ms =>
      refine ⟨_, ⟨{ c with reads := ans :: c.reads }, rfl⟩, ?_⟩
      have hfilter : Option.filter (fun bs : List UInt8 => bs.length = len) ans = ans := by
        cases ans with
        | none => rfl
        | some bs => exact Option.filter_some_pos (decide_eq_true (hresult bs rfl))
      exact Prod.ext hfilter rfl
  | _ => cases hloops

theorem fw_backward : fwLayer.Backward fwLoopSpec fwHandler netHandler ShowsFirmware where
  begins o hloops := by
    cases o with
    | readExact len ms => exact trivial
    | _ => exact trivial
  turn o k hloops hk := by
    cases o with
    | wifiEnsure => exact (wifiEnsure_polls k).proceeds rfl
    | connect => exact tcpConnect_proceeds k
    | readExact len ms => exact (readExact_polls len ms k hk).proceeds rfl
    | backoffWait ms => exact (backoffWait_polls ms k).proceeds rfl
    | _ => cases hloops
  quiet o j l w hloops hj := by
    refine ⟨rfl, ?_⟩
    rintro s ⟨c, rfl⟩
    obtain ⟨c', hfirmware⟩ := calls_quiet hj w
    exact ⟨c, by rw [hfirmware]⟩
  keep o l w s' hkeeps hs' := keep_backward o w s' hkeeps hs'
  loop o ans l w s' hloops hresult hs' := loop_backward o ans w s' hloops hresult hs'
  seenKeep o ans _ := rfl

/-- Every run with the loops has a run without them beside it. -/
theorem netRun_mirrors (given : FwChoices) (world : NetWorld) (schedule : List FwTask) :
    ∃ choices schedule',
      (fwRun choices schedule').shared =
        (netRun { world with firmware := .start given } schedule).shared.firmware ∧
      fwLayer.Mirrors fwLoopSpec taskBody (fwRun choices schedule')
        (netRun { world with firmware := .start given } schedule) := by
  have hend : ShowsFirmware (netRun { world with firmware := .start given } schedule).shared.firmware
      (netRun { world with firmware := .start given } schedule).shared := ⟨_, rfl⟩
  obtain ⟨s, schedule', ⟨choices, rfl⟩, hrun⟩ := Layer.lower_refines fw_backward FwTask.start (fun _ => ())
    { world with firmware := .start given } schedule hend
  exact ⟨choices, schedule', hrun⟩

/-- **The loops refine the operations.** Every run of the tasks with the loops of `wifi_ensure`, `read_exact` and
`backoff_wait`, under any clock and any arrivals, is a run where each of them is one operation: the state is the
same, each task performed the same operations with the answers the loops came to, but for a loop it is still in, and
what both did to the queue and the counters, what was written, and the opening and closing of the connection have
the same order. -/
theorem loops_refine (given : FwChoices) (world : NetWorld) (schedule : List FwTask) :
    ∃ choices schedule',
      (fwRun choices schedule').shared =
        (netRun { world with firmware := .start given } schedule).shared.firmware ∧
      (∀ i, fwLayer.ShowsSoFar (Pool.eventsOf (netRun { world with firmware := .start given } schedule).log i)
        (Pool.eventsOf (fwRun choices schedule').log i)) ∧
      Layer.seenOf actOf (fwRun choices schedule').log =
        Layer.seenOf netActOf (netRun { world with firmware := .start given } schedule).log := by
  obtain ⟨choices, schedule', hshared, hmirrors⟩ := netRun_mirrors given world schedule
  exact ⟨choices, schedule', hshared, fun i => (hmirrors.couples i).showsSoFar, hmirrors.seen⟩

end PulseLink
