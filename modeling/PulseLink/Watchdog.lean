import PulseLink.FirmwareLoops

/-! The task watchdog of `net_task`. Every wait inside the loops of the lower level has a feeding in front of it,
and the waits of the upper level are a `connect` of 4 s, a second for a sample, and two writes. -/

namespace PulseLink

/-- The longest a call may block, in milliseconds, when a `write` takes at most `w`. -/
def blocks (w : Nat) : NetOp → Nat
  | .fw (.vTaskDelay ms) => ms.toNat
  | .fw .connect => 4000
  | .fw .xQueueReceive => 1000
  | .fw (.tcpWrite _) => w
  | _ => 0

/-- The longest `net_task` may go without feeding the watchdog. -/
def feedLimit (w : Nat) : Nat := 5000 + 2 * w

/-- How long the task may have been blocked since it fed the watchdog. -/
def hunger (w : Nat) : Monitor NetSig Nat
  | n, e =>
      if e.op = .wdtReset then some 0
      else if n + blocks w e.op ≤ feedLimit w then some (n + blocks w e.op) else none

/-- The same for the operations of the upper level: a bound, after each of them. -/
def hungerAfter (w : Nat) (n : Nat) : FwOp → Nat
  | .wifiEnsure => 250
  | .connect => 4000
  | .readExact _ _ => max n 5
  | .backoffWait _ => max n 500
  | .xQueueReceive => n + 1000
  | .tcpWrite _ => n + w
  | .vTaskDelay ms => n + ms.toNat
  | _ => n

def fwHunger (w : Nat) : Monitor FwSig Nat
  | n, e => if hungerAfter w n e.op ≤ feedLimit w then some (hungerAfter w n e.op) else none

/-! ### The loops -/

section Loops

variable {w : Nat}

/-- An operation of the lower level that keeps within the limit. -/
theorem hunger_net {α : Type} {Q : Nat → α → Prop} {o : NetOp} {next : o.Ans → NetProc α} {n : Nat}
    (hne : o ≠ .wdtReset) (hlimit : n + blocks w o ≤ feedLimit w)
    (hnext : ∀ ans, (next ans).Follows (hunger w) Q (n + blocks w o)) :
    (net o >>= next).Follows (hunger w) Q n := by
  intro ans
  refine ⟨n + blocks w o, ?_, hnext ans⟩
  show (if o = .wdtReset then _ else _) = _
  rw [if_neg hne, if_pos hlimit]

/-- A feeding. -/
theorem hunger_reset {α : Type} {Q : Nat → α → Prop} {next : Unit → NetProc α} {n : Nat}
    (hnext : (next ()).Follows (hunger w) Q 0) : (net .wdtReset >>= next).Follows (hunger w) Q n :=
  fun _ => ⟨0, rfl, hnext⟩

/-- An operation that does not block. -/
theorem hunger_free {α : Type} {Q : Nat → α → Prop} {o : NetOp} {next : o.Ans → NetProc α} {n : Nat}
    (hne : o ≠ .wdtReset) (hfree : blocks w o = 0) (hlimit : n ≤ feedLimit w)
    (hnext : ∀ ans, (next ans).Follows (hunger w) Q n) : (net o >>= next).Follows (hunger w) Q n := by
  refine hunger_net hne ?_ ?_
  · rwa [hfree]
  · rw [hfree]
    exact hnext

/-- The loop of an operation, in step with the bound of the upper level. -/
abbrev LoopFed (w n : Nat) (o : FwOp) (K : CallPc → Nat → Prop) : Prop :=
  fwLayer.Keeps (fwHunger w) (hunger w) (fun n x => x ≤ n) n o K

theorem answered_hunger {n x : Nat} {o : FwOp} {ans : o.Ans} (hlimit : hungerAfter w n o ≤ feedLimit w)
    (hx : x ≤ hungerAfter w n o) : Layer.Answered (fwHunger w) (fun n x => x ≤ n) n o ans x :=
  ⟨hungerAfter w n o, if_pos hlimit, hx⟩

/-- The loop of `wifi_ensure` is left with at most its last wait. -/
def WifiFed : CallPc → Nat → Prop
  | .joining _, x => x ≤ 250
  | _, _ => True

theorem wifiEnsure_fed (n : Nat) : LoopFed w n .wifiEnsure WifiFed := by
  have hlimit : hungerAfter w n .wifiEnsure ≤ feedLimit w := by
    show 250 ≤ 5000 + 2 * w
    omega
  have hanswer : ∀ x ans, x ≤ 250 →
      Layer.Answered (fwHunger w) (fun n x => x ≤ n) n .wifiEnsure ans x :=
    fun x ans hx => answered_hunger hlimit hx
  have hstart : ∀ x, (wifiEnsure .start).Follows (hunger w)
      (Monitor.Turned WifiFed (Layer.Answered (fwHunger w) (fun n x => x ≤ n) n .wifiEnsure)) x := by
    intro x
    refine hunger_reset ?_
    refine hunger_free (by decide) rfl (Nat.zero_le _) fun up => ?_
    cases up with
    | true => exact hanswer 0 true (Nat.zero_le _)
    | false =>
        refine hunger_free (by decide) rfl (Nat.zero_le _) fun _ => ?_
        exact hunger_free (by decide) rfl (Nat.zero_le _) fun start => Nat.zero_le _
  intro k x hk
  cases k with
  | joining start =>
      have hx : x ≤ feedLimit w := Nat.le_trans hk hlimit
      refine hunger_free (by decide) rfl hx fun up => ?_
      cases up with
      | true => exact hunger_free (by decide) rfl hx fun ok => hanswer x ok hk
      | false =>
          refine hunger_free (by decide) rfl hx fun now => ?_
          by_cases hmore : now - start < 15000
          · simp only [if_pos hmore]
            refine hunger_reset ?_
            exact hunger_net (by decide) (by rw [Nat.zero_add]; exact hlimit) fun _ => Nat.le_refl 250
          · simp only [if_neg hmore]
            exact hunger_free (by decide) rfl hx fun ok => hanswer x ok hk
  | start => exact hstart x
  | reading got => exact hstart x
  | waiting waited => exact hstart x

theorem connect_fed (n : Nat) : LoopFed w n .connect fun _ _ => True := by
  have hlimit : hungerAfter w n .connect ≤ feedLimit w := by
    show 4000 ≤ 5000 + 2 * w
    omega
  intro k x _
  refine hunger_reset (hunger_net (by decide) ?_ fun ok => ?_)
  · rw [Nat.zero_add]
    exact hlimit
  · exact answered_hunger hlimit (Nat.le_of_eq (Nat.zero_add _))

/-- The loop of `read_exact`, from a bound of `n`. -/
def ReadFed (n : Nat) : CallPc → Nat → Prop
  | .reading _, x => x ≤ max n 5
  | _, x => x ≤ n

theorem readExact_fed {n : Nat} (len : Nat) (deadlineMs : UInt32) (hlimit : max n 5 ≤ feedLimit w) :
    LoopFed w n (.readExact len deadlineMs) (ReadFed n) := by
  have hanswer : ∀ x ans, x ≤ max n 5 →
      Layer.Answered (fwHunger w) (fun n x => x ≤ n) n (.readExact len deadlineMs) ans x :=
    fun x ans hx => answered_hunger hlimit hx
  intro k x hk
  cases k with
  | reading got =>
      have hx : x ≤ feedLimit w := Nat.le_trans hk hlimit
      show Proc.Follows _ _ _ (readExact len deadlineMs (.reading got))
      rw [readExact]
      split_ifs with hmore
      · refine hunger_free (by decide) rfl hx fun now => ?_
        by_cases hlate : 0 ≤ (now - deadlineMs).toInt32
        · simp only [if_pos hlate]
          exact hanswer x none hk
        · simp only [if_neg hlate]
          have hgone : tcpGone.Follows (hunger w) (fun x' _ => x' = x) x := by
            refine hunger_free (by decide) rfl hx fun up => ?_
            cases up with
            | true => rfl
            | false => exact hunger_free (by decide) rfl hx fun n => rfl
          refine hgone.bind ?_
          rintro x' gone rfl
          cases gone with
          | true => exact hanswer x' none hk
          | false =>
              refine hunger_free (fun h => by cases h) rfl hx fun bs => ?_
              by_cases hbs : bs.1 ≠ []
              · simp only [if_pos hbs]
                exact hk
              · simp only [if_neg hbs]
                refine hunger_reset ?_
                have hwait : 0 + blocks w (.fw (.vTaskDelay 5)) ≤ feedLimit w := by
                  show 0 + 5 ≤ 5000 + 2 * w
                  omega
                exact hunger_net (by decide) hwait fun _ => Nat.le_max_right n 5
      · exact hanswer x (some got) hk
  | start => exact Nat.le_trans hk (Nat.le_max_left n 5)
  | joining start => exact Nat.le_trans hk (Nat.le_max_left n 5)
  | waiting waited => exact Nat.le_trans hk (Nat.le_max_left n 5)

/-- The loop of `backoff_wait`, from a bound of `n`. -/
def WaitFed (n : Nat) : CallPc → Nat → Prop
  | .waiting _, x => x ≤ max n 500
  | _, x => x ≤ n

theorem backoffWait_fed {n : Nat} (ms : UInt32) (hlimit : max n 500 ≤ feedLimit w) :
    LoopFed w n (.backoffWait ms) (WaitFed n) := by
  intro k x hk
  cases k with
  | waiting waited =>
      show Proc.Follows _ _ _ (backoffWait ms (.waiting waited))
      rw [backoffWait]
      split_ifs with hmore
      · refine hunger_reset ?_
        have hwait : 0 + blocks w (.fw (.vTaskDelay 500)) ≤ feedLimit w := by
          show 0 + 500 ≤ 5000 + 2 * w
          omega
        exact hunger_net (by decide) hwait fun _ => Nat.le_max_right n 500
      · exact answered_hunger hlimit hk
  | start => exact Nat.le_trans hk (Nat.le_max_left n 500)
  | joining start => exact Nat.le_trans hk (Nat.le_max_left n 500)
  | reading got => exact Nat.le_trans hk (Nat.le_max_left n 500)

end Loops

/-! ### The task -/

section Task

variable {w : Nat}

/-- An operation of the upper level that keeps within the limit. -/
theorem hunger_fw {α : Type} {Q : Nat → α → Prop} {o : FwOp} {next : o.Ans → FwProc α} {n : Nat}
    (hlimit : hungerAfter w n o ≤ feedLimit w)
    (hnext : ∀ ans, (next ans).Follows (fwHunger w) Q (hungerAfter w n o)) :
    (fw o >>= next).Follows (fwHunger w) Q n :=
  fun ans => ⟨hungerAfter w n o, if_pos hlimit, hnext ans⟩

/-- A turn of the task starts within the limit. -/
def TaskFed (w : Nat) : TaskPc → Nat → Prop
  | .sensor, _ => False
  | .net _, n => n ≤ feedLimit w
  | .drain _, n => 5 ≤ n ∧ n ≤ feedLimit w

abbrev TaskEnds (w : Nat) (n : Nat) (pc : TaskPc) : Prop := TaskFed w pc n

theorem backoffAndRetry_fed (backoff : UInt32) {n : Nat} (hn : n ≤ feedLimit w) :
    (backoffAndRetry backoff).Follows (fwHunger w) (TaskEnds w) n := by
  have hmax : max n 500 ≤ feedLimit w := by
    unfold feedLimit at hn ⊢
    omega
  exact hunger_fw hmax fun _ => hmax

theorem readReply_fed {deadlineMs : FwProc UInt32} {n : Nat} (hn : 5 ≤ n) (hlimit : n ≤ feedLimit w)
    (hdeadline : deadlineMs.Follows (fwHunger w) (fun n' _ => n' = n) n) :
    (readReply deadlineMs).Follows (fwHunger w) (fun n' _ => n' = n) n := by
  have hmax : max n 5 = n := Nat.max_eq_left hn
  have hread : ∀ len ms, (fw (.readExact len ms)).Follows (fwHunger w) (fun n' _ => n' = n) n := by
    intro len ms ans
    exact ⟨n, (if_pos (hmax.trans_le hlimit)).trans (congrArg some hmax), rfl⟩
  refine hdeadline.bind ?_
  rintro n' ms rfl
  refine (hread PL_FW_HDR_SIZE ms).bind ?_
  rintro n' hdr rfl
  cases hdr.bind plParseHeaderFw with
  | none => exact rfl
  | some rh =>
      by_cases hlong : rh.payloadLen > 64
      · simp only [if_pos hlong]
        exact rfl
      · by_cases hzero : rh.payloadLen = 0
        · simp only [if_neg hlong, if_pos hzero]
          exact rfl
        · simp only [if_neg hlong, if_neg hzero]
          refine hdeadline.bind ?_
          rintro n' ms rfl
          refine (hread _ ms).bind ?_
          rintro n' pl rfl
          exact rfl

theorem doHandshake_fed : doHandshake.Follows (fwHunger w) (fun n _ => n ≤ 4000 + w) 4000 := by
  have hlimit : 4000 + w ≤ feedLimit w := by
    unfold feedLimit
    omega
  refine hunger_fw hlimit fun sent => ?_
  by_cases hshort : sent ≠ ((plBuildHello PL_HELLO_PACKET_SIZE DEVICE_ID FW_VERSION CAPABILITIES).getD []).length
  · simp only [if_pos hshort]
    exact Nat.le_refl _
  · simp only [if_neg hshort]
    refine hunger_fw hlimit fun start => ?_
    have hdeadline : (return start + 2000 : FwProc UInt32).Follows (fwHunger w) (fun n _ => n = 4000 + w)
        (4000 + w) := rfl
    refine (readReply_fed (show 5 ≤ 4000 + w by omega) hlimit hdeadline).bind ?_
    rintro n reply rfl
    cases reply with
    | none => exact Nat.le_refl _
    | some reply => exact Nat.le_refl _

theorem sendSample_fed (backoff : UInt32) {n : Nat} (hn : n ≤ 4000 + w) :
    (sendSample backoff).Follows (fwHunger w) (TaskEnds w) n := by
  have hreceive : hungerAfter w n .xQueueReceive ≤ feedLimit w := by
    show n + 1000 ≤ 5000 + 2 * w
    omega
  refine hunger_fw hreceive fun sample => ?_
  cases sample with
  | none => exact ⟨Nat.le_trans (by decide) (Nat.le_add_left 1000 n), hreceive⟩
  | some r =>
      have hwrite : hungerAfter w (n + 1000) (.tcpWrite (sensorPacket r)) ≤ feedLimit w := by
        show n + 1000 + w ≤ 5000 + 2 * w
        omega
      refine hunger_fw hwrite fun sent => ?_
      by_cases hshort : sent ≠ (sensorPacket r).length
      · simp only [if_pos hshort]
        exact hunger_fw hwrite fun _ => backoffAndRetry_fed backoff hwrite
      · simp only [if_neg hshort]
        refine hunger_fw hwrite fun _ => ⟨?_, hwrite⟩
        show 5 ≤ n + 1000 + w
        omega

theorem netTask_fed (backoff : UInt32) (n : Nat) : (netTask backoff).Follows (fwHunger w) (TaskEnds w) n := by
  have hwifi : hungerAfter w n .wifiEnsure ≤ feedLimit w := by
    show 250 ≤ 5000 + 2 * w
    omega
  refine hunger_fw hwifi fun wifi => ?_
  cases wifi with
  | false => exact backoffAndRetry_fed backoff hwifi
  | true =>
      refine hunger_fw hwifi fun up => ?_
      cases up with
      | true => exact sendSample_fed backoff (show 250 ≤ 4000 + w by omega)
      | false =>
          have hconnect : hungerAfter w 250 .connect ≤ feedLimit w := by
            show 4000 ≤ 5000 + 2 * w
            omega
          refine hunger_fw hconnect fun ok => ?_
          cases ok with
          | false => exact backoffAndRetry_fed backoff hconnect
          | true =>
              refine doHandshake_fed.bind ?_
              intro n' hello hn'
              have hlimit : n' ≤ feedLimit w := by
                unfold feedLimit
                omega
              cases hello with
              | false => exact hunger_fw hlimit fun _ => backoffAndRetry_fed backoff hlimit
              | true => exact sendSample_fed BACKOFF_MIN_MS hn'

theorem drainReplies_fed (backoff : UInt32) {n : Nat} (hn : 5 ≤ n) (hlimit : n ≤ feedLimit w) :
    (drainReplies backoff).Follows (fwHunger w) (TaskEnds w) n := by
  refine hunger_fw hlimit fun available => ?_
  by_cases hfew : available < PL_FW_HDR_SIZE
  · simp only [if_pos hfew]
    exact hlimit
  · simp only [if_neg hfew]
    have hdeadline : (do return (← fw .millis) + 200 : FwProc UInt32).Follows (fwHunger w) (fun n' _ => n' = n) n :=
      hunger_fw hlimit fun _ => rfl
    refine (readReply_fed hn hlimit hdeadline).bind ?_
    rintro n' reply rfl
    cases reply with
    | none => exact hlimit
    | some reply => exact ⟨hn, hlimit⟩

theorem taskBody_fed (pc : TaskPc) (n : Nat) (hpc : TaskFed w pc n) :
    (taskBody pc).Follows (fwHunger w) (Monitor.Turned (TaskFed w) fun _ _ => False) n := by
  cases pc with
  | sensor => exact absurd hpc id
  | net backoff => exact (netTask_fed backoff n).bind fun _ _ h => h
  | drain backoff => exact (drainReplies_fed backoff hpc.1 hpc.2).bind fun _ _ h => h

/-- The task on the lower level, in step with the bound of the upper level. -/
abbrev FedPc (w : Nat) : LayerPc FwSig CallPc TaskPc Empty → Nat → Prop :=
  fwLayer.InStep (fwHunger w) (hunger w) (fun n x => x ≤ n) (TaskFed w) fun _ _ => False

/-- An operation that stays what it is blocks as long as the bound says. -/
theorem keep_fed {o : FwOp} {n x : Nat} (hkeeps : fwLayer.loops o = false) (hx : x ≤ n)
    (hlimit : hungerAfter w n o ≤ feedLimit w) (ans : o.Ans) :
    ∃ x', hunger w x ⟨.fw o, ans⟩ = some x' ∧ Layer.Answered (fwHunger w) (fun n x => x ≤ n) n o ans x' := by
  have hblocks : n + blocks w (.fw o) = hungerAfter w n o := by
    cases o with
    | wifiEnsure => cases hkeeps
    | connect => cases hkeeps
    | readExact len ms => cases hkeeps
    | backoffWait ms => cases hkeeps
    | _ => rfl
  have hnow : x + blocks w (.fw o) ≤ hungerAfter w n o := hblocks ▸ Nat.add_le_add_right hx _
  refine ⟨x + blocks w (.fw o), ?_, answered_hunger hlimit hnow⟩
  rw [hunger, if_neg (fun h => by cases h), if_pos (hnow.trans hlimit)]

theorem loop_fed {o : FwOp} {n x : Nat} (hloops : fwLayer.loops o = true) (hx : x ≤ n)
    (hlimit : hungerAfter w n o ≤ feedLimit w) :
    ∃ K, LoopFed w n o K ∧ K (fwLayer.init o) x := by
  cases o with
  | wifiEnsure => exact ⟨WifiFed, wifiEnsure_fed n, trivial⟩
  | connect => exact ⟨_, connect_fed n, trivial⟩
  | readExact len ms => exact ⟨ReadFed n, readExact_fed len ms hlimit, hx⟩
  | backoffWait ms => exact ⟨WaitFed n, backoffWait_fed ms hlimit, hx⟩
  | _ => cases hloops

/-- What the upper monitor allows keeps within the limit, as every operation has an answer. -/
theorem limit_of_moves {o : FwOp} {n : Nat} (hmoves : ∀ ans, ∃ n', fwHunger w n ⟨o, ans⟩ = some n') :
    hungerAfter w n o ≤ feedLimit w := by
  have hans : Nonempty o.Ans := by cases o <;> exact ⟨default⟩
  obtain ⟨ans⟩ := hans
  obtain ⟨n', hn'⟩ := hmoves ans
  exact (Option.ite_none_right_eq_some.mp hn').1

theorem lowered_fed (pc : LayerPc FwSig CallPc TaskPc Empty) (x : Nat) (hpc : FedPc w pc x) :
    (fwLayer.lower taskBody pc).Follows (hunger w)
      (Monitor.Turned (FedPc w) fun _ x => ∃ n, False ∧ x ≤ n) x := by
  refine fwLayer.lower_follows taskBody taskBody_fed ?_ ?_ pc x hpc
  · intro o n x hkeeps hx hmoves ans
    exact keep_fed hkeeps hx (limit_of_moves hmoves) ans
  · intro o n x hloops hx hmoves
    exact loop_fed hloops hx (limit_of_moves hmoves)

end Task

/-! ### Every run -/

/-- The longest the calls may block, together. -/
def blocked (w : Nat) (t : List (Event NetSig)) : Nat := (t.map fun e => blocks w e.op).sum

theorem hunger_within {w n n' : Nat} {e : Event NetSig} (hmove : hunger w n e = some n') : n' ≤ feedLimit w := by
  rw [hunger] at hmove
  split_ifs at hmove with hreset hlimit
  · cases hmove
    exact Nat.zero_le _
  · cases hmove
    exact hlimit

/-- Without a feeding the hunger grows by what is blocked, and stays within the limit. -/
theorem blocked_le {w n n' : Nat} {t : List (Event NetSig)} (haccepts : (hunger w).Accepts n t n')
    (hn : n ≤ feedLimit w) (hfree : ∀ e ∈ t, e.op ≠ .wdtReset) : n + blocked w t ≤ feedLimit w := by
  induction haccepts with
  | nil n => exact hn
  | @cons n n₁ n' e t hmove _ ih =>
      rw [hunger, if_neg (hfree e List.mem_cons_self)] at hmove
      obtain ⟨hlimit, hn₁⟩ := Option.ite_none_right_eq_some.mp hmove
      cases hn₁
      have hrest := ih hlimit fun e' he' => hfree e' (List.mem_cons_of_mem _ he')
      rw [blocked, List.map_cons, List.sum_cons, ← Nat.add_assoc]
      exact hrest

/-- **The watchdog is fed in time.** In every run of the tasks, whatever Wi-Fi, the connection and the clock do, and
if a `write` blocks for at most `w` ms: the calls that `net_task` makes between two feedings of the watchdog block
for at most 5000 + 2 `w` ms together. So the watchdog does not bite for a blocked call while a `write` returns within
2.5 s. -/
theorem watchdog_fed (w : Nat) (world : NetWorld) (schedule : List FwTask) (t₁ t₂ t₃ : List (Event NetSig))
    (hevents : Pool.eventsOf (netRun world schedule).log .net = t₁ ++ t₂ ++ t₃)
    (hfree : ∀ e ∈ t₂, e.op ≠ .wdtReset) :
    blocked w t₂ ≤ 5000 + 2 * w ∧ (w < 2500 → blocked w t₂ < 1000 * WDT_TIMEOUT_S) := by
  have hstands := Pool.thread_stands (fwLayer.lower taskBody) netHandler
    (fun i => LayerPc.before (taskBody (FwTask.start i))) (fun _ => ()) world schedule .net
  have hstart : FedPc w (.before (taskBody (FwTask.start .net))) 0 :=
    ⟨0, taskBody_fed (.net BACKOFF_MIN_MS) 0 (Nat.zero_le _), Nat.le_refl 0⟩
  obtain ⟨n, haccepts, -⟩ := hstands.accepts lowered_fed hstart
  rw [netRun] at hevents
  rw [hevents] at haccepts
  obtain ⟨n₂, hfirst, -⟩ := haccepts.split
  obtain ⟨n₁, hbefore, hbetween⟩ := hfirst.split
  have hn₁ : n₁ ≤ feedLimit w :=
    hbefore.keeps (P := fun n _ => n ≤ feedLimit w) (fun n _ e n' _ hmove => hunger_within hmove) (Nat.zero_le _)
  have hbound : n₁ + blocked w t₂ ≤ 5000 + 2 * w := blocked_le hbetween hn₁ hfree
  refine ⟨by omega, fun hw => ?_⟩
  show blocked w t₂ < 1000 * 10
  omega

/-- A network that answers the connection, takes three bytes of the HELLO and then is gone. -/
def shortHello : NetWorld where
  firmware := .start ⟨[], [], [], [false], [true], [3], [], []⟩
  statuses := []
  arrivals := []
  now := 0
  lags := []

def shortHelloEvents : List (Event NetSig) := Pool.eventsOf (netRun shortHello (List.replicate 20 .net)).log .net

theorem watchdog_fed_short :
    ((shortHelloEvents.drop 4).take 3).map Event.op =
        [.fw .connect, .fw (.tcpWrite [80, 76, 1, 1, 0, 0, 16, 1, 0, 8, 255, 248, 0, 1, 0, 5, 0, 0, 0, 1]),
          .fw .tcpStop] ∧
      blocked 900 ((shortHelloEvents.drop 4).take 3) = 4900 ∧
      blocked 900 ((shortHelloEvents.drop 4).take 3) < 1000 * WDT_TIMEOUT_S := by
  have hsplit : shortHelloEvents =
      shortHelloEvents.take 4 ++ (shortHelloEvents.drop 4).take 3 ++ shortHelloEvents.drop 7 := by rfl
  have hfree : ∀ e ∈ (shortHelloEvents.drop 4).take 3, e.op ≠ .wdtReset := by decide +kernel
  exact ⟨rfl, by decide +kernel, (watchdog_fed 900 _ _ _ _ _ hsplit hfree).2 (by decide)⟩

end PulseLink
