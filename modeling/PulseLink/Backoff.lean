import PulseLink.BaseMonitor
import PulseLink.Firmware

/-! How long `net_task` waits before it tries again: half a second after a served connection, then twice as long
each time, up to 16 seconds. The variable `backoff` is local to the task and passed on from turn to turn, so the
rule is one about whole runs: it is told from the waits performed and what stands between them. -/

namespace PulseLink

/-- The wait after `k` failures in a row. -/
def retryWait (k : Nat) : UInt32 := .ofNat (min (500 * 2 ^ k) 16000)

theorem toNat_retryWait (k : Nat) : (retryWait k).toNat = min (500 * 2 ^ k) 16000 := by
  rw [retryWait, UInt32.toNat_ofNat']
  omega

theorem retryWait_bounds (k : Nat) : BACKOFF_MIN_MS ≤ retryWait k ∧ retryWait k ≤ BACKOFF_MAX_MS := by
  have hpow := Nat.one_le_two_pow (n := k)
  constructor
  · rw [UInt32.le_iff_toNat_le, toNat_retryWait]
    show 500 ≤ _
    omega
  · rw [UInt32.le_iff_toNat_le, toNat_retryWait]
    exact Nat.min_le_right _ _

/-- What `backoff_wait` leaves in its argument. -/
theorem retryWait_succ (k : Nat) :
    retryWait (k + 1) = if retryWait k * 2 > BACKOFF_MAX_MS then BACKOFF_MAX_MS else retryWait k * 2 := by
  have hdouble : (retryWait k * 2).toNat = 2 * min (500 * 2 ^ k) 16000 := by
    rw [UInt32.toNat_mul, toNat_retryWait]
    show min (500 * 2 ^ k) 16000 * 2 % 2 ^ 32 = _
    omega
  have hmore : retryWait k * 2 > BACKOFF_MAX_MS ↔ 16000 < 2 * min (500 * 2 ^ k) 16000 := by
    rw [gt_iff_lt, UInt32.lt_iff_toNat_lt, hdouble]
    rfl
  apply UInt32.toNat_inj.mp
  rw [toNat_retryWait, Nat.pow_succ]
  split_ifs with hmax
  · rw [hmore] at hmax
    show _ = 16000
    omega
  · rw [hmore] at hmax
    rw [hdouble]
    omega

/-! ### The rule as a monitor -/

/-- The failures since the last served connection, and whether the connection is new. A connection is served when
`net_task` goes on to the queue with it. -/
def retries : Monitor FwSig (Nat × Bool)
  | (k, _), ⟨.connect, ok⟩ => some (k, ok)
  | (k, fresh), ⟨.xQueueReceive, _⟩ => some (if fresh then 0 else k, false)
  | (k, _), ⟨.backoffWait ms, _⟩ => if ms = retryWait k then some (k + 1, false) else none
  | s, _ => some s

/-- The operations the rule does not speak of. -/
def RetryQuiet : FwOp → Bool
  | .connect | .xQueueReceive | .backoffWait _ => false
  | _ => true

theorem retries_quiet {o : FwOp} (ho : RetryQuiet o = true) (s : Nat × Bool) (ans : o.Ans) :
    retries s ⟨o, ans⟩ = some s := by
  cases o with
  | connect => cases ho
  | xQueueReceive => cases ho
  | backoffWait ms => cases ho
  | _ => rfl

/-- Between turns `backoff` is the wait the rule asks for, and the connection is not new. -/
def RetryPc : TaskPc → Nat × Bool → Prop
  | .sensor, _ => False
  | .net backoff, s => backoff = retryWait s.1 ∧ s.2 = false
  | .drain backoff, s => backoff = retryWait s.1 ∧ s.2 = false

abbrev RetryTurned (s : Nat × Bool) (pc : TaskPc) : Prop := RetryPc pc s

theorem backoffAndRetry_doubles (k : Nat) (fresh : Bool) :
    (backoffAndRetry (retryWait k)).Follows retries RetryTurned (k, fresh) :=
  fun _ => ⟨(k + 1, false), if_pos rfl, (retryWait_succ k).symm, rfl⟩

/-- A quiet operation. -/
theorem retry_quiet {α : Type} {Q : Nat × Bool → α → Prop} {o : FwOp} {next : o.Ans → FwProc α} {s : Nat × Bool}
    (ho : RetryQuiet o = true) (hnext : ∀ ans, (next ans).Follows retries Q s) :
    (fw o >>= next).Follows retries Q s :=
  fun ans => ⟨s, retries_quiet ho s ans, hnext ans⟩

theorem sendSample_retries {k : Nat} {fresh : Bool} {backoff : UInt32}
    (hbackoff : backoff = retryWait (if fresh then 0 else k)) :
    (sendSample backoff).Follows retries RetryTurned (k, fresh) := by
  intro sample
  refine ⟨(if fresh then 0 else k, false), rfl, ?_⟩
  cases sample with
  | none => exact ⟨hbackoff, rfl⟩
  | some r =>
      refine retry_quiet rfl fun sent => ?_
      by_cases hshort : sent ≠ (sensorPacket r).length
      · simp only [if_pos hshort]
        refine retry_quiet rfl fun _ => ?_
        rw [hbackoff]
        exact backoffAndRetry_doubles _ _
      · simp only [if_neg hshort]
        exact retry_quiet rfl fun _ => ⟨hbackoff, rfl⟩

theorem doHandshake_retryQuiet : doHandshake.Uses fun o => RetryQuiet o = true :=
  doHandshake_uses (P := fun o => RetryQuiet o = true) rfl (fun _ _ => rfl) fun _ => rfl

theorem drainReplies_retryQuiet (backoff : UInt32) :
    (drainReplies backoff).Within (fun o => RetryQuiet o = true) fun pc => pc = .net backoff ∨ pc = .drain backoff :=
  drainReplies_within (P := fun o => RetryQuiet o = true) rfl (fun _ _ => rfl) rfl backoff

theorem netTask_retries (k : Nat) : (netTask (retryWait k)).Follows retries RetryTurned (k, false) := by
  refine retry_quiet rfl fun wifi => ?_
  cases wifi with
  | false => exact backoffAndRetry_doubles k false
  | true =>
      refine retry_quiet rfl fun up => ?_
      cases up with
      | true => exact sendSample_retries rfl
      | false =>
          intro ok
          refine ⟨(k, ok), rfl, ?_⟩
          cases ok with
          | false => exact backoffAndRetry_doubles k false
          | true =>
              have hhello : doHandshake.Follows retries (fun s _ => s = (k, true) ∧ True) (k, true) :=
                doHandshake_retryQuiet.follows fun o ans ho => retries_quiet ho (k, true) ans
              refine hhello.bind ?_
              rintro s hello ⟨rfl, -⟩
              cases hello with
              | false => exact retry_quiet rfl fun _ => backoffAndRetry_doubles k true
              | true => exact sendSample_retries rfl

theorem taskBody_retries (pc : TaskPc) (s : Nat × Bool) (hpc : RetryPc pc s) :
    (taskBody pc).Follows retries (Monitor.Turned RetryPc fun _ _ => False) s := by
  obtain ⟨k, fresh⟩ := s
  cases pc with
  | sensor => exact absurd hpc id
  | net backoff =>
      obtain ⟨rfl, rfl⟩ := hpc
      exact (netTask_retries k).bind fun _ _ h => h
  | drain backoff =>
      have hdrain : (drainReplies backoff).Follows retries
          (fun s' pc => s' = (k, fresh) ∧ (pc = .net backoff ∨ pc = .drain backoff)) (k, fresh) :=
        (drainReplies_retryQuiet backoff).follows fun o ans ho => retries_quiet ho (k, fresh) ans
      refine hdrain.bind ?_
      rintro s pc ⟨rfl, rfl | rfl⟩
      · exact hpc
      · exact hpc

/-! ### Every run -/

def FwOp.waitsFor : FwOp → Option UInt32
  | .backoffWait ms => some ms
  | _ => none

/-- The waits among the events, in order. -/
def waitsOf (t : List (Event FwSig)) : List UInt32 := t.filterMap fun e => e.op.waitsFor

/-- The connection is new after these events: of the connects, the visits to the queue and the waits among them, the
last is a connect that succeeded. -/
def freshLink (t : List (Event FwSig)) : Bool :=
  t.foldl (fun fresh e =>
    match e with
    | ⟨.connect, ok⟩ => ok
    | ⟨.xQueueReceive, _⟩ => false
    | ⟨.backoffWait _, _⟩ => false
    | _ => fresh) false

/-- The last of the events is the first visit to the queue with a new connection. -/
def servesNew (t : List (Event FwSig)) : Bool :=
  t.getLast?.any (fun e => e.op = .xQueueReceive) && freshLink t.dropLast

theorem freshLink_concat (t : List (Event FwSig)) (e : Event FwSig) :
    freshLink (t ++ [e]) =
      match e with
      | ⟨.connect, ok⟩ => ok
      | ⟨.xQueueReceive, _⟩ => false
      | ⟨.backoffWait _, _⟩ => false
      | _ => freshLink t := by
  rw [freshLink, List.foldl_concat]
  rfl

theorem servesNew_concat (t : List (Event FwSig)) (e : Event FwSig) :
    servesNew (t ++ [e]) = (decide (e.op = .xQueueReceive) && freshLink t) := by
  rw [servesNew, List.getLast?_concat, List.dropLast_concat]
  rfl

theorem waitsOf_concat (t : List (Event FwSig)) (e : Event FwSig) :
    waitsOf (t ++ [e]) = waitsOf t ++ e.op.waitsFor.toList :=
  filterMap_concat ..

/-- The failures counted are the waits performed, as long as no new connection is served. -/
structure Waited (s : Nat × Bool) (t : List (Event FwSig)) : Prop where
  fresh : s.2 = freshLink t
  waits : (∀ t', t' <+: t → servesNew t' = false) → waitsOf t = (List.range s.1).map retryWait

theorem Waited.step {s s' : Nat × Bool} {t : List (Event FwSig)} {e : Event FwSig} (hwaited : Waited s t)
    (hmove : retries s e = some s') : Waited s' (t ++ [e]) := by
  obtain ⟨hfresh, hwaits⟩ := hwaited
  have hbefore : (∀ t', t' <+: t ++ [e] → servesNew t' = false) → waitsOf t = (List.range s.1).map retryWait :=
    fun hnone => hwaits fun t' ht' => hnone t' (ht'.trans (List.prefix_append _ _))
  obtain ⟨k, fresh⟩ := s
  obtain ⟨o, ans⟩ := e
  cases hquiet : RetryQuiet o with
  | true =>
      rw [retries_quiet hquiet] at hmove
      cases hmove
      refine ⟨?_, fun hnone => ?_⟩
      · rw [freshLink_concat]
        cases o <;> first | exact hfresh | cases hquiet
      · rw [waitsOf_concat, ← hbefore hnone]
        cases o <;> first | exact List.append_nil _ | cases hquiet
  | false =>
      cases o with
      | connect =>
          cases hmove
          refine ⟨(freshLink_concat t ⟨.connect, ans⟩).symm, fun hnone => ?_⟩
          rw [waitsOf_concat]
          exact (List.append_nil _).trans (hbefore hnone)
      | xQueueReceive =>
          cases hmove
          refine ⟨(freshLink_concat t ⟨.xQueueReceive, ans⟩).symm, fun hnone => ?_⟩
          -- a visit with a new connection is what is excluded
          have hold := hnone _ (List.prefix_refl _)
          rw [servesNew_concat, ← hfresh] at hold
          have hstale : fresh = false := hold
          rw [hstale, waitsOf_concat]
          exact (List.append_nil _).trans (hbefore hnone)
      | backoffWait ms =>
          obtain ⟨rfl, hs'⟩ := Option.ite_none_right_eq_some.mp hmove
          cases hs'
          refine ⟨(freshLink_concat t ⟨.backoffWait (retryWait k), ans⟩).symm, fun hnone => ?_⟩
          rw [waitsOf_concat, hbefore hnone, List.range_succ, List.map_append]
          rfl
      | _ => cases hquiet

/-- From a state in which the rule has just started. -/
theorem waited_accepts {t : List (Event FwSig)} {s : Nat × Bool} (haccepts : retries.Accepts (0, false) t s) :
    Waited s t :=
  haccepts.keeps (fun _ _ _ _ hwaited hmove => hwaited.step hmove) ⟨rfl, fun _ => rfl⟩

/-- When a new connection is served, the rule starts again. -/
theorem servesNew_restarts {t : List (Event FwSig)} (hserves : servesNew t = true) {s : Nat × Bool}
    (haccepts : retries.Accepts (0, false) t s) : s = (0, false) := by
  rcases List.eq_nil_or_concat t with rfl | ⟨t₀, e, rfl⟩
  · cases hserves
  rw [List.concat_eq_append] at hserves haccepts
  rw [servesNew_concat, Bool.and_eq_true] at hserves
  obtain ⟨s₀, hfirst, hlast⟩ := haccepts.split
  have hfresh : s₀.2 = true := (waited_accepts hfirst).fresh.trans hserves.2
  obtain ⟨k, fresh⟩ := s₀
  obtain ⟨o, ans⟩ := e
  cases of_decide_eq_true hserves.1
  cases hfresh
  cases hlast with
  | cons hmove hnil =>
      cases hmove
      cases hnil
      rfl

theorem waitsOf_bounded {t : List (Event FwSig)} {s s' : Nat × Bool} (haccepts : retries.Accepts s t s') :
    ∀ ms ∈ waitsOf t, ∃ k, ms = retryWait k := by
  induction haccepts with
  | nil s => exact fun ms hms => by cases hms
  | @cons s s₁ s' e t hmove _ ih =>
      intro ms hms
      obtain ⟨e', he', hwaits⟩ := List.mem_filterMap.mp hms
      rcases List.mem_cons.mp he' with rfl | he'
      · obtain ⟨o, ans⟩ := e'
        cases o with
        | backoffWait ms' =>
            cases hwaits
            exact ⟨s.1, (Option.ite_none_right_eq_some.mp hmove).1⟩
        | _ => cases hwaits
      · exact ih ms (List.mem_filterMap.mpr ⟨e', he', hwaits⟩)

/-- **The waits double.** In every run, from the start or from the first visit to the queue with a new connection, and
up to the next such visit, `net_task` waits 500 ms, 1 s, 2 s, 4 s, 8 s and then 16 s each time; it may visit the queue
any number of times with the connection it has. No wait of a run is shorter than 500 ms or longer than 16 s. -/
theorem backoff_doubles (choices : FwChoices) (schedule : List FwTask) (t₁ t₂ t₃ : List (Event FwSig))
    (hevents : Pool.eventsOf (fwRun choices schedule).log .net = t₁ ++ t₂ ++ t₃)
    (hstart : t₁ = [] ∨ servesNew t₁ = true) (hnone : ∀ t, t <+: t₂ → servesNew t = false) :
    (∃ n, waitsOf t₂ = (List.range n).map fun k => .ofNat (min (500 * 2 ^ k) 16000)) ∧
      ∀ ms ∈ waitsOf (t₁ ++ t₂ ++ t₃), BACKOFF_MIN_MS ≤ ms ∧ ms ≤ BACKOFF_MAX_MS := by
  have hstands := Pool.thread_stands taskBody fwHandler FwTask.start (fun _ => ()) (.start choices) schedule .net
  rw [fwRun] at hevents
  rw [hevents] at hstands
  have hbegin : RetryPc (FwTask.start .net) (0, false) := ⟨rfl, rfl⟩
  obtain ⟨s, haccepts, -⟩ := hstands.accepts taskBody_retries hbegin
  have hbounds : ∀ ms ∈ waitsOf (t₁ ++ t₂ ++ t₃), BACKOFF_MIN_MS ≤ ms ∧ ms ≤ BACKOFF_MAX_MS := by
    intro ms hms
    obtain ⟨k, rfl⟩ := waitsOf_bounded haccepts ms hms
    exact retryWait_bounds k
  obtain ⟨s₂, hfirst, -⟩ := haccepts.split
  obtain ⟨s₁, hbefore, hbetween⟩ := hfirst.split
  have hzero : s₁ = (0, false) := by
    rcases hstart with rfl | hserved
    · cases hbefore
      rfl
    · exact servesNew_restarts hserved hbefore
  rw [hzero] at hbetween
  exact ⟨⟨s₂.1, (waited_accepts hbetween).waits hnone⟩, hbounds⟩

/-- A connection that takes one sample and breaks at the second, one that is refused, and one that breaks at the
HELLO. -/
def breakingLinks : FwChoices where
  sensors := [some (2150, 4800), some (2160, 4700)]
  clocks := []
  wifis := []
  connections := [false, true, false, false]
  connects := [true, false, true]
  writes := [20, 28, 9, 7]
  reads :=
    let ack := packetBytes PktType.helloAck.code DEVICE_ID [0, 0, 0, 1]
    [some (ack.take 12), some (ack.drop 12)]
  availables := []

def breakingEvents : List (Event FwSig) :=
  Pool.eventsOf (fwRun breakingLinks (List.replicate 14 .sensor ++ List.replicate 40 .net)).log .net

/-- The eighth event is the first visit to the queue; another one follows before the write fails. -/
theorem backoff_doubles_breaking :
    servesNew (breakingEvents.take 8) = true ∧ waitsOf (breakingEvents.drop 8) = [500, 1000, 2000] ∧
      ∃ n, waitsOf (breakingEvents.drop 8) = (List.range n).map fun k => .ofNat (min (500 * 2 ^ k) 16000) := by
  have hserves : servesNew (breakingEvents.take 8) = true := by decide +kernel
  have hevents : Pool.eventsOf (fwRun breakingLinks (List.replicate 14 .sensor ++ List.replicate 40 .net)).log .net =
      breakingEvents.take 8 ++ breakingEvents.drop 8 ++ [] := by
    rw [List.append_nil, List.take_append_drop]
    rfl
  have hnone : ∀ k ≤ (breakingEvents.drop 8).length, servesNew ((breakingEvents.drop 8).take k) = false := by
    decide +kernel
  refine ⟨hserves, by decide +kernel, (backoff_doubles breakingLinks _ _ _ [] hevents (.inr hserves) ?_).1⟩
  intro t ht
  rw [List.prefix_iff_eq_take.mp ht]
  exact hnone _ ht.length_le

end PulseLink
