import PulseLink.Firmware

/-! What becomes of the firmware's samples. A ledger follows each of them from the taking of its number to the end:
dropped at a full queue, or queued, received and written. Its pages agree with the queue and the counters of the
sketch in every reachable state, and show the one way out that is not counted: a sample whose write fails is
neither sent nor put back. -/

namespace PulseLink

open scoped List

/-! ### The ledger -/

/-- What has become of the samples, as the operations performed tell it. -/
structure SampleLedger where
  /-- the sequence numbers taken -/
  sampled : List UInt32
  /-- a number whose sample has not been offered to the queue yet -/
  hand : Option UInt32
  accepted : List Reading
  dropped : List Reading
  /-- the sample that `net_task` has received and not finished writing -/
  held : Option Reading
  /-- the samples it has finished with, and whether their packets went out whole -/
  finished : List (Reading × Bool)
  /-- increments of the three counters that are still to come -/
  oweProduced : Nat
  oweDropped : Nat
  oweConsumed : Nat

def SampleLedger.empty : SampleLedger := ⟨[], none, [], [], none, [], 0, 0, 0⟩

/-- A write while no sample is held is that of the HELLO. -/
def SampleLedger.add (y : SampleLedger) : Event FwSig → SampleLedger
  | ⟨.nextSeq, seq⟩ => { y with sampled := y.sampled ++ [seq], hand := some seq }
  | ⟨.xQueueSend r, true⟩ =>
      { y with hand := none, accepted := y.accepted ++ [r], oweProduced := y.oweProduced + 1 }
  | ⟨.xQueueSend r, false⟩ =>
      { y with hand := none, dropped := y.dropped ++ [r], oweDropped := y.oweDropped + 1 }
  | ⟨.countProduced, _⟩ => { y with oweProduced := y.oweProduced - 1 }
  | ⟨.countDropped, _⟩ => { y with oweDropped := y.oweDropped - 1 }
  | ⟨.xQueueReceive, some r⟩ => { y with held := some r }
  | ⟨.tcpWrite pkt, n⟩ =>
      match y.held with
      | none => y
      | some r =>
          if pkt = sensorPacket r ∧ n = pkt.length then
            { y with held := none, finished := y.finished ++ [(r, true)], oweConsumed := y.oweConsumed + 1 }
          else { y with held := none, finished := y.finished ++ [(r, false)] }
  | ⟨.countConsumed, _⟩ => { y with oweConsumed := y.oweConsumed - 1 }
  | _ => y

def ledgerOf (log : List (FwTask × Event FwSig)) : SampleLedger := log.foldl (fun y entry => y.add entry.2) .empty

theorem ledgerOf_concat (log : List (FwTask × Event FwSig)) (i : FwTask) (e : Event FwSig) :
    ledgerOf (log ++ [(i, e)]) = (ledgerOf log).add e :=
  List.foldl_concat _ _ _ _

/-- The samples completely written. -/
def SampleLedger.written (y : SampleLedger) : List Reading := (y.finished.filter fun x => x.2).map Prod.fst

/-- The samples whose write failed. -/
def SampleLedger.lost (y : SampleLedger) : List Reading := (y.finished.filter fun x => !x.2).map Prod.fst

theorem SampleLedger.finished_perm (y : SampleLedger) : (y.finished.map Prod.fst).Perm (y.written ++ y.lost) := by
  rw [written, lost, ← List.map_append]
  exact (List.filter_append_perm _ y.finished).symm.map _

/-- The operations that the ledger does not note and that change nothing it speaks of. -/
def FwQuiet : FwOp → Bool
  | .readSensor | .millis | .vTaskDelay _ | .wifiEnsure | .connected | .connect | .readExact _ _ | .tcpStop
  | .backoffWait _ | .available => true
  | _ => false

theorem SampleLedger.add_quiet (y : SampleLedger) {e : Event FwSig} (he : FwQuiet e.op = true) : y.add e = y := by
  obtain ⟨o, ans⟩ := e
  cases o <;> first | rfl | cases he

theorem fwHandler_quiet {o : FwOp} (ho : FwQuiet o = true) (s : Firmware) :
    ∃ choices, (fwHandler o ((), s)).2.2 = { s with choices } := by
  cases o <;> first | exact ⟨_, rfl⟩ | cases ho

/-! ### Stages of a task -/

/-- Where `sensor_task` is with its sample. -/
inductive SensorStage where
  | resting
  | sampled (seq : UInt32)
  | taken
  | refused
  deriving DecidableEq, Repr

/-- Where `net_task` is with its sample. -/
inductive NetStage where
  | idle
  | holding (r : Reading)
  | wrote
  deriving DecidableEq, Repr

def SensorStage.next : SensorStage → Event FwSig → Option SensorStage
  | .resting, ⟨.nextSeq, seq⟩ => some (.sampled seq)
  | .sampled seq, ⟨.xQueueSend r, ok⟩ => if r.seq = seq then some (if ok then .taken else .refused) else none
  | .taken, ⟨.countProduced, _⟩ => some .resting
  | .refused, ⟨.countDropped, _⟩ => some .resting
  | a, e => if FwQuiet e.op then some a else none

def NetStage.next : NetStage → Event FwSig → Option NetStage
  | .idle, ⟨.xQueueReceive, none⟩ => some .idle
  | .idle, ⟨.xQueueReceive, some r⟩ => some (.holding r)
  | .idle, ⟨.tcpWrite _, _⟩ => some .idle
  | .holding r, ⟨.tcpWrite pkt, n⟩ =>
      if pkt = sensorPacket r then some (if n = pkt.length then .wrote else .idle) else none
  | .wrote, ⟨.countConsumed, _⟩ => some .idle
  | b, e => if FwQuiet e.op then some b else none

inductive SensorMoves : SensorStage → Event FwSig → SensorStage → Prop where
  | quiet {a : SensorStage} {e : Event FwSig} (he : FwQuiet e.op = true) : SensorMoves a e a
  | sample (seq : UInt32) : SensorMoves .resting ⟨.nextSeq, seq⟩ (.sampled seq)
  | accept (r : Reading) : SensorMoves (.sampled r.seq) ⟨.xQueueSend r, true⟩ .taken
  | refuse (r : Reading) : SensorMoves (.sampled r.seq) ⟨.xQueueSend r, false⟩ .refused
  | produced (u : Unit) : SensorMoves .taken ⟨.countProduced, u⟩ .resting
  | dropped (u : Unit) : SensorMoves .refused ⟨.countDropped, u⟩ .resting

inductive NetMoves : NetStage → Event FwSig → NetStage → Prop where
  | quiet {b : NetStage} {e : Event FwSig} (he : FwQuiet e.op = true) : NetMoves b e b
  | empty : NetMoves .idle ⟨.xQueueReceive, none⟩ .idle
  | receive (r : Reading) : NetMoves .idle ⟨.xQueueReceive, some r⟩ (.holding r)
  | hello (pkt : List UInt8) (n : Nat) : NetMoves .idle ⟨.tcpWrite pkt, n⟩ .idle
  | write (r : Reading) : NetMoves (.holding r) ⟨.tcpWrite (sensorPacket r), (sensorPacket r).length⟩ .wrote
  | fail (r : Reading) {n : Nat} (hn : n ≠ (sensorPacket r).length) :
      NetMoves (.holding r) ⟨.tcpWrite (sensorPacket r), n⟩ .idle
  | consumed (u : Unit) : NetMoves .wrote ⟨.countConsumed, u⟩ .idle

theorem sensorMoves_of_next {a a' : SensorStage} {e : Event FwSig} (hmove : a.next e = some a') :
    SensorMoves a e a' := by
  revert hmove
  fun_cases SensorStage.next a e with
  | case1 seq =>
      rintro ⟨⟩
      exact .sample seq
  | case2 r ok =>
      rintro ⟨⟩
      cases ok with
      | true => exact .accept r
      | false => exact .refuse r
  | case3 => nofun
  | case4 u =>
      rintro ⟨⟩
      exact .produced u
  | case5 u =>
      rintro ⟨⟩
      exact .dropped u
  | case6 _ _ _ _ _ _ he =>
      rintro ⟨⟩
      exact .quiet he
  | case7 => nofun

theorem netMoves_of_next {b b' : NetStage} {e : Event FwSig} (hmove : b.next e = some b') : NetMoves b e b' := by
  revert hmove
  fun_cases NetStage.next b e with
  | case1 =>
      rintro ⟨⟩
      exact .empty
  | case2 r =>
      rintro ⟨⟩
      exact .receive r
  | case3 pkt n =>
      rintro ⟨⟩
      exact .hello pkt n
  | case4 r n =>
      rintro ⟨⟩
      split_ifs with hn
      · subst hn
        exact .write r
      · exact .fail r hn
  | case5 => nofun
  | case6 u =>
      rintro ⟨⟩
      exact .consumed u
  | case7 _ _ _ _ _ _ _ he =>
      rintro ⟨⟩
      exact .quiet he
  | case8 => nofun

/-- The stage of a task, whichever it is. -/
abbrev TaskStage := SensorStage ⊕ NetStage

def TaskStage.next : Monitor FwSig TaskStage
  | .inl a, e => (a.next e).map .inl
  | .inr b, e => (b.next e).map .inr

/-! ### The tasks go through their stages -/

/-- Between turns neither task has a sample. -/
def BetweenTurns : TaskPc → TaskStage → Prop
  | .sensor, stage => stage = .inl .resting
  | .net _, stage => stage = .inr .idle
  | .drain _, stage => stage = .inr .idle

theorem sensorTask_follows :
    sensorTask.Follows TaskStage.next (fun stage _ => stage = .inl .resting) (.inl .resting) := by
  intro d
  refine ⟨_, rfl, fun seq => ⟨_, rfl, fun now => ⟨_, rfl, fun sent => ?_⟩⟩⟩
  cases sent with
  | true =>
      refine ⟨.inl .taken, ?_, fun _ => ⟨_, rfl, fun _ => ⟨_, rfl, rfl⟩⟩⟩
      simp [TaskStage.next, SensorStage.next]
  | false =>
      refine ⟨.inl .refused, ?_, fun _ => ⟨_, rfl, fun _ => ⟨_, rfl, rfl⟩⟩⟩
      simp [TaskStage.next, SensorStage.next]

/-- The operations of `net_task` that do not touch a sample. -/
def Idles (o : FwOp) : Prop := FwQuiet o = true ∨ ∃ pkt, o = .tcpWrite pkt

theorem idles_stays (o : FwOp) (ans : o.Ans) (ho : Idles o) :
    TaskStage.next (.inr .idle) ⟨o, ans⟩ = some (.inr .idle) := by
  rcases ho with hquiet | ⟨pkt, rfl⟩
  · cases o <;> first | rfl | cases hquiet
  · rfl

theorem doHandshake_idles : doHandshake.Uses Idles :=
  doHandshake_uses (.inl rfl) (fun _ _ => .inl rfl) fun pkt => .inr ⟨pkt, rfl⟩

theorem drainReplies_idles (backoff : UInt32) : (drainReplies backoff).Within Idles (· ≠ .sensor) :=
  (drainReplies_within (.inl rfl) (fun _ _ => .inl rfl) (.inl rfl) backoff).mono (fun _ ho => ho)
    fun _ => TaskPc.ne_sensor

/-- A turn of `net_task` leads to another turn of it, with no sample in hand. -/
def NetTurned (stage : TaskStage) (pc : TaskPc) : Prop := stage = .inr .idle ∧ pc ≠ .sensor

theorem backoffAndRetry_follows (backoff : UInt32) :
    (backoffAndRetry backoff).Follows TaskStage.next NetTurned (.inr .idle) :=
  fun _ => ⟨_, rfl, rfl, nofun⟩

theorem sendSample_follows (backoff : UInt32) :
    (sendSample backoff).Follows TaskStage.next NetTurned (.inr .idle) := by
  refine Proc.Follows.perform fun sample => ?_
  cases sample with
  | none => exact ⟨_, rfl, rfl, nofun⟩
  | some r =>
      refine ⟨.inr (.holding r), rfl, Proc.Follows.perform fun n => ?_⟩
      by_cases hn : n = (sensorPacket r).length
      · refine ⟨.inr .wrote, ?_, ?_⟩
        · simp [TaskStage.next, NetStage.next, hn]
        · rw [if_neg (not_not.mpr hn)]
          exact fun _ => ⟨_, rfl, rfl, nofun⟩
      · refine ⟨.inr .idle, ?_, ?_⟩
        · simp [TaskStage.next, NetStage.next, hn]
        · rw [if_pos hn]
          exact fun _ => ⟨_, rfl, backoffAndRetry_follows backoff⟩

theorem netTask_follows (backoff : UInt32) : (netTask backoff).Follows TaskStage.next NetTurned (.inr .idle) := by
  refine Proc.Follows.perform fun wifi => ⟨_, rfl, ?_⟩
  split_ifs
  · exact backoffAndRetry_follows backoff
  refine Proc.Follows.perform fun up => ⟨_, rfl, ?_⟩
  split_ifs
  · exact sendSample_follows backoff
  refine Proc.Follows.perform fun ok => ⟨_, rfl, ?_⟩
  split_ifs
  · exact backoffAndRetry_follows backoff
  refine (doHandshake_idles.follows idles_stays).bind ?_
  rintro stage hello ⟨rfl, -⟩
  split_ifs
  · exact fun _ => ⟨_, rfl, backoffAndRetry_follows backoff⟩
  · exact sendSample_follows BACKOFF_MIN_MS

theorem betweenTurns_net {stage : TaskStage} {pc : TaskPc} (hturned : NetTurned stage pc) :
    BetweenTurns pc stage := by
  cases pc with
  | sensor => exact absurd rfl hturned.2
  | net backoff => exact hturned.1
  | drain backoff => exact hturned.1

theorem taskBody_follows (pc : TaskPc) (stage : TaskStage) (hpc : BetweenTurns pc stage) :
    (taskBody pc).Follows TaskStage.next (Monitor.Turned BetweenTurns fun _ _ => False) stage := by
  cases pc with
  | sensor =>
      obtain rfl := hpc
      exact sensorTask_follows.bind fun stage _ hstage => hstage
  | net backoff =>
      obtain rfl := hpc
      exact (netTask_follows backoff).bind fun stage pc hturned => betweenTurns_net hturned
  | drain backoff =>
      obtain rfl := hpc
      exact ((drainReplies_idles backoff).follows idles_stays).bind fun stage pc hturned =>
        betweenTurns_net hturned

/-! ### The ledger agrees with the state -/

def SensorStage.hand : SensorStage → Option UInt32
  | .sampled seq => some seq
  | _ => none

def NetStage.held : NetStage → Option Reading
  | .holding r => some r
  | _ => none

/-- The ledger, the stages of the tasks and the globals tell the same story. -/
structure Balanced (a : SensorStage) (b : NetStage) (y : SampleLedger) (s : Firmware) : Prop where
  hand : y.hand = a.hand
  held : y.held = b.held
  oweProduced : y.oweProduced = if a = .taken then 1 else 0
  oweDropped : y.oweDropped = if a = .refused then 1 else 0
  oweConsumed : y.oweConsumed = if b = .wrote then 1 else 0
  sampled : y.sampled.Perm ((y.accepted ++ y.dropped).map Reading.seq ++ y.hand.toList)
  accepted : y.accepted = y.finished.map Prod.fst ++ y.held.toList ++ s.queue.items
  seq : s.seq = .ofNat y.sampled.length
  produced : s.produced + .ofNat y.oweProduced = .ofNat y.accepted.length
  dropped : s.dropped + .ofNat y.oweDropped = .ofNat y.dropped.length
  consumed : s.consumed + .ofNat y.oweConsumed = .ofNat y.written.length

theorem balanced_start (choices : FwChoices) : Balanced .resting .idle .empty (.start choices) := by
  constructor <;> rfl

/-- Something more to count. -/
theorem count_owed {c : UInt32} {k : Nat} {α : Type} {l : List α} (h : c + .ofNat k = .ofNat l.length) (x : α) :
    c + .ofNat (k + 1) = .ofNat (l ++ [x]).length := by
  rw [List.length_append, UInt32.ofNat_add, ← UInt32.add_assoc, h, UInt32.ofNat_add]
  rfl

/-- One counted. -/
theorem count_paid {c : UInt32} {k n : Nat} (h : c + .ofNat k = .ofNat n) (hk : k = 1) :
    c + 1 + .ofNat (k - 1) = .ofNat n := by
  subst hk
  rw [← h]
  exact UInt32.add_zero _

section Steps

variable {a a' : SensorStage} {b b' : NetStage} {y : SampleLedger} {s : Firmware} {o : FwOp}

/-- The scripts are of no account. -/
theorem Balanced.choose (hbal : Balanced a b y s) (choices : FwChoices) : Balanced a b y { s with choices } :=
  { hbal with }

theorem Balanced.quiet (hbal : Balanced a b y s) (ho : FwQuiet o = true) :
    Balanced a b (y.add ⟨o, (fwHandler o ((), s)).1⟩) (fwHandler o ((), s)).2.2 := by
  obtain ⟨choices, hshared⟩ := fwHandler_quiet ho s
  rw [hshared, SampleLedger.add_quiet y (e := ⟨o, _⟩) ho]
  exact hbal.choose choices

theorem Balanced.sample (hbal : Balanced .resting b y s) :
    Balanced (.sampled (s.seq + 1)) b (y.add ⟨.nextSeq, s.seq + 1⟩) { s with seq := s.seq + 1 } := by
  have hsampled := hbal.sampled
  rw [hbal.hand] at hsampled
  refine { hbal with hand := rfl, sampled := ?_, seq := ?_ }
  · exact (hsampled.append_right [s.seq + 1]).trans (by rw [List.append_assoc]; rfl)
  · show s.seq + 1 = .ofNat (y.sampled ++ [s.seq + 1]).length
    rw [List.length_append, UInt32.ofNat_add, ← hbal.seq]
    rfl

theorem Balanced.accept {r : Reading} (hbal : Balanced (.sampled r.seq) b y s) {q : Fifo QUEUE_LEN Reading}
    (hq : q.items = s.queue.items ++ [r]) :
    Balanced .taken b (y.add ⟨.xQueueSend r, true⟩) { s with queue := q } := by
  have hsampled := hbal.sampled
  rw [hbal.hand] at hsampled
  refine { hbal with
    hand := rfl, oweProduced := ?_, oweDropped := hbal.oweDropped, sampled := ?_, accepted := ?_, produced := ?_ }
  · exact congrArg (· + 1) hbal.oweProduced
  · calc y.sampled
      _ ~ (y.accepted ++ y.dropped).map Reading.seq ++ [r.seq] := hsampled
      _ = y.accepted.map Reading.seq ++ (y.dropped.map Reading.seq ++ [r.seq]) := by
          rw [List.map_append, List.append_assoc]
      _ ~ y.accepted.map Reading.seq ++ ([r.seq] ++ y.dropped.map Reading.seq) :=
          List.perm_append_comm.append_left _
      _ = (y.accepted ++ [r] ++ y.dropped).map Reading.seq ++ [] := by simp
  · show y.accepted ++ [r] = y.finished.map Prod.fst ++ y.held.toList ++ q.items
    rw [hq, hbal.accepted, List.append_assoc]
  · exact count_owed hbal.produced r

theorem Balanced.refuse {r : Reading} (hbal : Balanced (.sampled r.seq) b y s) {q : Fifo QUEUE_LEN Reading}
    (hq : q.items = s.queue.items) :
    Balanced .refused b (y.add ⟨.xQueueSend r, false⟩) { s with queue := q } := by
  have hsampled := hbal.sampled
  rw [hbal.hand] at hsampled
  refine { hbal with
    hand := rfl, oweProduced := hbal.oweProduced, oweDropped := ?_, sampled := ?_, accepted := ?_, dropped := ?_ }
  · exact congrArg (· + 1) hbal.oweDropped
  · show y.sampled.Perm ((y.accepted ++ (y.dropped ++ [r])).map Reading.seq ++ [])
    rw [List.append_nil, ← List.append_assoc, List.map_append]
    exact hsampled
  · show y.accepted = y.finished.map Prod.fst ++ y.held.toList ++ q.items
    rw [hq, hbal.accepted]
  · exact count_owed hbal.dropped r

/-- A step of `sensor_task`. -/
theorem Balanced.sensor (hbal : Balanced a b y s) {e : Event FwSig} (hmove : SensorMoves a e a')
    (he : e = ⟨o, (fwHandler o ((), s)).1⟩) : Balanced a' b (y.add e) (fwHandler o ((), s)).2.2 := by
  cases hmove with
  | quiet hquiet =>
      subst he
      exact hbal.quiet hquiet
  | sample seq =>
      obtain rfl : FwOp.nextSeq = o := congrArg Event.op he
      obtain rfl : seq = s.seq + 1 := eq_of_heq (Event.mk.inj he).2
      exact hbal.sample
  | accept r =>
      obtain rfl : FwOp.xQueueSend r = o := congrArg Event.op he
      have hroom : (s.queue.send r).1 = true := (eq_of_heq (Event.mk.inj he).2).symm
      exact hbal.accept (by rw [Fifo.send_items, hroom, if_pos rfl])
  | refuse r =>
      obtain rfl : FwOp.xQueueSend r = o := congrArg Event.op he
      have hfull : (s.queue.send r).1 = false := (eq_of_heq (Event.mk.inj he).2).symm
      exact hbal.refuse (by rw [Fifo.send_items, hfull, if_neg Bool.false_ne_true, List.append_nil])
  | produced u =>
      obtain rfl : FwOp.countProduced = o := congrArg Event.op he
      exact { hbal with
        hand := hbal.hand, oweProduced := congrArg (· - 1) hbal.oweProduced, oweDropped := hbal.oweDropped,
        produced := count_paid hbal.produced hbal.oweProduced }
  | dropped u =>
      obtain rfl : FwOp.countDropped = o := congrArg Event.op he
      exact { hbal with
        hand := hbal.hand, oweProduced := hbal.oweProduced, oweDropped := congrArg (· - 1) hbal.oweDropped,
        dropped := count_paid hbal.dropped hbal.oweDropped }

theorem Balanced.receive {r : Reading} (hbal : Balanced a .idle y s) {q : Fifo QUEUE_LEN Reading}
    (hq : s.queue.items = r :: q.items) :
    Balanced a (.holding r) (y.add ⟨.xQueueReceive, some r⟩) { s with queue := q } := by
  refine { hbal with held := rfl, oweConsumed := hbal.oweConsumed, accepted := ?_ }
  calc y.accepted
    _ = y.finished.map Prod.fst ++ [] ++ r :: q.items := by
        rw [hbal.accepted, hbal.held, hq]
        rfl
    _ = y.finished.map Prod.fst ++ [r] ++ q.items := by rw [List.append_nil, List.append_assoc]; rfl

/-- The sample that was held is finished with. -/
theorem Balanced.finish {r : Reading} (hbal : Balanced a (.holding r) y s) (whole : Bool) :
    y.accepted = (y.finished ++ [(r, whole)]).map Prod.fst ++ [] ++ s.queue.items := by
  rw [hbal.accepted, hbal.held, List.map_append, List.append_nil]
  rfl

theorem Balanced.write {r : Reading} (hbal : Balanced a (.holding r) y s) :
    Balanced a .wrote (y.add ⟨.tcpWrite (sensorPacket r), (sensorPacket r).length⟩) s := by
  have hadd : y.add ⟨.tcpWrite (sensorPacket r), (sensorPacket r).length⟩ =
      { y with held := none, finished := y.finished ++ [(r, true)], oweConsumed := y.oweConsumed + 1 } := by
    simp [SampleLedger.add, hbal.held, NetStage.held]
  have hwritten : ((y.finished ++ [(r, true)]).filter fun x => x.2).map Prod.fst = y.written ++ [r] := by
    simp [SampleLedger.written]
  rw [hadd]
  refine { hbal with
    held := rfl, oweConsumed := congrArg (· + 1) hbal.oweConsumed, accepted := hbal.finish true, consumed := ?_ }
  rw [SampleLedger.written, hwritten]
  exact count_owed hbal.consumed r

theorem Balanced.fail {r : Reading} (hbal : Balanced a (.holding r) y s) {n : Nat}
    (hn : n ≠ (sensorPacket r).length) : Balanced a .idle (y.add ⟨.tcpWrite (sensorPacket r), n⟩) s := by
  have hadd : y.add ⟨.tcpWrite (sensorPacket r), n⟩ =
      { y with held := none, finished := y.finished ++ [(r, false)] } := by
    simp [SampleLedger.add, hbal.held, NetStage.held, hn]
  have hwritten : ((y.finished ++ [(r, false)]).filter fun x => x.2).map Prod.fst = y.written := by
    simp [SampleLedger.written]
  rw [hadd]
  refine { hbal with
    held := rfl, oweConsumed := hbal.oweConsumed, accepted := hbal.finish false, consumed := ?_ }
  rw [SampleLedger.written, hwritten]
  exact hbal.consumed

/-- A step of `net_task`. -/
theorem Balanced.net (hbal : Balanced a b y s) {e : Event FwSig} (hmove : NetMoves b e b')
    (he : e = ⟨o, (fwHandler o ((), s)).1⟩) : Balanced a b' (y.add e) (fwHandler o ((), s)).2.2 := by
  cases hmove with
  | quiet hquiet =>
      subst he
      exact hbal.quiet hquiet
  | empty =>
      obtain rfl : FwOp.xQueueReceive = o := congrArg Event.op he
      have hreceive : s.queue.receive.1 = none := (eq_of_heq (Event.mk.inj he).2).symm
      have hitems : s.queue.items = s.queue.receive.2.items := by
        rw [s.queue.receive_items, hreceive]
        rfl
      exact { hbal with accepted := hitems ▸ hbal.accepted }
  | receive r =>
      obtain rfl : FwOp.xQueueReceive = o := congrArg Event.op he
      have hreceive : s.queue.receive.1 = some r := (eq_of_heq (Event.mk.inj he).2).symm
      refine hbal.receive ?_
      rw [s.queue.receive_items, hreceive]
      rfl
  | hello pkt n =>
      obtain rfl : FwOp.tcpWrite pkt = o := congrArg Event.op he
      have hsame : y.add ⟨.tcpWrite pkt, n⟩ = y := by
        rw [SampleLedger.add, hbal.held]
        rfl
      rw [hsame]
      exact hbal.choose _
  | write r =>
      obtain rfl : FwOp.tcpWrite (sensorPacket r) = o := congrArg Event.op he
      exact hbal.write.choose _
  | fail r hn =>
      obtain rfl : FwOp.tcpWrite (sensorPacket r) = o := congrArg Event.op he
      exact (hbal.fail hn).choose _
  | consumed u =>
      obtain rfl : FwOp.countConsumed = o := congrArg Event.op he
      exact { hbal with
        held := hbal.held, oweConsumed := congrArg (· - 1) hbal.oweConsumed,
        consumed := count_paid hbal.consumed hbal.oweConsumed }

end Steps

/-- The stages of both tasks, and the ledger in agreement with them. -/
def InStep (st : FwTask → TaskStage) (log : List (FwTask × Event FwSig)) (s : Firmware) : Prop :=
  ∃ a b, st .sensor = .inl a ∧ st .net = .inr b ∧ Balanced a b (ledgerOf log) s

def startStage : FwTask → TaskStage
  | .sensor => .inl .resting
  | .net => .inr .idle

theorem fw_balanced (choices : FwChoices) (schedule : List FwTask) :
    ∃ a b, Balanced a b (ledgerOf (fwRun choices schedule).log) (fwRun choices schedule).shared := by
  have hbegin : ∀ i, BetweenTurns (FwTask.start i) (startStage i) := by
    intro i
    cases i <;> rfl
  suffices hrun : ∃ st, Pool.Monitored TaskStage.next BetweenTurns (fun _ _ => False) startStage InStep
      (fwRun choices schedule) st by
    obtain ⟨st, hpool⟩ := hrun
    obtain ⟨a, b, -, -, hbal⟩ := hpool.holds
    exact ⟨a, b, hbal⟩
  rw [fwRun, ← Pool.gatedRun_open]
  refine Pool.monitored taskBody_follows hbegin ⟨.resting, .idle, rfl, rfl, balanced_start choices⟩ ?_ schedule
  intro pool st i o next stage' hpool _ _ hmove
  obtain ⟨a, b, hsensor, hnet, hbal⟩ := hpool.holds
  unfold InStep
  rw [ledgerOf_concat]
  cases i with
  | sensor =>
      rw [hsensor] at hmove
      obtain ⟨a', hnext, rfl⟩ := Option.map_eq_some_iff.mp hmove
      refine ⟨a', b, Function.update_self .., ?_, hbal.sensor (sensorMoves_of_next hnext) rfl⟩
      rw [Function.update_of_ne (by decide), hnet]
  | net =>
      rw [hnet] at hmove
      obtain ⟨b', hnext, rfl⟩ := Option.map_eq_some_iff.mp hmove
      refine ⟨a, b', ?_, Function.update_self .., hbal.net (netMoves_of_next hnext) rfl⟩
      rw [Function.update_of_ne (by decide), hsensor]

/-! ### The accounts of the firmware -/

/-- Every number taken belongs to a sample that was written, is held by `net_task`, is queued or was dropped, or is
still in the hand of `sensor_task`; and the counters agree once the increments to come are added. -/
structure Accounted (y : SampleLedger) (s : Firmware) : Prop where
  fates : y.sampled.Perm
    ((y.written ++ y.held.toList ++ s.queue.items ++ y.dropped).map Reading.seq ++ y.hand.toList)
  produced : s.produced + .ofNat y.oweProduced =
    s.consumed + .ofNat y.oweConsumed + .ofNat s.queue.items.length + .ofNat y.held.toList.length
  seq : s.seq = s.produced + .ofNat y.oweProduced + (s.dropped + .ofNat y.oweDropped) + .ofNat y.hand.toList.length

theorem Balanced.accounted_iff {a : SensorStage} {b : NetStage} {y : SampleLedger} {s : Firmware}
    (hbal : Balanced a b y s) :
    Accounted y s ↔ y.lost = [] := by
  have hfinished := y.finished_perm
  have hlength : y.accepted.length =
      y.written.length + y.lost.length + y.held.toList.length + s.queue.items.length := by
    have hperm := hfinished.length_eq
    rw [List.length_append] at hperm
    rw [hbal.accepted, List.length_append, List.length_append, hperm]
  have hsampled : y.sampled.length = y.accepted.length + y.dropped.length + y.hand.toList.length := by
    rw [hbal.sampled.length_eq, List.length_append, List.length_map, List.length_append]
  constructor
  · intro haccounted
    have hfates := haccounted.fates.length_eq
    simp only [List.length_append, List.length_map] at hfates
    exact List.length_eq_zero_iff.mp (by omega)
  · intro hlost
    rw [hlost, List.append_nil] at hfinished
    refine ⟨?_, ?_, ?_⟩
    · refine hbal.sampled.trans (List.Perm.append_right _ (List.Perm.map _ ?_))
      rw [hbal.accepted]
      exact ((hfinished.append_right _).append_right _).append_right _
    · calc s.produced + .ofNat y.oweProduced
        _ = .ofNat (y.written.length + s.queue.items.length + y.held.toList.length) := by
            rw [hbal.produced, hlength, hlost, List.length_nil, Nat.add_zero, Nat.add_right_comm]
        _ = .ofNat y.written.length + .ofNat s.queue.items.length + .ofNat y.held.toList.length := by
            rw [UInt32.ofNat_add, UInt32.ofNat_add]
        _ = s.consumed + .ofNat y.oweConsumed + .ofNat s.queue.items.length + .ofNat y.held.toList.length := by
            rw [hbal.consumed]
    · rw [hbal.seq, hbal.produced, hbal.dropped, hsampled, UInt32.ofNat_add, UInt32.ofNat_add]

/-- Each task has one sample at a time between its first and its last step for it. -/
theorem Balanced.in_flight {a : SensorStage} {b : NetStage} {y : SampleLedger} {s : Firmware}
    (hbal : Balanced a b y s) :
    y.hand.toList.length + y.oweProduced + y.oweDropped ≤ 1 ∧ y.held.toList.length + y.oweConsumed ≤ 1 := by
  rw [hbal.hand, hbal.oweProduced, hbal.oweDropped, hbal.held, hbal.oweConsumed]
  constructor
  · cases a <;> simp [SensorStage.hand]
  · cases b <;> simp [NetStage.held]

/-- **What the firmware loses.** In every reachable state the samples are accounted for exactly if no write of a
sample has failed. Besides the one that `net_task` holds, at most one sample of each task is in between. -/
theorem samples_accounted (choices : FwChoices) (schedule : List FwTask) :
    let y := ledgerOf (fwRun choices schedule).log
    (Accounted y (fwRun choices schedule).shared ↔ y.lost = []) ∧
      y.hand.toList.length + y.oweProduced + y.oweDropped ≤ 1 ∧ y.held.toList.length + y.oweConsumed ≤ 1 := by
  obtain ⟨a, b, hbal⟩ := fw_balanced choices schedule
  exact ⟨hbal.accounted_iff, hbal.in_flight⟩

/-- A server that answers the HELLO and is gone at the first sample. -/
def brokenLink : FwChoices where
  sensors := [some (2150, 4800)]
  clocks := []
  wifis := []
  connections := [false]
  connects := []
  writes := [20, 0]
  reads :=
    let ack := packetBytes PktType.helloAck.code DEVICE_ID [0, 0, 0, 1]
    [some (ack.take 12), some (ack.drop 12)]
  availables := []

/-- One sample is taken and queued, then `net_task` connects, receives it and fails to write it. -/
def oneSample : List FwTask := List.replicate 6 .sensor ++ List.replicate 9 .net

/-- The sample is neither written nor held nor queued nor counted as dropped. -/
theorem failed_write_uncounted :
    let s := (fwRun brokenLink oneSample).shared
    let y := ledgerOf (fwRun brokenLink oneSample).log
    (s.seq, s.produced, s.consumed, s.dropped) = (1, 1, 0, 0) ∧
      (y.sampled, y.written, y.held, s.queue.items, y.dropped) = ([1], [], none, [], []) ∧
      (y.hand, y.oweProduced, y.oweDropped, y.oweConsumed) = (none, 0, 0, 0) ∧ ¬ Accounted y s := by
  refine ⟨by decide +kernel, by decide +kernel, by decide +kernel, fun haccounted => ?_⟩
  exact absurd haccounted.produced (by decide +kernel)

end PulseLink
