import PulseLink.SampleLedger

/-! What `net_task` writes, connection by connection. A TCP connection of the firmware begins with a HELLO and goes
on with the packets of samples; when a packet is cut the connection is given up, so no byte follows the cut. Over
all connections the samples written whole are those that the ledger counts as written, each once and in the order
in which they were taken. What this needs of the Wi-Fi stack is that `connected()` says yes only about a
connection that was opened and not stopped since. -/

namespace PulseLink

/-! ### The bytes on the way up -/

/-- The bytes that went out over TCP. -/
structure Uplink where
  /-- on connections that are given up, the oldest first -/
  past : List (List UInt8)
  /-- on the one in use -/
  now : Option (List UInt8)
  deriving DecidableEq, Repr

namespace Uplink

def empty : Uplink := ⟨[], none⟩

/-- A new connection takes the place of the one before it. -/
def add (u : Uplink) : Event FwSig → Uplink
  | ⟨.connect, true⟩ => ⟨u.past ++ u.now.toList, some []⟩
  | ⟨.tcpWrite pkt, n⟩ => { u with now := u.now.map fun bs => bs ++ pkt.take n }
  | ⟨.tcpStop, _⟩ => ⟨u.past ++ u.now.toList, none⟩
  | _ => u

/-- `connected()` does not say yes when there is no connection. -/
def allows (u : Uplink) : Event FwSig → Bool
  | ⟨.connected, true⟩ => u.now.isSome
  | _ => true

/-- The bytes of every connection, the oldest first. -/
def streams (u : Uplink) : List (List UInt8) := u.past ++ u.now.toList

end Uplink

def uplinkOf (log : List (FwTask × Event FwSig)) : Uplink := log.foldl (fun u entry => u.add entry.2) .empty

theorem uplinkOf_concat (log : List (FwTask × Event FwSig)) (i : FwTask) (e : Event FwSig) :
    uplinkOf (log ++ [(i, e)]) = (uplinkOf log).add e :=
  List.foldl_concat _ _ _ _

/-- From `u` on, `connected()` is truthful. -/
def truthful : Uplink → List (FwTask × Event FwSig) → Bool
  | _, [] => true
  | u, entry :: log => u.allows entry.2 && truthful (u.add entry.2) log

theorem truthful_concat (u : Uplink) (log : List (FwTask × Event FwSig)) (i : FwTask) (e : Event FwSig) :
    truthful u (log ++ [(i, e)]) = (truthful u log && (log.foldl (fun u entry => u.add entry.2) u).allows e) := by
  induction log generalizing u with
  | nil => simp [truthful]
  | cons entry log ih =>
      rw [List.cons_append, truthful, truthful, ih, Bool.and_assoc]
      rfl

/-! ### What a connection carries -/

/-- The packet that opens a connection. -/
def helloPacket : List UInt8 := (plBuildHello PL_HELLO_PACKET_SIZE DEVICE_ID FW_VERSION CAPABILITIES).getD []

theorem helloPacket_eq :
    helloPacket = packetBytes PktType.hello.code DEVICE_ID (helloPayload FW_VERSION CAPABILITIES) := by
  rw [helloPacket,
    plBuildHello_eq DEVICE_ID FW_VERSION CAPABILITIES (show 20 ≤ PL_HELLO_PACKET_SIZE from Nat.le_refl 20)]
  rfl

theorem sensorPacket_eq (r : Reading) :
    sensorPacket r = packetBytes PktType.sensor.code DEVICE_ID (sensorPayload r) := by
  rw [sensorPacket, plBuildSensor_eq DEVICE_ID r (show 28 ≤ PL_SENSOR_PACKET_SIZE from Nat.le_refl 28)]
  rfl

theorem length_helloPacket : helloPacket.length = 20 := by
  rw [helloPacket_eq, length_packetBytes]
  rfl

theorem length_sensorPacket (r : Reading) : (sensorPacket r).length = 28 := by
  rw [sensorPacket_eq, length_packetBytes]
  rfl

/-- A HELLO and whole packets. -/
def wholeStream (rs : List Reading) : List UInt8 := helloPacket ++ rs.flatMap sensorPacket

theorem wholeStream_concat (rs : List Reading) (r : Reading) :
    wholeStream (rs ++ [r]) = wholeStream rs ++ sensorPacket r := by
  rw [wholeStream, wholeStream, List.flatMap_append, List.flatMap_singleton, List.append_assoc]

/-- The bytes are those of a HELLO and the packets of `rs`, the next packet possibly begun; or of a part of the
HELLO. -/
inductive CarriesSamples : List UInt8 → List Reading → Prop where
  | hello {n : Nat} (hn : n < 20) : CarriesSamples (helloPacket.take n) []
  | samples (rs : List Reading) (r : Reading) {n : Nat} (hn : n < 28) :
      CarriesSamples (wholeStream rs ++ (sensorPacket r).take n) rs

theorem carriesSamples_whole (rs : List Reading) : CarriesSamples (wholeStream rs) rs := by
  have hwhole := CarriesSamples.samples rs ⟨0, 0, 0, 0⟩ (show 0 < 28 by decide)
  rwa [List.take_zero, List.append_nil] at hwhole

/-! ### Stages of `net_task` on its connection -/

inductive WireStage where
  /-- nothing under way; there may be a connection or not -/
  | idle
  /-- there is a connection, and it has seen whole packets only -/
  | ready
  | dialled
  | holding (r : Reading)
  | wrote
  /-- a packet was cut -/
  | broken
  deriving DecidableEq, Repr

/-- The operations that neither send nor tell anything of the connection. -/
def WireQuiet : FwOp → Bool
  | .wifiEnsure | .backoffWait _ | .millis | .readExact _ _ | .available => true
  | _ => false

def WireStage.next : WireStage → Event FwSig → Option WireStage
  | .idle, ⟨.connected, up⟩ => some (if up then .ready else .idle)
  | .idle, ⟨.connect, ok⟩ => some (if ok then .dialled else .idle)
  | .dialled, ⟨.tcpWrite pkt, n⟩ => if pkt = helloPacket then some (if n = 20 then .ready else .broken) else none
  | .ready, ⟨.tcpStop, _⟩ => some .idle
  | .broken, ⟨.tcpStop, _⟩ => some .idle
  | .ready, ⟨.xQueueReceive, none⟩ => some .idle
  | .ready, ⟨.xQueueReceive, some r⟩ => some (.holding r)
  | .holding r, ⟨.tcpWrite pkt, n⟩ =>
      if pkt = sensorPacket r then some (if n = 28 then .wrote else .broken) else none
  | .wrote, ⟨.countConsumed, _⟩ => some .idle
  | b, e => if WireQuiet e.op then some b else none

inductive WireMoves : WireStage → Event FwSig → WireStage → Prop where
  | quiet {b : WireStage} {e : Event FwSig} (he : WireQuiet e.op = true) : WireMoves b e b
  | up : WireMoves .idle ⟨.connected, true⟩ .ready
  | down : WireMoves .idle ⟨.connected, false⟩ .idle
  | dial : WireMoves .idle ⟨.connect, true⟩ .dialled
  | noAnswer : WireMoves .idle ⟨.connect, false⟩ .idle
  | greet : WireMoves .dialled ⟨.tcpWrite helloPacket, (20 : Nat)⟩ .ready
  | cutHello {n : Nat} (hn : n ≠ 20) : WireMoves .dialled ⟨.tcpWrite helloPacket, n⟩ .broken
  | refused (u : Unit) : WireMoves .ready ⟨.tcpStop, u⟩ .idle
  | giveUp (u : Unit) : WireMoves .broken ⟨.tcpStop, u⟩ .idle
  | empty : WireMoves .ready ⟨.xQueueReceive, none⟩ .idle
  | receive (r : Reading) : WireMoves .ready ⟨.xQueueReceive, some r⟩ (.holding r)
  | write (r : Reading) : WireMoves (.holding r) ⟨.tcpWrite (sensorPacket r), (28 : Nat)⟩ .wrote
  | cut (r : Reading) {n : Nat} (hn : n ≠ 28) : WireMoves (.holding r) ⟨.tcpWrite (sensorPacket r), n⟩ .broken
  | consumed (u : Unit) : WireMoves .wrote ⟨.countConsumed, u⟩ .idle

theorem wireMoves_of_next {b b' : WireStage} {e : Event FwSig} (hmove : b.next e = some b') : WireMoves b e b' := by
  revert hmove
  fun_cases WireStage.next b e with
  | case1 up =>
      rintro ⟨⟩
      cases up with
      | true => exact .up
      | false => exact .down
  | case2 ok =>
      rintro ⟨⟩
      cases ok with
      | true => exact .dial
      | false => exact .noAnswer
  | case3 n =>
      rintro ⟨⟩
      split_ifs with hn
      · subst hn
        exact .greet
      · exact .cutHello hn
  | case4 => exact fun hnone => by cases hnone
  | case5 u =>
      rintro ⟨⟩
      exact .refused u
  | case6 u =>
      rintro ⟨⟩
      exact .giveUp u
  | case7 =>
      rintro ⟨⟩
      exact .empty
  | case8 r =>
      rintro ⟨⟩
      exact .receive r
  | case9 r n =>
      rintro ⟨⟩
      split_ifs with hn
      · subst hn
        exact .write r
      · exact .cut r hn
  | case10 => exact fun hnone => by cases hnone
  | case11 u =>
      rintro ⟨⟩
      exact .consumed u
  | case12 _ _ _ _ _ _ _ _ _ _ _ he =>
      rintro ⟨⟩
      exact .quiet he
  | case13 => exact fun hnone => by cases hnone

/-- The operations of `sensor_task`. -/
def Samples : FwOp → Bool
  | .readSensor | .nextSeq | .millis | .xQueueSend _ | .countProduced | .countDropped | .vTaskDelay _ => true
  | _ => false

/-- `sensor_task` has no stage. -/
def LinkStage.next : Monitor FwSig (Option WireStage)
  | none, e => if Samples e.op then some none else none
  | some b, e => (b.next e).map some

/-! ### `net_task` goes through the stages -/

/-- Between turns nothing is under way. -/
def AtRest : TaskPc → Option WireStage → Prop
  | .sensor, stage => stage = none
  | .net _, stage => stage = some .idle
  | .drain _, stage => stage = some .idle

theorem sensorTask_samples : sensorTask.Uses fun o => Samples o = true := by
  refine Proc.Within.perform rfl fun d => Proc.Within.perform rfl fun seq => Proc.Within.perform rfl fun now => ?_
  refine Proc.Within.perform rfl fun sent => ?_
  cases sent <;> exact Proc.Within.perform rfl fun _ => Proc.Within.perform rfl fun _ => trivial

theorem wireQuiet_stays (b : WireStage) (o : FwOp) (ans : o.Ans) (ho : WireQuiet o = true) :
    LinkStage.next (some b) ⟨o, ans⟩ = some (some b) := by
  cases o <;> first | (cases b <;> rfl) | cases ho

/-- After the handshake the HELLO is out, or cut and the handshake has failed. -/
def Greeted (stage : Option WireStage) (ok : Bool) : Prop :=
  stage = some .ready ∨ stage = some .broken ∧ ok = false

theorem doHandshake_follows : doHandshake.Follows LinkStage.next Greeted (some .dialled) := by
  refine Proc.Follows.perform fun n => ?_
  by_cases hn : n = 20
  · refine ⟨some .ready, ?_, ?_⟩
    · simp [LinkStage.next, WireStage.next, hn, helloPacket]
    · rw [← helloPacket, length_helloPacket, if_neg (not_not.mpr hn)]
      refine Proc.Follows.perform fun start => ⟨some .ready, rfl, ?_⟩
      have hreads : (readReply (return start + 2000)).Uses fun o => WireQuiet o = true :=
        readReply_uses (fun _ _ => rfl) trivial
      refine (hreads.follows fun o ans ho => wireQuiet_stays .ready o ans ho).bind ?_
      rintro stage reply ⟨rfl, -⟩
      cases reply <;> exact .inl rfl
  · refine ⟨some .broken, ?_, ?_⟩
    · simp [LinkStage.next, WireStage.next, hn, helloPacket]
    · rw [← helloPacket, length_helloPacket, if_pos hn]
      exact .inr ⟨rfl, rfl⟩

/-- A turn of `net_task` leads to another turn of it, with nothing under way. -/
def Rests (stage : Option WireStage) (pc : TaskPc) : Prop := stage = some .idle ∧ pc ≠ .sensor

theorem backoffAndRetry_rests (backoff : UInt32) :
    (backoffAndRetry backoff).Follows LinkStage.next Rests (some .idle) :=
  fun _ => ⟨_, rfl, rfl, fun h => by cases h⟩

theorem sendSample_rests (backoff : UInt32) : (sendSample backoff).Follows LinkStage.next Rests (some .ready) := by
  refine Proc.Follows.perform fun sample => ?_
  cases sample with
  | none => exact ⟨_, rfl, rfl, fun h => by cases h⟩
  | some r =>
      refine ⟨some (.holding r), rfl, Proc.Follows.perform fun n => ?_⟩
      rw [length_sensorPacket]
      by_cases hn : n = 28
      · refine ⟨some .wrote, ?_, ?_⟩
        · simp [LinkStage.next, WireStage.next, hn]
        · rw [if_neg (not_not.mpr hn)]
          exact fun _ => ⟨_, rfl, rfl, fun h => by cases h⟩
      · refine ⟨some .broken, ?_, ?_⟩
        · simp [LinkStage.next, WireStage.next, hn]
        · rw [if_pos hn]
          exact fun _ => ⟨_, rfl, backoffAndRetry_rests backoff⟩

theorem netTask_rests (backoff : UInt32) : (netTask backoff).Follows LinkStage.next Rests (some .idle) := by
  refine Proc.Follows.perform fun wifi => ⟨some .idle, rfl, ?_⟩
  split_ifs
  · exact backoffAndRetry_rests backoff
  refine Proc.Follows.perform fun up => ?_
  cases up with
  | true => exact ⟨some .ready, rfl, sendSample_rests backoff⟩
  | false =>
      refine ⟨some .idle, rfl, Proc.Follows.perform fun ok => ?_⟩
      cases ok with
      | false => exact ⟨some .idle, rfl, backoffAndRetry_rests backoff⟩
      | true =>
          refine ⟨some .dialled, rfl, doHandshake_follows.bind ?_⟩
          rintro stage hello (rfl | ⟨rfl, rfl⟩)
          · split_ifs
            · exact fun _ => ⟨_, rfl, backoffAndRetry_rests backoff⟩
            · exact sendSample_rests BACKOFF_MIN_MS
          · rw [if_pos rfl]
            exact fun _ => ⟨_, rfl, backoffAndRetry_rests backoff⟩

theorem drainReplies_quiet (backoff : UInt32) :
    (drainReplies backoff).Within (fun o => WireQuiet o = true) fun pc => pc ≠ .sensor :=
  (drainReplies_within (P := fun o => WireQuiet o = true) rfl (fun _ _ => rfl) rfl backoff).mono (fun _ ho => ho)
    fun _ => TaskPc.ne_sensor

theorem atRest_of_rests {stage : Option WireStage} {pc : TaskPc} (hrests : Rests stage pc) : AtRest pc stage := by
  cases pc with
  | sensor => exact absurd rfl hrests.2
  | net backoff => exact hrests.1
  | drain backoff => exact hrests.1

theorem taskBody_rests (pc : TaskPc) (stage : Option WireStage) (hpc : AtRest pc stage) :
    (taskBody pc).Follows LinkStage.next (Monitor.Turned AtRest fun _ _ => False) stage := by
  cases pc with
  | sensor =>
      obtain rfl := hpc
      have hstays : ∀ (o : FwOp) (ans : o.Ans), Samples o = true → LinkStage.next none ⟨o, ans⟩ = some none :=
        fun o ans ho => if_pos ho
      refine (sensorTask_samples.follows hstays).bind ?_
      rintro stage _ ⟨rfl, -⟩
      exact rfl
  | net backoff =>
      obtain rfl := hpc
      exact (netTask_rests backoff).bind fun stage pc hrests => atRest_of_rests hrests
  | drain backoff =>
      obtain rfl := hpc
      refine ((drainReplies_quiet backoff).follows fun o ans ho => wireQuiet_stays .idle o ans ho).bind ?_
      exact fun stage pc hrests => atRest_of_rests hrests

/-! ### The connections carry the samples written -/

/-- What stage `b` says about the connection in use, which carries `cur`. -/
def WireStage.Link : WireStage → Option (List UInt8) → List Reading → Prop
  | .idle, now, cur => now = none ∧ cur = [] ∨ now = some (wholeStream cur)
  | .dialled, now, cur => now = some [] ∧ cur = []
  | .broken, now, cur => ∃ bs, now = some bs ∧ CarriesSamples bs cur
  | _, now, cur => now = some (wholeStream cur)

def WireStage.held : WireStage → Option Reading
  | .holding r => some r
  | _ => none

/-- The connections given up carry the batches `done`, the one in use carries `cur`, and together these are the
samples written. -/
structure Batched (b : WireStage) (u : Uplink) (y : SampleLedger) (done : List (List Reading)) (cur : List Reading) :
    Prop where
  past : List.Forall₂ CarriesSamples u.past done
  link : b.Link u.now cur
  held : y.held = b.held
  written : y.written = done.flatten ++ cur

theorem WireStage.Link.carries {b : WireStage} {now : Option (List UInt8)} {cur : List Reading}
    (hlink : b.Link now cur) : now = none ∧ cur = [] ∨ ∃ bs, now = some bs ∧ CarriesSamples bs cur := by
  cases b with
  | idle =>
      rcases hlink with hnone | hwhole
      · exact .inl hnone
      · exact .inr ⟨_, hwhole, carriesSamples_whole cur⟩
  | dialled =>
      obtain ⟨hnow, rfl⟩ := hlink
      exact .inr ⟨[], hnow, .hello (n := 0) (by decide)⟩
  | broken => exact .inr hlink
  | ready => exact .inr ⟨_, hlink, carriesSamples_whole cur⟩
  | holding r => exact .inr ⟨_, hlink, carriesSamples_whole cur⟩
  | wrote => exact .inr ⟨_, hlink, carriesSamples_whole cur⟩

section Steps

variable {b b' : WireStage} {u : Uplink} {y : SampleLedger} {done : List (List Reading)} {cur : List Reading}

/-- The connections so far, with the one in use. -/
theorem Batched.leave (hfr : Batched b u y done cur) :
    ∃ done', List.Forall₂ CarriesSamples u.streams done' ∧ done'.flatten = done.flatten ++ cur := by
  rw [Uplink.streams]
  rcases hfr.link.carries with ⟨hnow, rfl⟩ | ⟨bs, hnow, hcarries⟩
  · refine ⟨done, ?_, (List.append_nil _).symm⟩
    rw [hnow, Option.toList_none, List.append_nil]
    exact hfr.past
  · refine ⟨done ++ [cur], ?_, ?_⟩
    · rw [hnow, Option.toList_some]
      exact List.rel_append hfr.past (.cons hcarries .nil)
    · rw [List.flatten_append, List.flatten_singleton]

/-- A step of `sensor_task` is not seen on the connection. -/
theorem Batched.sensor (hfr : Batched b u y done cur) {e : Event FwSig} (he : Samples e.op = true) :
    Batched b (u.add e) (y.add e) done cur := by
  obtain ⟨o, ans⟩ := e
  cases o with
  | xQueueSend r => cases ans <;> exact { hfr with held := hfr.held, written := hfr.written }
  | readSensor | millis | vTaskDelay _ => exact hfr
  | nextSeq | countProduced | countDropped => exact { hfr with held := hfr.held, written := hfr.written }
  | _ => cases he

theorem Batched.giveUp (hfr : Batched b u y done cur) (hheld : b.held = none) (ans : Unit) :
    ∃ done' cur', Batched .idle (u.add ⟨.tcpStop, ans⟩) (y.add ⟨.tcpStop, ans⟩) done' cur' := by
  obtain ⟨done', hpast, hflat⟩ := hfr.leave
  refine ⟨done', [], hpast, .inl ⟨rfl, rfl⟩, hfr.held.trans hheld, ?_⟩
  rw [List.append_nil, hflat]
  exact hfr.written

theorem Batched.dial (hfr : Batched .idle u y done cur) :
    ∃ done' cur', Batched .dialled (u.add ⟨.connect, true⟩) (y.add ⟨.connect, true⟩) done' cur' := by
  obtain ⟨done', hpast, hflat⟩ := hfr.leave
  refine ⟨done', [], hpast, ⟨rfl, rfl⟩, hfr.held, ?_⟩
  rw [List.append_nil, hflat]
  exact hfr.written

/-- The HELLO goes out, whole or cut. -/
theorem Batched.hello (hfr : Batched .dialled u y done cur) {n : Nat} (hn : n ≤ 20) :
    Batched (if n = 20 then .ready else .broken) (u.add ⟨.tcpWrite helloPacket, n⟩) (y.add ⟨.tcpWrite helloPacket, n⟩)
      done cur := by
  obtain ⟨hnow, rfl⟩ := hfr.link
  have hsent : (u.add ⟨.tcpWrite helloPacket, n⟩).now = some (helloPacket.take n) := by
    show u.now.map (fun bs => bs ++ helloPacket.take n) = _
    rw [hnow]
    rfl
  have hkept : y.add ⟨.tcpWrite helloPacket, n⟩ = y := by
    rw [SampleLedger.add, hfr.held]
    rfl
  rw [hkept]
  split_ifs with hwhole
  · refine { hfr with link := ?_, held := hfr.held }
    show _ = some (wholeStream [])
    rw [hsent, hwhole, ← length_helloPacket, List.take_length, wholeStream, List.flatMap_nil, List.append_nil]
  · exact { hfr with link := ⟨_, hsent, .hello (by omega)⟩, held := hfr.held }

/-- The packet of the sample goes out whole. -/
theorem Batched.write {r : Reading} (hfr : Batched (.holding r) u y done cur) :
    Batched .wrote (u.add ⟨.tcpWrite (sensorPacket r), (28 : Nat)⟩)
      (y.add ⟨.tcpWrite (sensorPacket r), (28 : Nat)⟩) done
      (cur ++ [r]) := by
  have hnow : u.now = some (wholeStream cur) := hfr.link
  have hadd : y.add ⟨.tcpWrite (sensorPacket r), (28 : Nat)⟩ =
      { y with held := none, finished := y.finished ++ [(r, true)], oweConsumed := y.oweConsumed + 1 } := by
    simp [SampleLedger.add, hfr.held, WireStage.held, length_sensorPacket]
  rw [hadd]
  refine { hfr with link := ?_, held := rfl, written := ?_ }
  · show u.now.map (fun bs => bs ++ (sensorPacket r).take 28) = some (wholeStream (cur ++ [r]))
    rw [hnow, ← length_sensorPacket r, List.take_length, wholeStream_concat]
    rfl
  · have hwritten : ((y.finished ++ [(r, true)]).filter fun x => x.2).map Prod.fst = y.written ++ [r] := by
      simp [SampleLedger.written]
    rw [SampleLedger.written, hwritten, hfr.written, List.append_assoc]

/-- The packet of the sample is cut, and the sample is not counted as written. -/
theorem Batched.cut {r : Reading} (hfr : Batched (.holding r) u y done cur) {n : Nat} (hn : n < 28) :
    Batched .broken (u.add ⟨.tcpWrite (sensorPacket r), n⟩) (y.add ⟨.tcpWrite (sensorPacket r), n⟩) done cur := by
  have hnow : u.now = some (wholeStream cur) := hfr.link
  have hadd : y.add ⟨.tcpWrite (sensorPacket r), n⟩ =
      { y with held := none, finished := y.finished ++ [(r, false)] } := by
    simp [SampleLedger.add, hfr.held, WireStage.held, length_sensorPacket, Nat.ne_of_lt hn]
  rw [hadd]
  refine { hfr with link := ⟨_, ?_, .samples cur r hn⟩, held := rfl, written := ?_ }
  · show u.now.map (fun bs => bs ++ (sensorPacket r).take n) = _
    rw [hnow]
    rfl
  · have hwritten : ((y.finished ++ [(r, false)]).filter fun x => x.2).map Prod.fst = y.written := by
      simp [SampleLedger.written]
    rw [SampleLedger.written, hwritten, hfr.written]

/-- A step of `net_task`, on a connection about which `connected()` tells the truth. -/
theorem Batched.net (hfr : Batched b u y done cur) {e : Event FwSig} (hmove : WireMoves b e b')
    (htrue : u.allows e = true) (hsent : ∀ pkt (n : Nat), e = ⟨.tcpWrite pkt, n⟩ → n ≤ pkt.length) :
    ∃ done' cur', Batched b' (u.add e) (y.add e) done' cur' := by
  cases hmove with
  | quiet he =>
      obtain ⟨o, ans⟩ := e
      cases o <;> first | exact ⟨done, cur, hfr⟩ | cases he
  | up =>
      rcases hfr.link with ⟨hnow, -⟩ | hwhole
      · have hsome : u.now.isSome = true := htrue
        rw [hnow] at hsome
        cases hsome
      · exact ⟨done, cur, { hfr with link := hwhole, held := hfr.held }⟩
  | down => exact ⟨done, cur, hfr⟩
  | dial => exact hfr.dial
  | noAnswer => exact ⟨done, cur, hfr⟩
  | greet =>
      have hhello := hfr.hello (Nat.le_refl 20)
      rw [if_pos rfl] at hhello
      exact ⟨done, cur, hhello⟩
  | cutHello hn =>
      have hle := hsent _ _ rfl
      rw [length_helloPacket] at hle
      have hhello := hfr.hello hle
      rw [if_neg hn] at hhello
      exact ⟨done, cur, hhello⟩
  | refused ans => exact hfr.giveUp rfl ans
  | giveUp ans => exact hfr.giveUp rfl ans
  | empty => exact ⟨done, cur, { hfr with link := .inr hfr.link, held := hfr.held }⟩
  | receive r => exact ⟨done, cur, { hfr with link := hfr.link, held := rfl, written := hfr.written }⟩
  | write r => exact ⟨done, cur ++ [r], hfr.write⟩
  | cut r hn =>
      have hle := hsent _ _ rfl
      rw [length_sensorPacket] at hle
      exact ⟨done, cur, hfr.cut (by omega)⟩
  | consumed ans => exact ⟨done, cur, { hfr with link := .inr hfr.link, held := hfr.held, written := hfr.written }⟩

end Steps

/-- As long as `connected()` has told the truth, the connections carry the samples written. -/
def InBatches (st : FwTask → Option WireStage) (log : List (FwTask × Event FwSig)) (_ : Firmware) : Prop :=
  st .sensor = none ∧ ∃ b, st .net = some b ∧
    (truthful .empty log = true → ∃ done cur, Batched b (uplinkOf log) (ledgerOf log) done cur)

def startLink : FwTask → Option WireStage
  | .sensor => none
  | .net => some .idle

theorem fw_batched (choices : FwChoices) (schedule : List FwTask)
    (htrue : truthful .empty (fwRun choices schedule).log = true) :
    ∃ b done cur,
      Batched b (uplinkOf (fwRun choices schedule).log) (ledgerOf (fwRun choices schedule).log) done cur := by
  have hbegin : ∀ i, AtRest (FwTask.start i) (startLink i) := by
    intro i
    cases i <;> rfl
  suffices hrun : ∃ st, Pool.Monitored LinkStage.next AtRest (fun _ _ => False) startLink InBatches
      (fwRun choices schedule) st by
    obtain ⟨st, hpool⟩ := hrun
    obtain ⟨-, b, -, hframed⟩ := hpool.holds
    exact ⟨b, hframed htrue⟩
  have hstart : InBatches startLink [] (.start choices) :=
    ⟨rfl, .idle, rfl, fun _ => ⟨[], [], .nil, .inl ⟨rfl, rfl⟩, rfl, rfl⟩⟩
  rw [fwRun, ← Pool.gatedRun_open]
  refine Pool.monitored taskBody_rests hbegin hstart ?_ schedule
  intro pool st i o next stage' hpool _ _ hmove
  obtain ⟨hsensor, b, hnet, hframed⟩ := hpool.holds
  unfold InBatches
  rw [uplinkOf_concat, ledgerOf_concat, truthful_concat]
  cases i with
  | sensor =>
      rw [hsensor] at hmove
      simp only [LinkStage.next] at hmove
      split_ifs at hmove with hsamples
      cases hmove
      refine ⟨Function.update_self .., b, ?_, fun hlog => ?_⟩
      · rw [Function.update_of_ne (by decide), hnet]
      · obtain ⟨done, cur, hfr⟩ := hframed (Bool.and_eq_true_iff.mp hlog).1
        exact ⟨done, cur, hfr.sensor hsamples⟩
  | net =>
      rw [hnet] at hmove
      obtain ⟨b', hnext, rfl⟩ := Option.map_eq_some_iff.mp hmove
      refine ⟨?_, b', Function.update_self .., fun hlog => ?_⟩
      · rw [Function.update_of_ne (by decide), hsensor]
      · obtain ⟨hbefore, hnow⟩ := Bool.and_eq_true_iff.mp hlog
        obtain ⟨done, cur, hfr⟩ := hframed hbefore
        refine hfr.net (wireMoves_of_next hnext) hnow ?_
        intro pkt n he
        obtain rfl : o = .tcpWrite pkt := congrArg Event.op he
        obtain rfl := eq_of_heq (Event.mk.inj he).2
        exact Nat.min_le_right _ _

/-! ### In the order of sampling -/

/-- The numbers are taken one after the other, and samples are queued in that order. -/
structure Sequenced (a : SensorStage) (y : SampleLedger) (s : Firmware) : Prop where
  hand : y.hand = a.hand
  seq : s.seq = .ofNat y.sampled.length
  numbers : y.sampled = (List.range y.sampled.length).map fun k => .ofNat (k + 1)
  accepted : (y.accepted.map Reading.seq ++ y.hand.toList).Sublist y.sampled

section Order

variable {a a' : SensorStage} {y : SampleLedger} {s : Firmware} {o : FwOp}

theorem Sequenced.quiet (hy : Sequenced a y s) (ho : FwQuiet o = true) :
    Sequenced a (y.add ⟨o, (fwHandler o ((), s)).1⟩) (fwHandler o ((), s)).2.2 := by
  obtain ⟨choices, hshared⟩ := fwHandler_quiet ho s
  rw [hshared, SampleLedger.add_quiet y (e := ⟨o, _⟩) ho]
  exact { hy with }

theorem Sequenced.sample (hy : Sequenced a y s) :
    Sequenced (.sampled (s.seq + 1)) (y.add ⟨.nextSeq, s.seq + 1⟩) { s with seq := s.seq + 1 } := by
  have hnext : s.seq + 1 = .ofNat (y.sampled.length + 1) := by
    rw [hy.seq, UInt32.ofNat_add]
    rfl
  refine ⟨rfl, ?_, ?_, ?_⟩
  · show s.seq + 1 = .ofNat (y.sampled ++ [s.seq + 1]).length
    rw [hnext, List.length_append, List.length_singleton]
  · show y.sampled ++ [s.seq + 1] = (List.range (y.sampled ++ [s.seq + 1]).length).map _
    rw [List.length_append, List.length_singleton, List.range_succ, List.map_append, ← hy.numbers, hnext]
    rfl
  · exact List.Sublist.append ((List.sublist_append_left _ _).trans hy.accepted) (List.Sublist.refl _)

theorem Sequenced.sensor (hy : Sequenced a y s) {e : Event FwSig} (hmove : SensorMoves a e a')
    (he : e = ⟨o, (fwHandler o ((), s)).1⟩) : Sequenced a' (y.add e) (fwHandler o ((), s)).2.2 := by
  cases hmove with
  | quiet hquiet =>
      subst he
      exact hy.quiet hquiet
  | sample seq =>
      obtain rfl : FwOp.nextSeq = o := congrArg Event.op he
      obtain rfl : seq = s.seq + 1 := eq_of_heq (Event.mk.inj he).2
      exact hy.sample
  | accept r =>
      obtain rfl : FwOp.xQueueSend r = o := congrArg Event.op he
      have haccepted := hy.accepted
      rw [hy.hand] at haccepted
      refine ⟨rfl, hy.seq, hy.numbers, ?_⟩
      show ((y.accepted ++ [r]).map Reading.seq ++ []).Sublist y.sampled
      rw [List.append_nil, List.map_append]
      exact haccepted
  | refuse r =>
      obtain rfl : FwOp.xQueueSend r = o := congrArg Event.op he
      refine ⟨rfl, hy.seq, hy.numbers, ?_⟩
      show (y.accepted.map Reading.seq ++ []).Sublist y.sampled
      rw [List.append_nil]
      exact (List.sublist_append_left _ _).trans hy.accepted
  | produced u =>
      obtain rfl : FwOp.countProduced = o := congrArg Event.op he
      exact { hy with hand := hy.hand }
  | dropped u =>
      obtain rfl : FwOp.countDropped = o := congrArg Event.op he
      exact { hy with hand := hy.hand }

theorem Sequenced.net (hy : Sequenced a y s) {b b' : NetStage} {e : Event FwSig} (hmove : NetMoves b e b')
    (he : e = ⟨o, (fwHandler o ((), s)).1⟩) : Sequenced a (y.add e) (fwHandler o ((), s)).2.2 := by
  have hwrite : ∀ pkt (n : Nat), (⟨.tcpWrite pkt, n⟩ : Event FwSig) = ⟨o, (fwHandler o ((), s)).1⟩ →
      Sequenced a (y.add ⟨.tcpWrite pkt, n⟩) (fwHandler o ((), s)).2.2 := by
    intro pkt n he
    obtain rfl : FwOp.tcpWrite pkt = o := congrArg Event.op he
    simp only [SampleLedger.add]
    split
    · exact { hy with }
    · split_ifs <;> exact { hy with }
  cases hmove with
  | quiet hquiet =>
      subst he
      exact hy.quiet hquiet
  | empty =>
      obtain rfl : FwOp.xQueueReceive = o := congrArg Event.op he
      exact { hy with }
  | receive r =>
      obtain rfl : FwOp.xQueueReceive = o := congrArg Event.op he
      exact { hy with }
  | hello pkt n => exact hwrite pkt n he
  | write r => exact hwrite _ _ he
  | fail r hn => exact hwrite _ _ he
  | consumed u =>
      obtain rfl : FwOp.countConsumed = o := congrArg Event.op he
      exact { hy with }

end Order

/-- The stage of `sensor_task`, with the ledger in order. -/
def Orderly (st : FwTask → TaskStage) (log : List (FwTask × Event FwSig)) (s : Firmware) : Prop :=
  ∃ a b, st .sensor = .inl a ∧ st .net = .inr b ∧ Sequenced a (ledgerOf log) s

theorem fw_sequenced (choices : FwChoices) (schedule : List FwTask) :
    ∃ a, Sequenced a (ledgerOf (fwRun choices schedule).log) (fwRun choices schedule).shared := by
  have hbegin : ∀ i, BetweenTurns (FwTask.start i) (startStage i) := by
    intro i
    cases i <;> rfl
  suffices hrun : ∃ st, Pool.Monitored TaskStage.next BetweenTurns (fun _ _ => False) startStage Orderly
      (fwRun choices schedule) st by
    obtain ⟨st, hpool⟩ := hrun
    obtain ⟨a, b, -, -, hy⟩ := hpool.holds
    exact ⟨a, hy⟩
  have hstart : Orderly startStage [] (.start choices) :=
    ⟨.resting, .idle, rfl, rfl, ⟨rfl, rfl, rfl, List.Sublist.refl _⟩⟩
  rw [fwRun, ← Pool.gatedRun_open]
  refine Pool.monitored taskBody_follows hbegin hstart ?_ schedule
  intro pool st i o next stage' hpool _ _ hmove
  obtain ⟨a, b, hsensor, hnet, hy⟩ := hpool.holds
  unfold Orderly
  rw [ledgerOf_concat]
  cases i with
  | sensor =>
      rw [hsensor] at hmove
      obtain ⟨a', hnext, rfl⟩ := Option.map_eq_some_iff.mp hmove
      refine ⟨a', b, Function.update_self .., ?_, hy.sensor (sensorMoves_of_next hnext) rfl⟩
      rw [Function.update_of_ne (by decide), hnet]
  | net =>
      rw [hnet] at hmove
      obtain ⟨b', hnext, rfl⟩ := Option.map_eq_some_iff.mp hmove
      refine ⟨a, b', ?_, Function.update_self .., hy.net (netMoves_of_next hnext) rfl⟩
      rw [Function.update_of_ne (by decide), hsensor]

/-- The samples written are in the order of sampling. -/
theorem written_sublist (choices : FwChoices) (schedule : List FwTask) :
    ((ledgerOf (fwRun choices schedule).log).written.map Reading.seq).Sublist
      (ledgerOf (fwRun choices schedule).log).sampled := by
  obtain ⟨a, b, hbal⟩ := fw_balanced choices schedule
  obtain ⟨a', hy⟩ := fw_sequenced choices schedule
  generalize ledgerOf (fwRun choices schedule).log = y at hbal hy
  have hwritten : y.written.Sublist y.accepted := by
    rw [hbal.accepted, List.append_assoc]
    exact (List.filter_sublist.map Prod.fst).trans (List.sublist_append_left _ _)
  exact (hwritten.map Reading.seq).trans ((List.sublist_append_left _ _).trans hy.accepted)

/-- **What goes up.** For every order of the steps of the two tasks, every failure of the sensor, of Wi-Fi, of
connections and of writes, as long as `connected()` is truthful: each TCP connection carries a HELLO and packets of
samples with at most the last packet cut, and the batches of the connections, one after the other, are the samples
counted as written. Their numbers are some of 1, 2, 3 and so on (modulo 2^32), in that order and each once. -/
theorem uplink_framed (choices : FwChoices) (schedule : List FwTask)
    (htrue : truthful .empty (fwRun choices schedule).log = true) :
    ∃ batches : List (List Reading),
      List.Forall₂ CarriesSamples (uplinkOf (fwRun choices schedule).log).streams batches ∧
      batches.flatten = (ledgerOf (fwRun choices schedule).log).written ∧
      ∃ n, (batches.flatten.map Reading.seq).Sublist ((List.range n).map fun k => .ofNat (k + 1)) := by
  obtain ⟨b, done, cur, hfr⟩ := fw_batched choices schedule htrue
  obtain ⟨batches, hcarries, hflat⟩ := hfr.leave
  obtain ⟨a, hy⟩ := fw_sequenced choices schedule
  have hwritten : batches.flatten = (ledgerOf (fwRun choices schedule).log).written := hflat.trans hfr.written.symm
  refine ⟨batches, hcarries, hwritten, (ledgerOf (fwRun choices schedule).log).sampled.length, ?_⟩
  rw [hwritten, ← hy.numbers]
  exact written_sublist choices schedule

/-- The write of the first sample is cut after 5 bytes; the second goes out on a new connection. -/
def flakyLink : FwChoices where
  sensors := [some (2150, 4800), some (2160, 4700)]
  clocks := []
  wifis := []
  connections := [false, false]
  connects := []
  writes := [20, 5]
  reads :=
    let ack := packetBytes PktType.helloAck.code DEVICE_ID [0, 0, 0, 1]
    [some (ack.take 12), some (ack.drop 12), some (ack.take 12), some (ack.drop 12)]
  availables := []

def twoSamples : List FwTask := List.replicate 14 .sensor ++ List.replicate 30 .net

theorem uplink_framed_flaky :
    truthful .empty (fwRun flakyLink twoSamples).log = true ∧
      (ledgerOf (fwRun flakyLink twoSamples).log).written = [⟨2, 0, 2160, 4700⟩] ∧
      (uplinkOf (fwRun flakyLink twoSamples).log).streams.map List.length = [25, 48] ∧
      ∃ batches : List (List Reading),
        List.Forall₂ CarriesSamples (uplinkOf (fwRun flakyLink twoSamples).log).streams batches ∧
        batches.flatten = [⟨2, 0, 2160, 4700⟩] := by
  have htrue : truthful .empty (fwRun flakyLink twoSamples).log = true := by decide +kernel
  have hwritten : (ledgerOf (fwRun flakyLink twoSamples).log).written = [⟨2, 0, 2160, 4700⟩] := by decide +kernel
  obtain ⟨batches, hcarries, hflat, -⟩ := uplink_framed flakyLink twoSamples htrue
  exact ⟨htrue, hwritten, by decide +kernel, batches, hcarries, hflat.trans hwritten⟩

end PulseLink
