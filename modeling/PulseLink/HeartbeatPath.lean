import PulseLink.Daemons
import PulseLink.Firmware
import PulseLink.Heartbeat

/-! The heartbeats from `heartbeat_task` of the firmware to the device table. The network may lose datagrams, repeat
them, deliver them in any order and bring foreign ones. The listener looks a device up once for every accepted
datagram, in the order in which they arrive, and what the firmware sends it accepts. -/

namespace PulseLink

open Bytes

def PL_HEARTBEAT_PACKET_SIZE : Nat := 20

/-! ### `heartbeat_task` -/

inductive BeatOp where
  | vTaskDelay (ms : Nat)
  | wifiConnected
  | millis
  | getFreeHeap
  /-- `beginPacket`, `write` and `endPacket` -/
  | send (datagram : List UInt8)
  deriving DecidableEq, Repr

abbrev BeatOp.Ans : BeatOp → Type
  | .wifiConnected => Bool
  | .millis => UInt32
  | .getFreeHeap => UInt32
  | _ => Unit

abbrev BeatSig : Sig := ⟨BeatOp, BeatOp.Ans⟩

abbrev beat (o : BeatOp) : Proc BeatSig o.Ans := Proc.perform (I := BeatSig) o

/-- The bytes of `pkt` that are sent. -/
def heartbeatPacket (uptimeMs freeHeap : UInt32) : List UInt8 :=
  (plBuildHeartbeat PL_HEARTBEAT_PACKET_SIZE DEVICE_ID uptimeMs freeHeap).getD []

/-- `heartbeat_task`. -/
def heartbeatTask : Loop BeatSig Unit Unit := fun _ => do
  beat (.vTaskDelay 5000)
  let connected ← beat .wifiConnected
  if connected then
    let uptimeMs ← beat .millis
    let freeHeap ← beat .getFreeHeap
    beat (.send (heartbeatPacket uptimeMs freeHeap))
    return .inl ()
  else return .inl ()

/-- What the task will read of the chip. -/
structure Chip where
  connected : List Bool
  clock : List UInt32
  heap : List UInt32
  deriving DecidableEq, Repr

def beatHandler : Handler BeatSig (Unit × Chip)
  | .vTaskDelay _, w => ((), w)
  | .wifiConnected, (u, w) =>
      let r := draw false w.connected
      (r.1, u, { w with connected := r.2 })
  | .millis, (u, w) =>
      let r := draw 0 w.clock
      (r.1, u, { w with clock := r.2 })
  | .getFreeHeap, (u, w) =>
      let r := draw 0 w.heap
      (r.1, u, { w with heap := r.2 })
  | .send _, w => ((), w)

def sentDatagram (e : Event BeatSig) : Option (List UInt8) :=
  match e.op with
  | .send datagram => some datagram
  | _ => none

/-- The datagrams that the task has sent in its first `steps` steps. -/
def heartbeatsSent (chip : Chip) (steps : Nat) : List (List UInt8) :=
  (Pool.eventsOf (Pool.run heartbeatTask beatHandler
    (.start heartbeatTask (fun _ => ()) (fun _ => ()) chip) (List.replicate steps ())).log ()).filterMap sentDatagram

/-- The task sends nothing but heartbeats. -/
def Beats : BeatOp → Prop
  | .send datagram => ∃ uptimeMs freeHeap, datagram = heartbeatPacket uptimeMs freeHeap
  | _ => True

theorem heartbeatTask_beats (u : Unit) : (heartbeatTask u).Uses Beats := by
  refine .perform trivial fun _ => .perform trivial fun connected => ?_
  cases connected with
  | false => exact trivial
  | true =>
      refine .perform trivial fun uptimeMs => .perform trivial fun freeHeap => ?_
      exact .perform ⟨uptimeMs, freeHeap, rfl⟩ fun _ => trivial

theorem mem_heartbeatsSent {chip : Chip} {steps : Nat} {datagram : List UInt8}
    (hsent : datagram ∈ heartbeatsSent chip steps) :
    ∃ uptimeMs freeHeap, datagram = heartbeatPacket uptimeMs freeHeap := by
  obtain ⟨e, he, hdatagram⟩ := List.mem_filterMap.mp hsent
  obtain ⟨turn, u, q, -, hreach, heturn, -⟩ := Pool.turn_of_mem (P := fun (_ : Unit) (_ : Unit) => True)
    (fun _ _ _ _ _ _ => trivial) (fun _ => trivial) (Pool.mem_eventsOf.mp he)
  have hbeats : Beats e.op := (heartbeatTask_beats u).reach hreach e heturn
  obtain ⟨o, ans⟩ := e
  cases o with
  | send pkt =>
      cases hdatagram
      exact hbeats
  | _ => cases hdatagram

theorem heartbeatPacket_eq (uptimeMs freeHeap : UInt32) :
    heartbeatPacket uptimeMs freeHeap =
      packetBytes PktType.heartbeat.code DEVICE_ID (heartbeatPayload uptimeMs freeHeap) := by
  have hbuilt : plBuildHeartbeat PL_HEARTBEAT_PACKET_SIZE DEVICE_ID uptimeMs freeHeap =
      some (packetBytes PktType.heartbeat.code DEVICE_ID (heartbeatPayload uptimeMs freeHeap)) :=
    fwPacket_eq rfl (Nat.le_refl 20)
  rw [heartbeatPacket, hbuilt]
  rfl

/-- What the firmware sends, a listener on a host of either byte order accepts. -/
theorem heartbeatId_heartbeatPacket (host : Endian) (uptimeMs freeHeap : UInt32) :
    heartbeatId host (heartbeatPacket uptimeMs freeHeap) = some DEVICE_ID := by
  rw [heartbeatPacket_eq]
  have hparse : plParseHeader host (packetBytes PktType.heartbeat.code DEVICE_ID (heartbeatPayload uptimeMs freeHeap)) =
      builtHeader PktType.heartbeat.code DEVICE_ID (heartbeatPayload uptimeMs freeHeap) :=
    plParseHeader_wire host _ _
  have hlen : (packetBytes PktType.heartbeat.code DEVICE_ID (heartbeatPayload uptimeMs freeHeap)).length = 20 :=
    length_packetBytes PktType.heartbeat.code DEVICE_ID (heartbeatPayload uptimeMs freeHeap)
  have hdrop : (packetBytes PktType.heartbeat.code DEVICE_ID (heartbeatPayload uptimeMs freeHeap)).drop PL_HDR_SIZE =
      heartbeatPayload uptimeMs freeHeap := List.drop_left' (PlHeader.length_wire _)
  refine (heartbeatId_eq_some hparse).mpr ⟨?_, ?_, ⟨rfl, ?_⟩, rfl, rfl⟩
  · rw [hlen]
    decide
  · rw [hlen]
    exact Nat.le_refl 20
  · rw [hdrop]
    rfl

/-! ### The listener -/

/-- What the listener is to do with the datagram in its hands. -/
inductive UdpStage where
  | idle
  | due (id : UInt32)
  | looked (id : UInt32)
  deriving DecidableEq, Repr

namespace UdpStage

/-- After a `recvfrom`, by the id that the checks found. -/
def heard : Option UInt32 → UdpStage
  | none => .idle
  | some id => .due id

def next (host : Endian) : Monitor DaemonSig UdpStage
  | .idle, ⟨.loadRunning, _⟩ => some .idle
  | .looked _, ⟨.loadRunning, _⟩ => some .idle
  | .idle, ⟨.recvfrom, got⟩ => some (heard (got.bind (heartbeatId host)))
  | .due id, ⟨.traffic (.server .time), _⟩ => some (.due id)
  | .due id, ⟨.traffic (.server (.find id')), _⟩ => if id' = id then some (.looked id) else none
  | .looked id, ⟨.traffic (.server (.insert id' _)), _⟩ => if id' = id then some (.looked id) else none
  | .looked id, ⟨.traffic (.server (.returned _ _)), _⟩ => some (.looked id)
  | .looked id, ⟨.traffic (.server (.device _ _)), _⟩ => some (.looked id)
  | _, _ => none

/-- Neither a datagram nor a look into the table. -/
def quiet : DaemonOp → Bool
  | .recvfrom => false
  | .traffic (.server (.find _)) => false
  | .traffic (.server (.insert _ _)) => false
  | _ => true

/-- The id that is still to be looked up. -/
def pending : UdpStage → Option UInt32
  | .due id => some id
  | _ => none

theorem pending_heard (id : Option UInt32) : (heard id).pending = id := by
  cases id <;> rfl

inductive Moves (host : Endian) : UdpStage → Event DaemonSig → UdpStage → Prop where
  | receive (got : Option (List UInt8)) :
      Moves host .idle ⟨.recvfrom, got⟩ (heard (got.bind (heartbeatId host)))
  | find (id : UInt32) (hit : Option Nat) : Moves host (.due id) ⟨.traffic (.server (.find id)), hit⟩ (.looked id)
  | insert (id sessionId : UInt32) (r : Insertion) :
      Moves host (.looked id) ⟨.traffic (.server (.insert id sessionId)), r⟩ (.looked id)
  | quiet {stage : UdpStage} {e : Event DaemonSig} (hquiet : quiet e.op = true) : Moves host stage e stage
  | top {id : UInt32} {running : Bool} : Moves host (.looked id) ⟨.loadRunning, running⟩ .idle

theorem moves_of_next {host : Endian} {stage stage' : UdpStage} {e : Event DaemonSig}
    (hmove : next host stage e = some stage') : Moves host stage e stage' := by
  obtain ⟨o, ans⟩ := e
  cases stage with
  | idle =>
      cases o with
      | loadRunning => cases hmove; exact .quiet rfl
      | recvfrom => cases hmove; exact .receive ans
      | _ => cases hmove
  | due id =>
      cases o with
      | traffic o =>
          cases o with
          | server o =>
              cases o with
              | time => cases hmove; exact .quiet rfl
              | find id' =>
                  obtain ⟨rfl, hnext⟩ := Option.ite_none_right_eq_some.mp hmove
                  cases hnext
                  exact .find id' ans
              | _ => cases hmove
          | _ => cases hmove
      | _ => cases hmove
  | looked id =>
      cases o with
      | loadRunning => cases hmove; exact .top
      | traffic o =>
          cases o with
          | server o =>
              cases o with
              | insert id' sessionId =>
                  obtain ⟨rfl, hnext⟩ := Option.ite_none_right_eq_some.mp hmove
                  cases hnext
                  exact .insert id' sessionId ans
              | returned id' dev => cases hmove; exact .quiet rfl
              | device p a => cases hmove; exact .quiet rfl
              | _ => cases hmove
          | _ => cases hmove
      | _ => cases hmove

end UdpStage

/-- Between two turns nothing is pending. -/
def UdpAt (pc : DaemonPc) (stage : UdpStage) : Prop := pc = .udp ∧ stage.pending = none

theorem dtTouch_follows (host : Endian) (id : UInt32) (now : Int) :
    (onTable (onServer (dtTouch id now))).Follows (UdpStage.next host) (fun stage _ => stage = .looked id)
      (.due id) := by
  intro hit
  refine ⟨.looked id, if_pos rfl, ?_⟩
  cases hit with
  | some p => exact fun _ => ⟨_, rfl, fun _ => ⟨_, rfl, fun _ => ⟨_, rfl, rfl⟩⟩⟩
  | none =>
      intro r
      refine ⟨.looked id, if_pos rfl, ?_⟩
      cases r with
      | found p => exact fun _ => ⟨_, rfl, fun _ => ⟨_, rfl, fun _ => ⟨_, rfl, rfl⟩⟩⟩
      | inserted p => exact fun _ => ⟨_, rfl, fun _ => ⟨_, rfl, fun _ => ⟨_, rfl, rfl⟩⟩⟩
      | noMemory => exact fun _ => ⟨_, rfl, rfl⟩

theorem udpTurn_follows (host : Endian) (got : Option (List UInt8)) :
    (onTable (onServer (udpTurn host got))).Follows (UdpStage.next host) (fun stage _ => stage.pending = none)
      (.heard (got.bind (heartbeatId host))) := by
  unfold udpTurn
  cases got.bind (heartbeatId host) with
  | none => exact rfl
  | some id =>
      refine fun now => ⟨.due id, rfl, (dtTouch_follows host id now).mono ?_⟩
      rintro stage _ rfl
      rfl

theorem udp_follows (host : Endian) (pc : DaemonPc) (stage : UdpStage) (hat : UdpAt pc stage) :
    (daemonBody host pc).Follows (UdpStage.next host)
      (Monitor.Turned UdpAt fun _ stage => stage.pending = none) stage := by
  obtain ⟨rfl, hpending⟩ := hat
  intro running
  have htop : UdpStage.next host stage ⟨.loadRunning, running⟩ = some .idle := by
    cases stage with
    | due id => cases hpending
    | _ => rfl
  refine ⟨.idle, htop, ?_⟩
  cases running with
  | false => exact rfl
  | true =>
      refine fun got => ⟨_, rfl, (udpTurn_follows host got).bind ?_⟩
      exact fun stage _ hstage => ⟨rfl, hstage⟩

/-! ### The listener's books -/

def receivedDatagram : Event DaemonSig → Option (List UInt8)
  | ⟨.recvfrom, got⟩ => got
  | _ => none

def lookedUp (e : Event DaemonSig) : Option UInt32 :=
  match e.op with
  | .traffic (.server (.find id)) => some id
  | _ => none

def insertedId (e : Event DaemonSig) : Option UInt32 :=
  match e.op with
  | .traffic (.server (.insert id _)) => some id
  | _ => none

/-- The lookups are the accepted datagrams in their order, and nothing is inserted that was not looked up. -/
structure UdpBooks (host : Endian) (stage : UdpStage) (t : List (Event DaemonSig)) : Prop where
  order : t.filterMap lookedUp ++ stage.pending.toList =
    (t.filterMap receivedDatagram).filterMap (heartbeatId host)
  current : ∀ id, stage = .looked id → id ∈ t.filterMap lookedUp
  inserted : ∀ id ∈ t.filterMap insertedId, id ∈ t.filterMap lookedUp

theorem quiet_reads {e : Event DaemonSig} (hquiet : UdpStage.quiet e.op = true) :
    receivedDatagram e = none ∧ lookedUp e = none ∧ insertedId e = none := by
  obtain ⟨o, ans⟩ := e
  cases o with
  | recvfrom => cases hquiet
  | traffic o =>
      cases o with
      | server o =>
          cases o with
          | find id => cases hquiet
          | insert id sessionId => cases hquiet
          | _ => exact ⟨rfl, rfl, rfl⟩
      | _ => exact ⟨rfl, rfl, rfl⟩
  | _ => exact ⟨rfl, rfl, rfl⟩

/-- An event that is not in the books, and a stage with nothing more to do. -/
theorem UdpBooks.skip {host : Endian} {stage stage' : UdpStage} {t : List (Event DaemonSig)}
    (hbooks : UdpBooks host stage t) {e : Event DaemonSig} (hquiet : UdpStage.quiet e.op = true)
    (hpending : stage'.pending = stage.pending) (hlooked : ∀ id, stage' = .looked id → stage = .looked id) :
    UdpBooks host stage' (t ++ [e]) := by
  obtain ⟨hreceived, hlookup, hinsert⟩ := quiet_reads hquiet
  constructor
  · rw [filterMap_concat, filterMap_concat, hreceived, hlookup, hpending]
    show t.filterMap lookedUp ++ [] ++ _ = (t.filterMap receivedDatagram ++ []).filterMap (heartbeatId host)
    rw [List.append_nil, List.append_nil, hbooks.order]
  · intro id hid
    rw [filterMap_concat]
    exact List.mem_append_left _ (hbooks.current id (hlooked id hid))
  · rw [filterMap_concat, filterMap_concat, hlookup, hinsert, Option.toList_none, List.append_nil, List.append_nil]
    exact hbooks.inserted

theorem UdpBooks.step {host : Endian} {stage stage' : UdpStage} {t : List (Event DaemonSig)} {e : Event DaemonSig}
    (hbooks : UdpBooks host stage t) (hmove : UdpStage.next host stage e = some stage') :
    UdpBooks host stage' (t ++ [e]) := by
  have horder := hbooks.order
  cases UdpStage.moves_of_next hmove with
  | quiet hquiet => exact hbooks.skip hquiet rfl fun _ h => h
  | top => exact hbooks.skip rfl rfl fun id h => by cases h
  | receive got =>
      constructor
      · -- nothing was pending, and the new id is
        have hnew : ((receivedDatagram ⟨.recvfrom, got⟩).toList).filterMap (heartbeatId host) =
            (got.bind (heartbeatId host)).toList := by
          cases got with
          | none => rfl
          | some bytes =>
              show [bytes].filterMap (heartbeatId host) = (heartbeatId host bytes).toList
              exact filterMap_concat (heartbeatId host) [] bytes
        rw [filterMap_concat, filterMap_concat, List.filterMap_append, hnew, ← horder, UdpStage.pending_heard]
        rfl
      · intro id hid
        cases hheard : got.bind (heartbeatId host) with
        | none => rw [hheard] at hid; cases hid
        | some id' => rw [hheard] at hid; cases hid
      · rw [filterMap_concat, filterMap_concat]
        show ∀ id ∈ t.filterMap insertedId ++ [], id ∈ t.filterMap lookedUp ++ []
        rw [List.append_nil, List.append_nil]
        exact hbooks.inserted
  | find id hit =>
      have hlooked : (t ++ [(⟨.traffic (.server (.find id)), hit⟩ : Event DaemonSig)]).filterMap lookedUp =
          t.filterMap lookedUp ++ [id] := filterMap_concat lookedUp t _
      constructor
      · rw [hlooked, filterMap_concat]
        show t.filterMap lookedUp ++ [id] ++ [] = (t.filterMap receivedDatagram ++ []).filterMap (heartbeatId host)
        rw [List.append_nil, List.append_nil]
        exact horder
      · rintro id' hid
        cases hid
        rw [hlooked]
        exact List.mem_append_right _ (List.mem_singleton_self id)
      · rw [hlooked, filterMap_concat]
        intro id' hid
        rcases List.mem_append.mp hid with hid | hid
        · exact List.mem_append_left _ (hbooks.inserted id' hid)
        · cases hid
  | insert id sessionId r =>
      have hlooked : (t ++ [(⟨.traffic (.server (.insert id sessionId)), r⟩ : Event DaemonSig)]).filterMap lookedUp =
          t.filterMap lookedUp := (filterMap_concat lookedUp t _).trans (List.append_nil _)
      constructor
      · rw [hlooked, filterMap_concat]
        show t.filterMap lookedUp ++ [] = (t.filterMap receivedDatagram ++ []).filterMap (heartbeatId host)
        rw [List.append_nil (t.filterMap receivedDatagram)]
        exact horder
      · rw [hlooked]
        exact hbooks.current
      · rw [hlooked, filterMap_concat]
        intro id' hid
        rcases List.mem_append.mp hid with hid | hid
        · exact hbooks.inserted id' hid
        · obtain rfl : id' = id := List.mem_singleton.mp hid
          exact hbooks.current id' rfl

/-! ### From the device to the table -/

section Path

variable {ι : Type} [DecidableEq ι]

theorem udp_books (host : Endian) (kinds : ι → DaemonKind) (conns : ι → Conn)
    (datagrams : List (Option (List UInt8))) (ctx : ServerCtx) (schedule : List ι) {i : ι} (hudp : kinds i = .udp) :
    ∃ stage, UdpBooks host stage (Pool.eventsOf (daemonRun host kinds conns datagrams ctx schedule).log i) := by
  have hstands := Pool.thread_stands (daemonBody host) daemonHandler (fun i => (kinds i).start) conns
    (.start datagrams ctx) schedule i
  have hstart : UdpAt (kinds i).start .idle := by
    rw [hudp]
    exact ⟨rfl, rfl⟩
  obtain ⟨stage, haccepts, -⟩ := hstands.accepts (udp_follows host) hstart
  have hempty : UdpBooks host .idle [] := ⟨rfl, (fun _ h => by cases h), fun _ h => by cases h⟩
  exact ⟨stage, haccepts.keeps (P := UdpBooks host) (fun _ _ _ _ hbooks hmove => hbooks.step hmove) hempty⟩

/-- A thread receives only what the network delivers. -/
theorem received_delivered (host : Endian) (kinds : ι → DaemonKind) (conns : ι → Conn)
    (datagrams : List (Option (List UInt8))) (ctx : ServerCtx) (schedule : List ι) {i : ι} :
    ∀ bytes ∈ (Pool.eventsOf (daemonRun host kinds conns datagrams ctx schedule).log i).filterMap receivedDatagram,
      some bytes ∈ datagrams := by
  let Delivers (log : List (ι × Event DaemonSig)) (w : Daemons) : Prop :=
    (∀ entry ∈ log, ∀ bytes, receivedDatagram entry.2 = some bytes → some bytes ∈ datagrams) ∧
      ∀ d ∈ w.datagrams, d = none ∨ d ∈ datagrams
  have hstep : ∀ log w i o conn, Delivers log w →
      Delivers (log ++ [(i, ⟨o, (daemonHandler o (conn, w)).1⟩)]) (daemonHandler o (conn, w)).2.2 := by
    intro log w i o conn ⟨hlog, hrest⟩
    have hdraw := draw_all (P := fun d => d = none ∨ d ∈ datagrams) (Or.inl rfl) hrest
    refine ⟨?_, ?_⟩
    · intro entry hentry bytes hbytes
      rcases List.mem_append.mp hentry with hentry | hentry
      · exact hlog entry hentry bytes hbytes
      · rw [List.mem_singleton.mp hentry] at hbytes
        cases o with
        | recvfrom =>
            have hgot : (draw none w.datagrams).1 = some bytes := hbytes
            rcases hdraw.1 with hnone | hmem
            · rw [hnone] at hgot
              cases hgot
            · rwa [hgot] at hmem
        | _ => cases hbytes
    · cases o with
      | recvfrom => exact hdraw.2
      | _ => exact hrest
  have hrun : Delivers (daemonRun host kinds conns datagrams ctx schedule).log _ :=
    Pool.shared_invariant (daemonBody host) daemonHandler Delivers hstep
      ⟨(fun _ h => by cases h), fun d hd => Or.inr hd⟩ schedule
  intro bytes hbytes
  obtain ⟨e, he, hreceived⟩ := List.mem_filterMap.mp hbytes
  exact hrun.1 (i, e) (Pool.mem_eventsOf.mp he) bytes hreceived

/-- **Heartbeats over a network that loses, repeats, reorders and adds.** Of the datagrams that arrive, each is one
that `heartbeat_task` sent at some time or one that the listener's checks refuse. Then in any interleaving of the
server's threads the listener looks up no device but the firmware's, and creates no other; and it has looked it up
once for every datagram of the firmware that it has received, but for the last one, which it may be about to. -/
theorem heartbeats_arrive (host : Endian) (chip : Chip) (steps : Nat) (kinds : ι → DaemonKind) (conns : ι → Conn)
    (datagrams : List (Option (List UInt8))) (ctx : ServerCtx) (schedule : List ι) (i : ι) (hudp : kinds i = .udp)
    (hnetwork : ∀ bytes, some bytes ∈ datagrams →
      bytes ∈ heartbeatsSent chip steps ∨ heartbeatId host bytes = none) :
    let events := Pool.eventsOf (daemonRun host kinds conns datagrams ctx schedule).log i
    (∀ id ∈ events.filterMap lookedUp, id = DEVICE_ID) ∧ (∀ id ∈ events.filterMap insertedId, id = DEVICE_ID) ∧
      ∃ due ≤ 1, (events.filterMap lookedUp).length + due =
        (events.filterMap receivedDatagram).countP (· ∈ heartbeatsSent chip steps) := by
  intro events
  obtain ⟨stage, hbooks⟩ := udp_books host kinds conns datagrams ctx schedule hudp
  have hreceived := received_delivered host kinds conns datagrams ctx schedule (i := i)
  -- the firmware's datagrams are the accepted ones
  have haccepted : ∀ bytes ∈ events.filterMap receivedDatagram,
      heartbeatId host bytes = if bytes ∈ heartbeatsSent chip steps then some DEVICE_ID else none := by
    intro bytes hbytes
    by_cases hsent : bytes ∈ heartbeatsSent chip steps
    · obtain ⟨uptimeMs, freeHeap, rfl⟩ := mem_heartbeatsSent hsent
      rw [if_pos hsent, heartbeatId_heartbeatPacket]
    · rw [if_neg hsent]
      exact (hnetwork bytes (hreceived bytes hbytes)).resolve_left hsent
  have hids : ∀ id ∈ (events.filterMap receivedDatagram).filterMap (heartbeatId host), id = DEVICE_ID := by
    intro id hid
    obtain ⟨bytes, hbytes, hsome⟩ := List.mem_filterMap.mp hid
    rw [haccepted bytes hbytes] at hsome
    exact (Option.some.inj (Option.ite_none_right_eq_some.mp hsome).2).symm
  have hlooked : ∀ id ∈ events.filterMap lookedUp, id = DEVICE_ID := by
    intro id hid
    apply hids
    rw [← hbooks.order]
    exact List.mem_append_left _ hid
  refine ⟨hlooked, fun id hid => hlooked id (hbooks.inserted id hid), stage.pending.toList.length, ?_, ?_⟩
  · cases stage.pending <;> simp
  · calc (events.filterMap lookedUp).length + stage.pending.toList.length
      _ = ((events.filterMap receivedDatagram).filterMap (heartbeatId host)).length := by
          rw [← hbooks.order, List.length_append]
      _ = (events.filterMap receivedDatagram).countP fun bytes => (heartbeatId host bytes).isSome :=
          List.length_filterMap_eq_countP
      _ = (events.filterMap receivedDatagram).countP (· ∈ heartbeatsSent chip steps) := by
          apply List.countP_congr
          intro bytes hbytes
          rw [haccepted bytes hbytes]
          split_ifs with hsent
          · simp [hsent]
          · simp [hsent]

end Path

/-- A chip that is off the network in its second turn. -/
def beatingChip : Chip := ⟨[true, false, true], [5000, 15000], [200000, 190000]⟩

/-- The second heartbeat is delivered twice and before the first one; a stray byte comes between. -/
def unruly : List (Option (List UInt8)) :=
  [some (heartbeatPacket 15000 190000), none, some [0x50], some (heartbeatPacket 5000 200000),
    some (heartbeatPacket 15000 190000)]

theorem heartbeats_arrive_unruly :
    ∃ due ≤ 1, ((Pool.eventsOf (daemonRun .little (fun _ : Unit => .udp) (fun _ => scripted []) unruly freshServer
      (List.replicate 40 ())).log ()).filterMap lookedUp).length + due = 3 := by
  have hall : ∀ bytes ∈ unruly.reduceOption,
      bytes ∈ heartbeatsSent beatingChip 20 ∨ heartbeatId .little bytes = none := by decide +kernel
  obtain ⟨-, -, due, hdue, hcount⟩ := heartbeats_arrive .little beatingChip 20 (fun _ : Unit => .udp)
    (fun _ => scripted []) unruly freshServer (List.replicate 40 ()) () rfl
    fun bytes hbytes => hall bytes (List.reduceOption_mem_iff.mpr hbytes)
  exact ⟨due, hdue, hcount.trans (by decide +kernel)⟩

end PulseLink
