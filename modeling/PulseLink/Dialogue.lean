import PulseLink.BaseMonitor
import PulseLink.WorkerPath

/-! The dialogue of one connection as a small state machine: wait for a HELLO, draw a session, look up the
device, answer, and from then on serve packets, each of which adds to a counter of the device or not. The
worker follows it, whatever its peer sends, the environment answers and the other threads do. -/

namespace PulseLink

/-! ### The state machine -/

/-- A packet that passes the checks on magic, version, length and checksum. -/
structure Passes (h : PlHeader) (payload : List UInt8) : Prop where
  magic : h.magic = PL_MAGIC
  version : h.version = PL_VERSION
  length : h.payloadLen ≤ PL_MAX_PAYLOAD ∧ payload.length = h.payloadLen.toNat
  checksum : plChecksum payload = h.checksum

instance (h : PlHeader) (payload : List UInt8) : Decidable (Passes h payload) :=
  decidable_of_iff (h.magic = PL_MAGIC ∧ h.version = PL_VERSION ∧
      (h.payloadLen ≤ PL_MAX_PAYLOAD ∧ payload.length = h.payloadLen.toNat) ∧ plChecksum payload = h.checksum)
    ⟨fun ⟨h₁, h₂, h₃, h₄⟩ => ⟨h₁, h₂, h₃, h₄⟩, fun ⟨h₁, h₂, h₃, h₄⟩ => ⟨h₁, h₂, h₃, h₄⟩⟩

/-- The counter a packet or a chunk handled in state ACTIVE has to be added to. -/
def owed : Event ServerSig → Option DevAtomic
  | ⟨.decided _ (.rejected _), _⟩ => some .addBad
  | ⟨.decided h (.accepted _), _⟩ =>
      if h.type = PktType.sensor.code then some .addOk
      else if h.type = PktType.frame.code ∨ h.type = PktType.hello.code then none
      else some .addBad
  | ⟨.fed .malformed, _⟩ => some .addBad
  | _ => none

/-- Where a connection is in the dialogue. -/
inductive Stage where
  | waiting
  | greeted (h : PlHeader)
  /-- looking up the device; `told` is what the lookup or the insertion named, once it has -/
  | granted (h : PlHeader) (sessionId : UInt32) (told : Option (Option Nat))
  | bound (h : PlHeader) (sessionId : UInt32) (dev : Option Nat)
  /-- serving packets for the device `dev`, with an addition to one of its counters possibly still due -/
  | serving (dev : Option Nat) (due : Option DevAtomic)
  /-- leaving, with exactly these operations to come -/
  | refused (todo : List ServerOp)

/-- What the worker does with a first packet that is no HELLO. -/
def refusal (h : PlHeader) : List ServerOp :=
  [.writeN (errorPacket h.deviceId .noHello), .closeFd, .semPost, .activeSub, .freeArg]

/-- What is allowed before the HELLO: receiving, rejecting, cleaning up. -/
def Waiting : ServerOp → Bool
  | .activeAdd | .loadRunning | .readN _ => true
  | .writeN bs => bs.getD 3 0 ≠ PktType.helloAck.code
  | .decided _ (.rejected _) => true
  | .closeFd | .semPost | .activeSub | .freeArg => true
  | _ => false

/-- What is allowed after the handshake: the device stays, no second HELLO_ACK is sent, and nothing new is
decided and no turn ends while an addition is due. -/
def Stage.serve (dev : Option Nat) (due : Option DevAtomic) (e : Event ServerSig) : Option (Option DevAtomic) :=
  match e.op with
  | .device p a =>
      if dev ≠ some p then none
      else if a = .addOk ∨ a = .addBad then if due = some a then some none else none
      else some due
  | .nextSession | .find _ | .insert _ _ | .returned _ _ | .activeAdd => none
  | .writeN bs => if bs.getD 3 0 = PktType.helloAck.code then none else some due
  | .decided h (.accepted payload) =>
      if due = none ∧ Passes h payload then some (dev.bind fun _ => owed e) else none
  | .decided _ (.rejected _) | .fed _ => if due = none then some (dev.bind fun _ => owed e) else none
  | .time | .nowNs | .writeRecord _ | .frameAlloc | .imageAlloc | .writeFile _ _ => some due
  | .loadRunning | .readN _ | .closeFd | .semPost | .activeSub | .freeArg =>
      if due = none then some none else none

/-- The moves of the dialogue. -/
def Stage.next : Monitor ServerSig Stage
  | .waiting, ⟨.decided h (.accepted payload), _⟩ =>
      if ¬ Passes h payload then none
      else if h.type = PktType.hello.code then some (.greeted h)
      else some (.refused (refusal h))
  | .waiting, e => if Waiting e.op then some .waiting else none
  | .greeted h, ⟨.nextSession, sessionId⟩ => some (.granted h sessionId none)
  | .granted h sessionId none, ⟨.find id, hit⟩ =>
      if id = h.deviceId then some (.granted h sessionId (hit.map some)) else none
  | .granted h sessionId none, ⟨.insert id s, r⟩ =>
      if id = h.deviceId ∧ s = sessionId then some (.granted h sessionId (some r.device)) else none
  | .granted h sessionId (some told), ⟨.returned id dev, _⟩ =>
      if id = h.deviceId ∧ dev = told then some (.bound h sessionId dev) else none
  | .bound h sessionId dev, ⟨.writeN bs, _⟩ =>
      if bs = helloAckPacket h.deviceId sessionId then some (.serving dev none) else none
  | .serving dev due, e => (Stage.serve dev due e).map (.serving dev)
  | .refused (o :: todo), e => if e.op = o then some (.refused todo) else none
  | _, _ => none

section Equations

variable (h : PlHeader) (sessionId : UInt32) (dev : Option Nat) (due : Option DevAtomic)

theorem Stage.serve_device (p : Nat) (a : DevAtomic) (ans : (ServerOp.device p a).Ans) :
    Stage.serve dev due ⟨.device p a, ans⟩ =
      if dev ≠ some p then none
      else if a = .addOk ∨ a = .addBad then if due = some a then some none else none
      else some due :=
  rfl

theorem Stage.serve_writeN (bs : List UInt8) (sent : Bool) :
    Stage.serve dev due ⟨.writeN bs, sent⟩ =
      if bs.getD 3 0 = PktType.helloAck.code then none else some due :=
  rfl

theorem Stage.serve_accepted (payload : List UInt8) :
    Stage.serve dev due ⟨.decided h (.accepted payload), ()⟩ =
      if due = none ∧ Passes h payload then
        some (dev.bind fun _ => owed ⟨.decided h (.accepted payload), ()⟩)
      else none :=
  rfl

theorem Stage.next_accepted (payload : List UInt8) :
    Stage.waiting.next ⟨.decided h (.accepted payload), ()⟩ =
      if ¬ Passes h payload then none
      else if h.type = PktType.hello.code then some (.greeted h)
      else some (.refused (refusal h)) :=
  rfl

theorem Stage.next_find (id : UInt32) (hit : Option Nat) :
    (Stage.granted h sessionId none).next ⟨.find id, hit⟩ =
      if id = h.deviceId then some (.granted h sessionId (hit.map some)) else none :=
  rfl

theorem Stage.next_insert (id s : UInt32) (r : Insertion) :
    (Stage.granted h sessionId none).next ⟨.insert id s, r⟩ =
      if id = h.deviceId ∧ s = sessionId then some (.granted h sessionId (some r.device)) else none :=
  rfl

theorem Stage.next_returned (told : Option Nat) (id : UInt32) :
    (Stage.granted h sessionId (some told)).next ⟨.returned id dev, ()⟩ =
      if id = h.deviceId ∧ dev = told then some (.bound h sessionId dev) else none :=
  rfl

theorem Stage.next_bound (bs : List UInt8) (sent : Bool) :
    (Stage.bound h sessionId dev).next ⟨.writeN bs, sent⟩ =
      if bs = helloAckPacket h.deviceId sessionId then some (.serving dev none) else none :=
  rfl

theorem Stage.next_serving (e : Event ServerSig) :
    (Stage.serving dev due).next e = (Stage.serve dev due e).map (.serving dev) :=
  rfl

theorem Stage.next_refused (o : ServerOp) (todo : List ServerOp) (e : Event ServerSig) :
    (Stage.refused (o :: todo)).next e = if e.op = o then some (.refused todo) else none :=
  rfl

end Equations

/-! ### What a move can be -/

/-- The operations that do not matter to the dialogue once the HELLO has been answered. -/
def Aside : ServerOp → Prop
  | .writeN bs => bs.getD 3 0 ≠ PktType.helloAck.code
  | .time | .nowNs | .writeRecord _ | .frameAlloc | .imageAlloc | .writeFile _ _ => True
  | .loadRunning | .readN _ | .closeFd | .semPost | .activeSub | .freeArg => True
  | _ => False

/-- The moves while serving. -/
inductive Serves (dev : Option Nat) : Option DevAtomic → Event ServerSig → Option DevAtomic → Prop where
  | aside {e : Event ServerSig} (due : Option DevAtomic) (he : Aside e.op) : Serves dev due e due
  | store {p : Nat} {a : DevAtomic} (due : Option DevAtomic) (hdev : dev = some p) (hok : a ≠ .addOk)
      (hbad : a ≠ .addBad) : Serves dev due ⟨.device p a, ()⟩ due
  | count {p : Nat} {a : DevAtomic} (hdev : dev = some p) (ha : a = .addOk ∨ a = .addBad) :
      Serves dev (some a) ⟨.device p a, ()⟩ none
  | accept {h : PlHeader} {payload : List UInt8} (hpasses : Passes h payload) :
      Serves dev none ⟨.decided h (.accepted payload), ()⟩
        (dev.bind fun _ => owed ⟨.decided h (.accepted payload), ()⟩)
  | reject (h : PlHeader) (e : PlError) :
      Serves dev none ⟨.decided h (.rejected e), ()⟩ (dev.bind fun _ => some .addBad)
  | feed (r : FeedResult) : Serves dev none ⟨.fed r, ()⟩ (dev.bind fun _ => owed ⟨.fed r, ()⟩)

theorem serves_of_serve {dev : Option Nat} {due due' : Option DevAtomic} {e : Event ServerSig}
    (hserve : Stage.serve dev due e = some due') : Serves dev due e due' := by
  obtain ⟨o, ans⟩ := e
  cases o with
  | device p a =>
      rw [Stage.serve_device] at hserve
      split_ifs at hserve with hdev ha hdue
      · cases hserve
        subst hdue
        exact .count (not_not.mp hdev) ha
      · cases hserve
        exact .store due (not_not.mp hdev) (fun h => ha (Or.inl h)) fun h => ha (Or.inr h)
  | writeN bs =>
      rw [Stage.serve_writeN] at hserve
      split_ifs at hserve with htype
      cases hserve
      exact .aside due htype
  | decided h v =>
      cases v with
      | accepted payload =>
          rw [Stage.serve_accepted] at hserve
          split_ifs at hserve with hif
          cases hserve
          obtain ⟨rfl, hpasses⟩ := hif
          exact .accept hpasses
      | rejected e =>
          obtain ⟨rfl, howed⟩ := Option.ite_none_right_eq_some.mp hserve
          cases howed
          exact .reject h e
  | fed r =>
      obtain ⟨rfl, howed⟩ := Option.ite_none_right_eq_some.mp hserve
      cases howed
      exact .feed r
  | activeAdd | nextSession | find | insert | returned => cases hserve
  | time | nowNs | writeRecord | frameAlloc | imageAlloc | writeFile =>
      cases hserve
      exact .aside due trivial
  | loadRunning | readN | closeFd | semPost | activeSub | freeArg =>
      obtain ⟨rfl, hnone⟩ := Option.ite_none_right_eq_some.mp hserve
      cases hnone
      exact .aside none trivial

/-- The moves of the dialogue. -/
inductive Moves : Stage → Event ServerSig → Stage → Prop where
  | wait {e : Event ServerSig} (he : Waiting e.op = true) : Moves .waiting e .waiting
  | greet {h : PlHeader} {payload : List UInt8} (hpasses : Passes h payload)
      (htype : h.type = PktType.hello.code) :
      Moves .waiting ⟨.decided h (.accepted payload), ()⟩ (.greeted h)
  | refuse {h : PlHeader} {payload : List UInt8} (hpasses : Passes h payload)
      (htype : h.type ≠ PktType.hello.code) :
      Moves .waiting ⟨.decided h (.accepted payload), ()⟩ (.refused (refusal h))
  | grant (h : PlHeader) (sessionId : UInt32) :
      Moves (.greeted h) ⟨.nextSession, sessionId⟩ (.granted h sessionId none)
  | find (h : PlHeader) (sessionId : UInt32) (hit : Option Nat) :
      Moves (.granted h sessionId none) ⟨.find h.deviceId, hit⟩ (.granted h sessionId (hit.map some))
  | insert (h : PlHeader) (sessionId : UInt32) (r : Insertion) :
      Moves (.granted h sessionId none) ⟨.insert h.deviceId sessionId, r⟩
        (.granted h sessionId (some r.device))
  | bind (h : PlHeader) (sessionId : UInt32) (dev : Option Nat) :
      Moves (.granted h sessionId (some dev)) ⟨.returned h.deviceId dev, ()⟩ (.bound h sessionId dev)
  | answer (h : PlHeader) (sessionId : UInt32) (dev : Option Nat) (sent : Bool) :
      Moves (.bound h sessionId dev) ⟨.writeN (helloAckPacket h.deviceId sessionId), sent⟩ (.serving dev none)
  | serve {dev : Option Nat} {due due' : Option DevAtomic} {e : Event ServerSig}
      (hserves : Serves dev due e due') : Moves (.serving dev due) e (.serving dev due')
  | leave {o : ServerOp} {todo : List ServerOp} {e : Event ServerSig} (he : e.op = o) :
      Moves (.refused (o :: todo)) e (.refused todo)

theorem next_waiting {e : Event ServerSig} (hne : ∀ h payload, e.op ≠ .decided h (.accepted payload)) :
    Stage.waiting.next e = if Waiting e.op then some .waiting else none := by
  obtain ⟨o, ans⟩ := e
  cases o with
  | decided h v =>
      cases v with
      | accepted payload => exact absurd rfl (hne h payload)
      | rejected e => rfl
  | _ => rfl

theorem moves_waiting {e : Event ServerSig} {st' : Stage} (hnext : Stage.waiting.next e = some st') :
    Moves .waiting e st' := by
  by_cases haccepted : ∃ h payload, e.op = .decided h (.accepted payload)
  · obtain ⟨o, ans⟩ := e
    obtain ⟨h, payload, ho⟩ := haccepted
    cases ho
    rw [Stage.next_accepted] at hnext
    split_ifs at hnext with hpasses htype
    · cases hnext
      exact .greet hpasses htype
    · cases hnext
      exact .refuse hpasses htype
  · rw [next_waiting fun h payload he => haccepted ⟨h, payload, he⟩] at hnext
    split_ifs at hnext with hwaiting
    cases hnext
    exact .wait hwaiting

theorem moves_granted {h : PlHeader} {sessionId : UInt32} {told : Option (Option Nat)} {e : Event ServerSig}
    {st' : Stage} (hnext : (Stage.granted h sessionId told).next e = some st') :
    Moves (.granted h sessionId told) e st' := by
  obtain ⟨o, ans⟩ := e
  cases told with
  | none =>
      cases o with
      | find id =>
          rw [Stage.next_find] at hnext
          split_ifs at hnext with hid
          cases hnext
          subst hid
          exact .find h sessionId ans
      | insert id sid =>
          rw [Stage.next_insert] at hnext
          split_ifs at hnext with hif
          cases hnext
          obtain ⟨rfl, rfl⟩ := hif
          exact .insert h sid ans
      | _ => cases hnext
  | some dev =>
      cases o with
      | returned id dev' =>
          rw [Stage.next_returned] at hnext
          split_ifs at hnext with hif
          cases hnext
          obtain ⟨rfl, rfl⟩ := hif
          exact .bind h sessionId dev'
      | _ => cases hnext

theorem moves_of_next {st st' : Stage} {e : Event ServerSig} (hnext : st.next e = some st') :
    Moves st e st' := by
  cases st with
  | waiting => exact moves_waiting hnext
  | greeted h =>
      obtain ⟨o, ans⟩ := e
      cases o with
      | nextSession =>
          cases hnext
          exact .grant h ans
      | _ => cases hnext
  | granted h sessionId told => exact moves_granted hnext
  | bound h sessionId dev =>
      obtain ⟨o, ans⟩ := e
      cases o with
      | writeN bs =>
          rw [Stage.next_bound] at hnext
          split_ifs at hnext with hbs
          cases hnext
          subst hbs
          exact .answer h sessionId dev ans
      | _ => cases hnext
  | serving dev due =>
      obtain ⟨due', hserve, rfl⟩ := Option.map_eq_some_iff.mp hnext
      exact .serve (serves_of_serve hserve)
  | refused todo =>
      cases todo with
      | nil => cases hnext
      | cons o todo =>
          rw [Stage.next_refused] at hnext
          split_ifs at hnext with he
          cases hnext
          exact .leave he

/-! ### The worker follows the dialogue -/

/-- How the stages fit the places of the worker. -/
def InStage : WorkerPc → Stage → Prop
  | .enter _, st => st = .waiting
  | .running l, st =>
      (l.state = .waitHello ∧ l.dev = none ∧ st = .waiting) ∨ (l.state ≠ .waitHello ∧ st = .serving l.dev none)
  | .leave why, st =>
      st = .waiting ∨ (∃ dev, st = .serving dev none) ∨ (why = .noHello ∧ ∃ h, st = .refused (refusal h).tail)

/-- How a worker that has left stands: nothing is due, and a refusal is through. -/
def LeftIn (why : ExitReason) (st : Stage) : Prop :=
  st = .waiting ∨ (∃ dev, st = .serving dev none) ∨ (why = .noHello ∧ st = .refused [])

/-- What a turn leads to. -/
def TurnIn (st : Stage) (x : Turn) : Prop := Monitor.Turned InStage LeftIn st (WorkerPc.next x)

theorem turnIn_exit {st : Stage} {why : ExitReason} (hst : st = .waiting ∨ ∃ dev, st = .serving dev none) :
    TurnIn st (.inr why) := by
  have hleave : InStage (.leave why) st := hst.imp id Or.inl
  have hleft : LeftIn why st := hst.imp id Or.inl
  cases why with
  | crash => exact hleft
  | _ => exact hleave

theorem turnIn_serving {l : Locals} (hstate : l.state ≠ .waitHello) : TurnIn (.serving l.dev none) (.inl l) :=
  Or.inr ⟨hstate, rfl⟩

theorem follows_ask {α : Type} {Q : Stage → α → Prop} {o : ServerOp} {f : o.Ans → ServerProc α} {st : Stage}
    (g : o.Ans → Stage) (hmove : ∀ ans, st.next ⟨o, ans⟩ = some (g ans))
    (hf : ∀ ans, (f ans).Follows Stage.next Q (g ans)) : (ask o >>= f).Follows Stage.next Q st :=
  fun ans => ⟨g ans, hmove ans, hf ans⟩

/-! #### Rejections -/

theorem errorPacket_type (deviceId : UInt32) (e : PlError) :
    (errorPacket deviceId e).getD 3 0 ≠ PktType.helloAck.code := by
  rw [errorPacket, packetBytes_type]
  decide

/-- An error reply leaves the stage alone. -/
theorem sendError_follows (cfg : Config) (deviceId : UInt32) (e : PlError) {st : Stage}
    (hst : st = .waiting ∨ ∃ dev due, st = .serving dev due) :
    (sendError cfg deviceId e).Follows Stage.next (fun st' _ => st' = st) st := by
  have htype := errorPacket_type deviceId e
  rw [sendError_eq]
  refine fun sent => ⟨st, ?_, rfl⟩
  rcases hst with rfl | ⟨dev, due, rfl⟩
  · refine (next_waiting ?_).trans (if_pos (decide_eq_true htype))
    exact fun _ _ => nofun
  · rw [Stage.next_serving, Stage.serve_writeN, if_neg htype, Option.map_some]

/-- The addition to `packets_bad` that is due for a rejection, if there is a device. -/
abbrev badDue (dev : Option Nat) : Option DevAtomic := dev.bind fun _ => some .addBad

theorem dtRecordBad_follows (dev : Option Nat) :
    (dtRecordBad dev).Follows Stage.next (fun st _ => st = .serving dev none) (.serving dev (badDue dev)) := by
  cases dev with
  | none => exact rfl
  | some p => exact fun _ => ⟨.serving (some p) none, by simp [Stage.next_serving, Stage.serve_device], rfl⟩

theorem reject_follows (cfg : Config) (l : Locals) (h : PlHeader) (e : PlError) :
    (reject cfg l h e).Follows Stage.next
      (fun st l' => st = .serving l.dev none ∧ l' = { l with strikes := l.strikes + 1 })
      (.serving l.dev (badDue l.dev)) := by
  refine (sendError_follows cfg h.deviceId e (Or.inr ⟨_, _, rfl⟩)).bind ?_
  rintro st sent rfl
  refine (dtRecordBad_follows l.dev).bind ?_
  rintro st _ rfl
  exact ⟨rfl, rfl⟩

/-- Before the HELLO there is no device to count on. -/
theorem reject_follows_waiting (cfg : Config) {l : Locals} (hdev : l.dev = none) (h : PlHeader) (e : PlError) :
    (reject cfg l h e).Follows Stage.next
      (fun st l' => st = .waiting ∧ l' = { l with strikes := l.strikes + 1 }) .waiting := by
  refine (sendError_follows cfg h.deviceId e (Or.inl rfl)).bind ?_
  rintro st sent rfl
  rw [hdev]
  exact ⟨rfl, rfl⟩

theorem strikeOut_follows (cfg : Config) {l : Locals} {st : Stage} (hst : InStage (.running l) st)
    (h : PlHeader) (e : PlError) : (strikeOut cfg l h e).Follows Stage.next TurnIn st := by
  rcases hst with ⟨hstate, hdev, rfl⟩ | ⟨hstate, rfl⟩
  · refine follows_ask (fun _ => .waiting) (fun _ => rfl) fun _ => ?_
    refine (reject_follows_waiting cfg hdev h e).bind ?_
    rintro st l' ⟨rfl, rfl⟩
    show TurnIn .waiting (if _ then _ else _)
    split_ifs
    · exact turnIn_exit (Or.inl rfl)
    · exact Or.inl ⟨hstate, hdev, rfl⟩
  · refine follows_ask (fun _ => .serving l.dev (badDue l.dev)) (fun _ => rfl) fun _ => ?_
    refine (reject_follows cfg l h e).bind ?_
    rintro st l' ⟨rfl, rfl⟩
    show TurnIn (.serving l.dev none) (if _ then _ else _)
    split_ifs
    · exact turnIn_exit (Or.inr ⟨_, rfl⟩)
    · exact Or.inr ⟨hstate, rfl⟩

theorem strikeClose_follows (cfg : Config) {l : Locals} (hstate : l.state ≠ .waitHello) (h : PlHeader)
    (e : PlError) : (strikeClose cfg l h e).Follows Stage.next TurnIn (.serving l.dev (badDue l.dev)) := by
  refine (reject_follows cfg l h e).bind ?_
  rintro st l' ⟨rfl, rfl⟩
  refine Or.inr ?_
  split_ifs
  · exact ⟨nofun, rfl⟩
  · exact ⟨hstate, rfl⟩

/-! #### Accepted packets -/

/-- A frame is written out with no effect on the dialogue. -/
theorem Saves.stays {o : ServerOp} (ho : Saves o) (dev : Option Nat) (due : Option DevAtomic) (ans : o.Ans) :
    (Stage.serving dev due).next ⟨o, ans⟩ = some (.serving dev due) := by
  cases o <;> first | exact ho.elim | rfl

theorem handleFrame_follows (cfg : Config) {l : Locals} (hstate : l.state ≠ .waitHello) (h : PlHeader) :
    (handleFrame cfg l h).Follows Stage.next TurnIn (.serving l.dev none) := by
  refine follows_ask (fun _ => .serving l.dev none) (fun _ => rfl) fun alloc => ?_
  simp only
  generalize frameAsmFeed alloc l.fa (l.payload.bytes.take h.payloadLen.toNat) = r
  obtain ⟨result, fa⟩ := r
  cases result with
  | malformed =>
      refine follows_ask (fun _ => .serving l.dev (badDue l.dev)) (fun _ => rfl) fun _ => ?_
      exact strikeClose_follows cfg (l := { l with fa := fa }) hstate h .tooBig
  | more =>
      refine follows_ask (fun _ => .serving l.dev none) (fun _ => ?_) fun _ => Or.inr ⟨hstate, rfl⟩
      cases l.dev <;> rfl
  | complete img =>
      refine follows_ask (fun _ => .serving l.dev none) (fun _ => ?_) fun _ => ?_
      · cases l.dev <;> rfl
      · refine ((saveFrame_saves cfg h img).follows fun o ans ho => ho.stays _ _ ans).bind ?_
        rintro st _ ⟨rfl, -⟩
        exact Or.inr ⟨hstate, rfl⟩

theorem storeReading_follows (h : PlHeader) (p : Nat) (s : SensorFields) :
    (storeReading h p s).Follows Stage.next (fun st _ => st = .serving (some p) none)
      (.serving (some p) (some .addOk)) := by
  have hstore : ∀ (a : DevAtomic), a ≠ .addOk → a ≠ .addBad → ∀ ans,
      (Stage.serving (some p) (some .addOk)).next ⟨.device p a, ans⟩ =
        some (.serving (some p) (some .addOk)) := by
    intro a hok hbad ans
    simp [Stage.next_serving, Stage.serve_device, hok, hbad]
  refine follows_ask (fun _ => .serving (some p) (some .addOk)) (fun _ => rfl) fun now => ?_
  refine Proc.Follows.bind (Q := fun st _ => st = .serving (some p) none) ?_ ?_
  · refine follows_ask (fun _ => .serving (some p) (some .addOk)) (hstore _ nofun nofun) fun _ => ?_
    refine follows_ask (fun _ => .serving (some p) (some .addOk)) (hstore _ nofun nofun) fun _ => ?_
    refine follows_ask (fun _ => .serving (some p) (some .addOk)) (hstore _ nofun nofun) fun _ => ?_
    refine follows_ask (fun _ => .serving (some p) (some .addOk)) (hstore _ nofun nofun) fun _ => ?_
    refine follows_ask (fun _ => .serving (some p) (some .addOk)) (hstore _ nofun nofun) fun _ => ?_
    exact fun _ => ⟨.serving (some p) none, by simp [Stage.next_serving, Stage.serve_device], rfl⟩
  · rintro st _ rfl
    refine follows_ask (fun _ => .serving (some p) none) (fun _ => rfl) fun ns => ?_
    exact follows_ask (fun _ => .serving (some p) none) (fun _ => rfl) fun _ => rfl

theorem handleSensor_follows (cfg : Config) {l : Locals} (hstate : l.state ≠ .waitHello) (h : PlHeader) :
    (handleSensor cfg l h).Follows Stage.next TurnIn
      (.serving l.dev (l.dev.bind fun _ => some .addOk)) := by
  rw [handleSensor]
  cases hdev : l.dev with
  | none => exact turnIn_exit (Or.inr ⟨none, rfl⟩)
  | some p =>
      refine (storeReading_follows h p _).bind ?_
      rintro st _ rfl
      have hturn : ∀ l' : Locals, l'.dev = some p → l'.state = l.state →
          TurnIn (.serving (some p) none) (.inl l') := by
        intro l' hdev' hstate'
        exact Or.inr ⟨hstate' ▸ hstate, by rw [hdev']⟩
      simp only
      split_ifs
      · have htype : (ackPacket h.deviceId (readSensor cfg l.payload.bytes).seq).getD 3 0 ≠
            PktType.helloAck.code := by
          rw [ackPacket, packetBytes_type]
          decide
        rw [sendAck_eq]
        refine follows_ask (fun _ => .serving (some p) none) (fun _ => ?_) fun _ => hturn _ rfl rfl
        rw [Stage.next_serving, Stage.serve_writeN, if_neg htype, Option.map_some]
      · exact hturn _ rfl rfl

theorem dtGetOrCreate_follows (h : PlHeader) (sessionId : UInt32) :
    (dtGetOrCreate h.deviceId sessionId).Follows Stage.next (fun st dev => st = .bound h sessionId dev)
      (.granted h sessionId none) := by
  have hfind : ∀ hit, (Stage.granted h sessionId none).next ⟨.find h.deviceId, hit⟩ =
      some (.granted h sessionId (hit.map some)) := fun _ => if_pos rfl
  have hinsert : ∀ r, (Stage.granted h sessionId none).next ⟨.insert h.deviceId sessionId, r⟩ =
      some (.granted h sessionId (some r.device)) := fun _ => if_pos ⟨rfl, rfl⟩
  have hreturned : ∀ dev ans, (Stage.granted h sessionId (some dev)).next ⟨.returned h.deviceId dev, ans⟩ =
      some (.bound h sessionId dev) := fun _ _ => if_pos ⟨rfl, rfl⟩
  refine follows_ask _ hfind fun hit => ?_
  cases hit with
  | some p => exact follows_ask (fun _ => .bound h sessionId (some p)) (hreturned (some p)) fun _ => rfl
  | none =>
      refine follows_ask _ hinsert fun r => ?_
      exact follows_ask (fun _ => .bound h sessionId r.device) (hreturned r.device) fun _ => rfl

/-- A valid packet in state WAIT_HELLO, from where its type has taken the dialogue. -/
theorem handleHello_follows (cfg : Config) (l : Locals) (h : PlHeader) :
    (handleHello cfg l h).Follows Stage.next TurnIn
      (if h.type = PktType.hello.code then .greeted h else .refused (refusal h)) := by
  rw [handleHello]
  by_cases htype : h.type = PktType.hello.code
  · rw [if_neg (not_not.mpr htype), if_pos htype]
    refine follows_ask (fun sessionId => .granted h sessionId none) (fun _ => rfl) fun sessionId => ?_
    refine (dtGetOrCreate_follows h sessionId).bind ?_
    rintro st dev rfl
    rw [sendHelloAck_eq]
    refine follows_ask (fun _ => .serving dev none) (fun _ => if_pos rfl) fun ok => ?_
    split_ifs
    · exact Or.inr ⟨(fun h => by cases h), rfl⟩
    · exact turnIn_exit (Or.inr ⟨dev, rfl⟩)
  · rw [if_pos htype, if_neg htype, sendError_eq]
    refine follows_ask (fun _ => .refused (refusal h).tail) (fun _ => if_pos rfl) fun _ => ?_
    exact Or.inr (Or.inr ⟨rfl, h, rfl⟩)

/-- Where a packet handled in state ACTIVE takes the dialogue. -/
theorem dispatch_follows (cfg : Config) {l : Locals} (hstate : l.state ≠ .waitHello) (h : PlHeader)
    (payload : List UInt8) :
    (dispatch cfg l h).Follows Stage.next TurnIn
      (.serving l.dev (l.dev.bind fun _ => owed ⟨.decided h (.accepted payload), ()⟩)) := by
  rw [dispatch, if_neg hstate]
  simp only [owed]
  by_cases hsensor : h.type = PktType.sensor.code
  · rw [if_pos hsensor, if_pos hsensor]
    exact handleSensor_follows cfg hstate h
  rw [if_neg hsensor, if_neg hsensor]
  have hnone : (l.dev.bind fun _ => (none : Option DevAtomic)) = none := by cases l.dev <;> rfl
  by_cases hframe : h.type = PktType.frame.code
  · rw [if_pos hframe, if_pos (Or.inl hframe), hnone]
    exact handleFrame_follows cfg hstate h
  rw [if_neg hframe]
  by_cases hhello : h.type = PktType.hello.code
  · rw [if_pos hhello, if_pos (Or.inr hhello), hnone]
    exact turnIn_serving hstate
  · rw [if_neg hhello, if_neg (fun hor => hor.elim hframe hhello)]
    exact strikeClose_follows cfg hstate h .badType

/-! #### Turns -/

theorem checkPayload_follows (cfg : Config) {l : Locals} {st : Stage} (hst : InStage (.running l) st)
    {h : PlHeader} (hcheck : checkHeader h = none) :
    (checkPayload cfg l h).Follows Stage.next TurnIn st := by
  rw [checkPayload]
  by_cases hsum : plChecksum (l.payload.bytes.take h.payloadLen.toNat) = h.checksum
  · rw [if_neg (not_not.mpr hsum)]
    have hpasses : Passes h (l.payload.bytes.take h.payloadLen.toNat) := by
      obtain ⟨hmagic, hversion, hlen⟩ := checkHeader_eq_none.mp hcheck
      refine ⟨hmagic, hversion, ⟨UInt16.le_iff_toNat_le.mpr hlen, ?_⟩, hsum⟩
      rw [List.length_take, l.payload.size]
      exact Nat.min_eq_left hlen
    rcases hst with ⟨hstate, hdev, rfl⟩ | ⟨hstate, rfl⟩
    · refine follows_ask
        (fun _ => if h.type = PktType.hello.code then .greeted h else .refused (refusal h)) (fun _ => ?_)
        fun _ => ?_
      · rw [Stage.next_accepted, if_neg (not_not.mpr hpasses)]
        split_ifs <;> rfl
      · rw [dispatch, if_pos hstate]
        exact handleHello_follows cfg l h
    · refine follows_ask _ (fun _ => ?_)
        fun _ => dispatch_follows cfg hstate h (l.payload.bytes.take h.payloadLen.toNat)
      rw [Stage.next_serving, Stage.serve_accepted, if_pos ⟨rfl, hpasses⟩, Option.map_some]
  · rw [if_pos hsum]
    exact strikeOut_follows cfg hst h .badChecksum

/-- Reading and loading `running` leave the stage of a worker between two packets alone. -/
theorem InStage.receives {l : Locals} {st : Stage} (hst : InStage (.running l) st) {o : ServerOp}
    (ho : Receives o) (ans : o.Ans) : st.next ⟨o, ans⟩ = some st := by
  rcases hst with ⟨-, -, rfl⟩ | ⟨-, rfl⟩
  · cases o <;> first | exact ho.elim | rfl
  · cases o <;> first | exact ho.elim | rfl

theorem InStage.leaves {l : Locals} {st : Stage} (hst : InStage (.running l) st) (why : ExitReason) :
    TurnIn st (.inr why) :=
  turnIn_exit (hst.imp (fun h => h.2.2) fun h => ⟨_, h.2⟩)

theorem clientTurn_follows (cfg : Config) {l : Locals} {st : Stage} (hst : InStage (.running l) st) :
    (clientTurn cfg l).Follows Stage.next TurnIn st := by
  refine clientTurn_rule (fun _ => st) (fun _ => st) (fun running => hst.receives (o := .loadRunning) trivial running)
    (hst.leaves _) (fun _ => hst.leaves _) (fun _ r => hst.receives (o := .readN _) trivial r) (fun _ _ => hst)
    (fun _ _ _ why _ => hst.leaves why) fun _ hdr _ => ?_
  refine handleHeader_rule (l := { l with idleTicks := 0 }) (fun _ => st) ?_
    (fun _ _ r => hst.receives (o := .readN _) trivial r) (fun _ _ _ => hst.leaves _) ?_ ?_
  · exact fun e _ => strikeOut_follows cfg (l := { l with idleTicks := 0 }) hst _ e
  · exact fun hcheck bs _ => checkPayload_follows cfg
      (l := { l with idleTicks := 0, payload := l.payload.fill bs }) hst hcheck
  · exact fun hcheck _ => checkPayload_follows cfg (l := { l with idleTicks := 0 }) hst hcheck

/-- Cleaning up after the loop. -/
theorem leave_follows (cfg : Config) {why : ExitReason} {st : Stage} (hst : InStage (.leave why) st) :
    (clientWorker cfg (.leave why)).Follows Stage.next (Monitor.Turned InStage LeftIn) st := by
  rcases hst with rfl | ⟨dev, rfl⟩ | ⟨rfl, h, rfl⟩
  · refine follows_ask (fun _ => .waiting) (fun _ => rfl) fun _ => ?_
    refine follows_ask (fun _ => .waiting) (fun _ => rfl) fun _ => ?_
    refine follows_ask (fun _ => .waiting) (fun _ => rfl) fun _ => ?_
    exact follows_ask (fun _ => .waiting) (fun _ => rfl) fun _ => Or.inl rfl
  · refine follows_ask (fun _ => .serving dev none) (fun _ => rfl) fun _ => ?_
    refine follows_ask (fun _ => .serving dev none) (fun _ => rfl) fun _ => ?_
    refine follows_ask (fun _ => .serving dev none) (fun _ => rfl) fun _ => ?_
    exact follows_ask (fun _ => .serving dev none) (fun _ => rfl) fun _ => Or.inr (Or.inl ⟨dev, rfl⟩)
  · refine follows_ask (fun _ => .refused [.semPost, .activeSub, .freeArg]) (fun _ => rfl) fun _ => ?_
    refine follows_ask (fun _ => .refused [.activeSub, .freeArg]) (fun _ => rfl) fun _ => ?_
    refine follows_ask (fun _ => .refused [.freeArg]) (fun _ => rfl) fun _ => ?_
    exact follows_ask (fun _ => .refused []) (fun _ => rfl) fun _ => Or.inr (Or.inr ⟨rfl, rfl⟩)

/-- **The worker keeps to the dialogue**, turn by turn. -/
theorem worker_follows (cfg : Config) {pc : WorkerPc} {st : Stage} (hst : InStage pc st) :
    (clientWorker cfg pc).Follows Stage.next (Monitor.Turned InStage LeftIn) st := by
  cases pc with
  | enter payload =>
      cases hst
      exact follows_ask (fun _ => .waiting) (fun _ => rfl) fun _ => Or.inl ⟨rfl, rfl, rfl⟩
  | running l => exact (clientTurn_follows cfg hst).bind fun st' x hx => hx
  | leave why => exact leave_follows cfg hst

end PulseLink
