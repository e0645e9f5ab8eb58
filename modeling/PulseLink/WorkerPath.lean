import PulseLink.BaseMonitor
import PulseLink.ClientWorker

/-! What one turn of the worker can do, whatever its environment answers: it receives, it decides about at
most one packet, and it acts on the decision. Only a SENSOR packet in state ACTIVE touches the sink, the
acknowledgements and `packets_ok`, and only a HELLO in state WAIT_HELLO looks up a device. The rules at the end
take a monitor through the receiving part of a turn. -/

namespace PulseLink

open Bytes

theorem packetBytes_type (type : UInt8) (deviceId : UInt32) (payload : List UInt8) :
    (packetBytes type deviceId payload).getD 3 0 = type := rfl

/-- A packet from the server to a device. -/
inductive Reply where
  | helloAck (deviceId sessionId : UInt32)
  | ack (deviceId seq : UInt32)
  | error (deviceId : UInt32) (e : PlError)
  deriving DecidableEq, Repr

namespace Reply

def type : Reply → PktType
  | .helloAck _ _ => .helloAck
  | .ack _ _ => .ack
  | .error _ _ => .error

def deviceId : Reply → UInt32
  | .helloAck id _ => id
  | .ack id _ => id
  | .error id _ => id

def payload : Reply → List UInt8
  | .helloAck _ sessionId => be32 sessionId
  | .ack _ seq => be32 seq
  | .error _ e => be16 e.code

def header (r : Reply) : PlHeader := builtHeader r.type.code r.deviceId r.payload

/-- Its bytes on the line. -/
def wire (r : Reply) : List UInt8 := packetBytes r.type.code r.deviceId r.payload

theorem payload_length (r : Reply) : r.payload.length ≤ 4 := by
  cases r <;> exact Nat.le_of_ble_eq_true rfl

end Reply

/-- Every write is one reply. -/
def Speaks : ServerOp → Prop
  | .writeN bs => ∃ r : Reply, bs = r.wire
  | _ => True

def recordOf : Event ServerSig → Option SensorRecord
  | ⟨.writeRecord rec, _⟩ => some rec
  | _ => none

/-- The records passed to the sink, in order. -/
def recordsOf (t : List (Event ServerSig)) : List SensorRecord := t.filterMap recordOf

theorem recordsOf_append (t t' : List (Event ServerSig)) :
    recordsOf (t ++ t') = recordsOf t ++ recordsOf t' :=
  List.filterMap_append

def packetOf : Event ServerSig → Option (PlHeader × Verdict)
  | ⟨.decided h v, _⟩ => some (h, v)
  | _ => none

/-- The packets decoded, in order, with the verdict on each. -/
def packetsOf (t : List (Event ServerSig)) : List (PlHeader × Verdict) := t.filterMap packetOf

def replyOf : Event ServerSig → Option (List UInt8)
  | ⟨.writeN bs, _⟩ => some bs
  | _ => none

/-- The packets sent to the peer, in order. -/
def repliesOf (t : List (Event ServerSig)) : List (List UInt8) := t.filterMap replyOf

/-- The operations of receiving. -/
def Receives : ServerOp → Prop
  | .loadRunning => True
  | .readN _ => True
  | _ => False

/-- The operations that leave the sink, the acknowledgements, `packets_ok` and the choice of a device
alone, touch no device but `dev` and receive nothing. -/
def Plain (dev : Option Nat) : ServerOp → Prop
  | .loadRunning => False
  | .readN _ => False
  | .writeN bs => bs.getD 3 0 ≠ PktType.ack.code
  | .find _ => False
  | .insert _ _ => False
  | .returned _ _ => False
  | .decided _ _ => False
  | .writeRecord _ => False
  | .device p a => dev = some p ∧ a ≠ .addOk
  | _ => True

/-- Writing a frame out. -/
def Saves : ServerOp → Prop
  | .imageAlloc => True
  | .writeFile _ _ => True
  | _ => False

/-- What a rejection or a chunk of a frame leads to: an error reply, an addition to `packets_bad` of `dev`,
the allocations and files of a frame. -/
def Minor (dev : Option Nat) : ServerOp → Prop
  | .writeN bs => ∃ deviceId e, bs = errorPacket deviceId e
  | .device p a => dev = some p ∧ a = .addBad
  | .frameAlloc => True
  | .fed _ => True
  | o => Saves o

theorem Saves.minor {o : ServerOp} (ho : Saves o) (dev : Option Nat) : Minor dev o := by
  cases o <;> first | exact ho.elim | trivial

theorem Minor.plain {dev : Option Nat} {o : ServerOp} (ho : Minor dev o) : Plain dev o := by
  cases o with
  | writeN bs =>
      obtain ⟨deviceId, e, rfl⟩ := ho
      show (errorPacket deviceId e).getD 3 0 ≠ PktType.ack.code
      rw [errorPacket, packetBytes_type]
      decide
  | device p a =>
      obtain ⟨hdev, rfl⟩ := ho
      exact ⟨hdev, nofun⟩
  | _ => first | exact ho.elim | trivial

theorem Minor.speaks {dev : Option Nat} {o : ServerOp} (ho : Minor dev o) : Speaks o := by
  cases o with
  | writeN bs =>
      obtain ⟨deviceId, e, rfl⟩ := ho
      exact ⟨.error deviceId e, rfl⟩
  | _ => trivial

theorem Proc.Within.plain {α : Type} {dev : Option Nat} {Q : α → Prop} {p : ServerProc α}
    (hp : p.Within (Minor dev) Q) : p.Within (Plain dev) Q :=
  hp.mono (fun _ ho => ho.plain) fun _ hQ => hQ

/-! ### Rejections -/

theorem sendError_minor (cfg : Config) (dev : Option Nat) (deviceId : UInt32) (e : PlError) :
    (sendError cfg deviceId e).Uses (Minor dev) := by
  rw [sendError_eq]
  exact ⟨⟨deviceId, e, rfl⟩, fun _ => trivial⟩

theorem dtRecordBad_minor (dev : Option Nat) : (dtRecordBad dev).Uses (Minor dev) := by
  cases dev with
  | none => trivial
  | some p => exact ⟨⟨rfl, rfl⟩, fun _ => trivial⟩

theorem reject_minor (cfg : Config) (l : Locals) (h : PlHeader) (e : PlError) :
    (reject cfg l h e).Within (Minor l.dev) fun l' => l' = { l with strikes := l.strikes + 1 } := by
  refine Proc.Within.bind (sendError_minor cfg l.dev h.deviceId e) fun _ _ => ?_
  exact Proc.Within.bind (dtRecordBad_minor l.dev) fun _ _ => rfl

/-- What a failed framing check leads to. -/
def struck (l : Locals) : Turn :=
  if l.strikes + 1 ≥ MAX_STRIKES then .inr .strikes else .inl { l with strikes := l.strikes + 1 }

theorem struck_eq_inl {l l' : Locals} (h : struck l = .inl l') : l' = { l with strikes := l.strikes + 1 } := by
  rw [struck] at h
  split_ifs at h
  exact (Sum.inl.inj h).symm

theorem strikeOut_path {cfg : Config} {l : Locals} {h : PlHeader} {e : PlError}
    {t : List (Event ServerSig)} {x : Turn} (hpath : (strikeOut cfg l h e).Path t x) :
    ∃ post, t = ⟨.decided h (.rejected e), ()⟩ :: post ∧ (∀ ev ∈ post, Minor l.dev ev.op) ∧ x = struck l := by
  obtain ⟨-, post, rfl, hpost⟩ := path_ask_iff.mp hpath
  refine ⟨post, rfl, ?_⟩
  refine Proc.Within.path (Q := fun x => x = struck l) ?_ hpost
  refine Proc.Within.bind (reject_minor cfg l h e) fun l' hl' => ?_
  subst hl'
  rfl

/-! ### The cases of an accepted packet -/

/-- The loop goes on past the HELLO, with the same device, count and ticks. -/
def Carries (l : Locals) (x : Turn) : Prop :=
  ∃ l', x = .inl l' ∧ l'.dev = l.dev ∧ l'.sensorCount = l.sensorCount ∧ l'.idleTicks = l.idleTicks ∧
    l'.state ≠ .waitHello

theorem strikeClose_minor (cfg : Config) {l : Locals} (hstate : l.state ≠ .waitHello) (h : PlHeader)
    (e : PlError) : (strikeClose cfg l h e).Within (Minor l.dev) (Carries l) := by
  refine Proc.Within.bind (reject_minor cfg l h e) fun l' hl' => ?_
  subst hl'
  refine ⟨_, rfl, ?_⟩
  split_ifs
  · exact ⟨rfl, rfl, rfl, nofun⟩
  · exact ⟨rfl, rfl, rfl, hstate⟩

theorem bmpWrite_saves (img : Image) (path : List UInt8) : (bmpWrite img path).Uses Saves := by
  rw [bmpWrite]
  cases bmpBytes img with
  | none => trivial
  | some bytes => exact ⟨trivial, fun _ => trivial⟩

theorem saveFrame_saves (cfg : Config) (h : PlHeader) (img : Image) : (saveFrame cfg h img).Uses Saves := by
  rw [saveFrame]
  cases cfg.frameDir with
  | none => trivial
  | some dir =>
      refine within_ask trivial fun callocOk => ?_
      cases imageAlloc callocOk img.w img.h with
      | none => trivial
      | some out =>
          refine Proc.Uses.bind (bmpWrite_saves _ _) fun ok => ?_
          split_ifs
          · exact Proc.Uses.bind (bmpWrite_saves _ _) fun _ => trivial
          · trivial

theorem handleFrame_minor (cfg : Config) {l : Locals} (hstate : l.state ≠ .waitHello) (h : PlHeader) :
    (handleFrame cfg l h).Within (Minor l.dev) (Carries l) := by
  refine within_ask trivial fun alloc => within_ask trivial fun _ => ?_
  generalize frameAsmFeed alloc l.fa (l.payload.bytes.take h.payloadLen.toNat) = r
  obtain ⟨result, fa⟩ := r
  cases result with
  | malformed => exact strikeClose_minor cfg (l := { l with fa := fa }) hstate h .tooBig
  | more => exact ⟨_, rfl, rfl, rfl, rfl, hstate⟩
  | complete img =>
      have hsave : (saveFrame cfg h img).Uses (Minor l.dev) :=
        (saveFrame_saves cfg h img).mono (fun _ ho => ho.minor l.dev) fun _ _ => trivial
      exact Proc.Within.bind hsave fun _ _ => ⟨_, rfl, rfl, rfl, rfl, hstate⟩

/-- What a SENSOR packet makes of its header and the payload buffer, before any acknowledgement: the
stores of `dt_record_sensor` and the record. -/
def storeEvents (h : PlHeader) (p : Nat) (s : SensorFields) (now : Int) (ns : UInt64) (stored : Bool) :
    List (Event ServerSig) :=
  [⟨.time, now⟩, ⟨.device p (.storeSeq s.seq), ()⟩, ⟨.device p (.storeTemp s.temp), ()⟩,
    ⟨.device p (.storeHumid s.hum), ()⟩, ⟨.device p (.storeSeen now), ()⟩,
    ⟨.device p (.storeState .online), ()⟩, ⟨.device p .addOk, ()⟩, ⟨.nowNs, ns⟩,
    ⟨.writeRecord ⟨h.deviceId, s.seq, s.temp, s.hum, ns⟩, stored⟩]

theorem storeReading_path {h : PlHeader} {p : Nat} {s : SensorFields} {t : List (Event ServerSig)}
    {u : Unit} (hpath : (storeReading h p s).Path t u) :
    ∃ now ns stored, t = storeEvents h p s now ns stored := by
  obtain ⟨now, t₀, ht, hrest⟩ := path_ask_iff.mp hpath
  obtain ⟨stores, _, t₁, ht₀, hstores, hsink⟩ := Proc.path_bind_iff.mp hrest
  obtain ⟨_, _, hseq, hstores⟩ := path_ask_iff.mp hstores
  obtain ⟨_, _, htemp, hstores⟩ := path_ask_iff.mp hstores
  obtain ⟨_, _, hhumid, hstores⟩ := path_ask_iff.mp hstores
  obtain ⟨_, _, hseen, hstores⟩ := path_ask_iff.mp hstores
  obtain ⟨_, _, hstate, hstores⟩ := path_ask_iff.mp hstores
  obtain ⟨_, _, hok, hstores⟩ := Proc.path_op_iff.mp hstores
  obtain ⟨hend, -⟩ := Proc.path_ret_iff.mp hstores
  obtain ⟨ns, _, hns, hsink⟩ := path_ask_iff.mp hsink
  obtain ⟨stored, _, hrecord, hsink⟩ := path_ask_iff.mp hsink
  obtain ⟨hend', -⟩ := Proc.path_ret_iff.mp hsink
  refine ⟨now, ns, stored, ?_⟩
  rw [ht, ht₀, hseq, htemp, hhumid, hseen, hstate, hok, hend, hns, hrecord, hend']
  rfl

/-- `case PKT_SENSOR`: without a device it crashes, otherwise it stores the reading and, when the count
says so, acknowledges it. -/
theorem handleSensor_path {cfg : Config} {l : Locals} {h : PlHeader} {t : List (Event ServerSig)}
    {x : Turn} (hpath : (handleSensor cfg l h).Path t x) :
    (l.dev = none ∧ t = [] ∧ x = .inr .crash) ∨
    ∃ p now ns stored acks, l.dev = some p ∧
      t = storeEvents h p (readSensor cfg l.payload.bytes) now ns stored ++ acks ∧
      x = .inl { l with sensorCount := l.sensorCount + 1, strikes := 0 } ∧
      if (l.sensorCount + 1) % ACK_EVERY = 0 then
        ∃ sent, acks = [⟨.writeN (ackPacket h.deviceId (readSensor cfg l.payload.bytes).seq), sent⟩]
      else acks = [] := by
  rw [handleSensor] at hpath
  cases hdev : l.dev with
  | none =>
      rw [hdev] at hpath
      obtain ⟨rfl, rfl⟩ := Proc.path_ret_iff.mp hpath
      exact Or.inl ⟨rfl, rfl, rfl⟩
  | some p =>
      rw [hdev] at hpath
      obtain ⟨t₁, u, t₂, rfl, hstore, hrest⟩ := Proc.path_bind_iff.mp hpath
      simp only at hrest
      obtain ⟨now, ns, stored, rfl⟩ := storeReading_path hstore
      refine Or.inr ⟨p, now, ns, stored, t₂, rfl, rfl, ?_⟩
      split_ifs at hrest ⊢ with hack
      · rw [sendAck_eq] at hrest
        obtain ⟨sent, t₃, rfl, hret⟩ := path_ask_iff.mp hrest
        obtain ⟨rfl, rfl⟩ := Proc.path_ret_iff.mp hret
        exact ⟨rfl, sent, rfl⟩
      · obtain ⟨rfl, rfl⟩ := Proc.path_ret_iff.mp hrest
        exact ⟨rfl, rfl⟩

/-- A valid packet in state WAIT_HELLO: only a HELLO gets past it, and its id chooses the device. -/
theorem handleHello_path {cfg : Config} {l : Locals} {h : PlHeader} {t : List (Event ServerSig)} {x : Turn}
    (hpath : (handleHello cfg l h).Path t x) :
    (h.type ≠ PktType.hello.code ∧ (∀ e ∈ t, Plain l.dev e.op) ∧ x = .inr .noHello) ∨
    ∃ sid dev call rest, h.type = PktType.hello.code ∧ t = ⟨.nextSession, sid⟩ :: (call ++ rest) ∧
      (dtGetOrCreate h.deviceId sid).Path call dev ∧ (∀ e ∈ rest, Plain l.dev e.op) ∧
      (x = .inr .helloAckFailed ∨
        x = .inl { l with sessionId := sid, dev := dev, state := .active, strikes := 0 }) := by
  rw [handleHello] at hpath
  split_ifs at hpath with htype
  · refine Or.inl ⟨htype, Proc.Within.path (Q := fun x => x = .inr .noHello) ?_ hpath⟩
    exact Proc.Within.bind (sendError_minor cfg l.dev h.deviceId .noHello).plain fun _ _ => rfl
  · obtain ⟨sid, t₁, ht, hrest⟩ := path_ask_iff.mp hpath
    obtain ⟨call, dev, t₂, ht₁, hcall, hreply⟩ := Proc.path_bind_iff.mp hrest
    rw [sendHelloAck_eq] at hreply
    obtain ⟨ok, t₃, ht₂, hret⟩ := path_ask_iff.mp hreply
    refine Or.inr ⟨sid, dev, call, t₂, not_not.mp htype, by rw [ht, ht₁], hcall, ?_⟩
    have hplain : Plain l.dev (.writeN (helloAckPacket h.deviceId sid)) := by
      show (helloAckPacket h.deviceId sid).getD 3 0 ≠ PktType.ack.code
      rw [helloAckPacket, packetBytes_type]
      decide
    subst ht₂
    split_ifs at hret
    · obtain ⟨rfl, rfl⟩ := Proc.path_ret_iff.mp hret
      exact ⟨by simpa using hplain, Or.inr rfl⟩
    · obtain ⟨rfl, rfl⟩ := Proc.path_ret_iff.mp hret
      exact ⟨by simpa using hplain, Or.inl rfl⟩

/-- What an accepted packet leads to. -/
theorem dispatch_path {cfg : Config} {l : Locals} {h : PlHeader} {t : List (Event ServerSig)} {x : Turn}
    (hpath : (dispatch cfg l h).Path t x) :
    (l.state = .waitHello ∧ (handleHello cfg l h).Path t x) ∨
    (l.state ≠ .waitHello ∧ h.type = PktType.sensor.code ∧ (handleSensor cfg l h).Path t x) ∨
    (l.state ≠ .waitHello ∧ h.type ≠ PktType.sensor.code ∧ (∀ e ∈ t, Minor l.dev e.op) ∧ Carries l x) := by
  rw [dispatch] at hpath
  split_ifs at hpath with hstate hsensor hframe hhello
  · exact Or.inl ⟨hstate, hpath⟩
  · exact Or.inr (Or.inl ⟨hstate, hsensor, hpath⟩)
  · exact Or.inr (Or.inr ⟨hstate, hsensor, (handleFrame_minor cfg hstate h).path hpath⟩)
  · obtain ⟨rfl, rfl⟩ := Proc.path_ret_iff.mp hpath
    exact Or.inr (Or.inr ⟨hstate, hsensor, by simp, l, rfl, rfl, rfl, rfl, hstate⟩)
  · exact Or.inr (Or.inr ⟨hstate, hsensor, (strikeClose_minor cfg hstate h .badType).path hpath⟩)

/-! ### One turn -/

/-- The locals when a packet is decided about. -/
abbrev Locals.heard (l : Locals) (payload : PayloadBuf) : Locals :=
  { l with idleTicks := 0, payload := payload }

/-- What follows the receiving part of a turn: a rejection, or the decision to accept and its dispatch. -/
def Decides (cfg : Config) (l : Locals) (h : PlHeader) (t : List (Event ServerSig)) (x : Turn) : Prop :=
  (∃ e, (strikeOut cfg l h e).Path t x) ∨
  ∃ payload t', t = ⟨.decided h (.accepted payload), ()⟩ :: t' ∧ (dispatch cfg l h).Path t' x

/-- A turn that decides about no packet. -/
def Waits (l : Locals) (x : Turn) : Prop :=
  x = .inl { l with idleTicks := l.idleTicks + 1 } ∨ ∃ why, x = .inr why ∧ why ≠ .crash

theorem checkPayload_path {cfg : Config} {l : Locals} {h : PlHeader} {t : List (Event ServerSig)} {x : Turn}
    (hpath : (checkPayload cfg l h).Path t x) : Decides cfg l h t x := by
  rw [checkPayload] at hpath
  split_ifs at hpath
  · exact Or.inl ⟨.badChecksum, hpath⟩
  · obtain ⟨-, t', rfl, hdispatch⟩ := path_ask_iff.mp hpath
    exact Or.inr ⟨_, t', rfl, hdispatch⟩

/-- A decision about a packet leaves the ticks alone. -/
theorem Decides.idleTicks {cfg : Config} {l l' : Locals} {h : PlHeader} {t : List (Event ServerSig)}
    (hdecides : Decides cfg l h t (.inl l')) : l'.idleTicks = l.idleTicks := by
  rcases hdecides with ⟨e, hstrike⟩ | ⟨payload, t', -, hdispatch⟩
  · obtain ⟨post, -, -, hx⟩ := strikeOut_path hstrike
    rw [struck_eq_inl hx.symm]
  · rcases dispatch_path hdispatch with ⟨-, hhello⟩ | ⟨-, -, hsensor⟩ |
      ⟨-, -, -, l₁, hx, -, -, hticks, -⟩
    · rcases handleHello_path hhello with ⟨-, -, hx⟩ | ⟨_, _, _, _, -, -, -, -, hx | hx⟩ <;> cases hx
      rfl
    · rcases handleSensor_path hsensor with ⟨-, -, hx⟩ | ⟨_, _, _, _, _, -, -, hx, -⟩ <;> cases hx
      rfl
    · cases hx
      exact hticks

/-- It can end a connection in four ways, the last of them only after a HELLO that got no device. -/
theorem Decides.exit {cfg : Config} {l : Locals} {h : PlHeader} {t : List (Event ServerSig)} {why : ExitReason}
    (hdecides : Decides cfg l h t (.inr why)) :
    why ∈ [ExitReason.strikes, .noHello, .helloAckFailed] ∨
      (why = .crash ∧ l.state ≠ .waitHello ∧ l.dev = none) := by
  rcases hdecides with ⟨e, hstrike⟩ | ⟨payload, t', -, hdispatch⟩
  · obtain ⟨post, -, -, hx⟩ := strikeOut_path hstrike
    rw [struck] at hx
    split_ifs at hx
    cases hx
    exact Or.inl (by decide)
  · rcases dispatch_path hdispatch with ⟨-, hhello⟩ | ⟨hstate, -, hsensor⟩ | ⟨-, -, -, l₁, hx, -⟩
    · rcases handleHello_path hhello with ⟨-, -, hx⟩ | ⟨_, _, _, _, -, -, -, -, hx | hx⟩ <;> cases hx <;>
        exact Or.inl (by decide)
    · rcases handleSensor_path hsensor with ⟨hdev, -, hx⟩ | ⟨_, _, _, _, _, -, -, hx, -⟩ <;> cases hx
      exact Or.inr ⟨rfl, hstate, hdev⟩
    · cases hx

theorem Decides.exit_mem {cfg : Config} {l : Locals} {h : PlHeader} {t : List (Event ServerSig)} {why : ExitReason}
    (hdecides : Decides cfg l h t (.inr why)) :
    why ∈ [ExitReason.strikes, .noHello, .helloAckFailed, .crash] := by
  rcases hdecides.exit with hwhy | ⟨rfl, -⟩
  · exact List.mem_append_left [.crash] hwhy
  · decide

theorem recvPayload_path {cfg : Config} {l : Locals} {h : PlHeader} {t : List (Event ServerSig)} {x : Turn}
    (hpath : (recvPayload cfg l h).Path t x) :
    ∃ reads post, t = reads ++ post ∧ (∀ e ∈ reads, Receives e.op) ∧
      ((post = [] ∧ x = .inr .midPayload) ∨
        ∃ payload, Decides cfg { l with payload := payload } h post x) := by
  rw [recvPayload] at hpath
  by_cases hlen : h.payloadLen > 0
  · rw [if_pos hlen] at hpath
    obtain ⟨r, t₁, rfl, hread⟩ := path_ask_iff.mp hpath
    refine ⟨[⟨.readN h.payloadLen.toNat, r⟩], t₁, rfl, by simp [Receives], ?_⟩
    cases r with
    | count got =>
        simp only at hread
        split_ifs at hread
        · exact Or.inr ⟨_, checkPayload_path hread⟩
        · exact Or.inl (Proc.path_ret_iff.mp hread)
    | again got => exact Or.inl (Proc.path_ret_iff.mp hread)
    | failed got => exact Or.inl (Proc.path_ret_iff.mp hread)
  · rw [if_neg hlen] at hpath
    exact ⟨[], t, rfl, by simp, Or.inr ⟨l.payload, checkPayload_path hpath⟩⟩

/-- A turn first receives, then decides about a packet or not. -/
def TurnShape (cfg : Config) (l : Locals) (t : List (Event ServerSig)) (x : Turn) : Prop :=
  ∃ reads post, t = reads ++ post ∧ (∀ e ∈ reads, Receives e.op) ∧
    ((post = [] ∧ Waits l x) ∨ l.state ≠ .closing ∧ ∃ payload h, Decides cfg (l.heard payload) h post x)

theorem TurnShape.cons {cfg : Config} {l : Locals} {e : Event ServerSig} {t : List (Event ServerSig)}
    {x : Turn} (he : Receives e.op) (hshape : TurnShape cfg l t x) : TurnShape cfg l (e :: t) x := by
  obtain ⟨reads, post, rfl, hreads, hpost⟩ := hshape
  exact ⟨e :: reads, post, rfl, by simpa using ⟨he, hreads⟩, hpost⟩

/-- What follows a header: the payload is received, unless the header is refused, and then the worker leaves or
decides about the packet. -/
theorem handleHeader_decides {cfg : Config} {l : Locals} {h : PlHeader} {t : List (Event ServerSig)} {x : Turn}
    (hpath : (handleHeader cfg l h).Path t x) :
    ∃ reads post, t = reads ++ post ∧ (∀ e ∈ reads, Receives e.op) ∧
      ((post = [] ∧ x = .inr .midPayload) ∨
        ∃ payload, Decides cfg { l with payload := payload } h post x) := by
  rw [handleHeader] at hpath
  cases hcheck : checkHeader h with
  | some e =>
      rw [hcheck] at hpath
      exact ⟨[], t, rfl, by simp, Or.inr ⟨l.payload, Or.inl ⟨e, hpath⟩⟩⟩
  | none =>
      rw [hcheck] at hpath
      exact recvPayload_path hpath

theorem TurnShape.exit {cfg : Config} {l : Locals} {t : List (Event ServerSig)} {x : Turn} {why : ExitReason}
    (hpath : (Proc.ret (.inr why) : ServerProc Turn).Path t x) (hwhy : why ≠ .crash) :
    TurnShape cfg l t x := by
  obtain ⟨rfl, rfl⟩ := Proc.path_ret_iff.mp hpath
  exact ⟨[], [], rfl, by simp, Or.inl ⟨rfl, Or.inr ⟨why, rfl, hwhy⟩⟩⟩

theorem handleHeader_path {cfg : Config} {l : Locals} (hstate : l.state ≠ .closing) {h : PlHeader}
    {t : List (Event ServerSig)} {x : Turn}
    (hpath : (handleHeader cfg { l with idleTicks := 0 } h).Path t x) : TurnShape cfg l t x := by
  obtain ⟨reads, post, rfl, hreads, ⟨rfl, rfl⟩ | ⟨payload, hdecides⟩⟩ := handleHeader_decides hpath
  · exact ⟨reads, [], rfl, hreads, Or.inl ⟨rfl, Or.inr ⟨_, rfl, nofun⟩⟩⟩
  · exact ⟨reads, post, rfl, hreads, Or.inr ⟨hstate, payload, h, hdecides⟩⟩

theorem clientTurn_path {cfg : Config} {l : Locals} {t : List (Event ServerSig)} {x : Turn}
    (hpath : (clientTurn cfg l).Path t x) : TurnShape cfg l t x := by
  obtain ⟨running, t₁, rfl, hturn⟩ := path_ask_iff.mp hpath
  refine TurnShape.cons trivial ?_
  by_cases hrunning : running = false
  · rw [if_pos hrunning] at hturn
    exact .exit hturn nofun
  rw [if_neg hrunning] at hturn
  by_cases hstate : l.state = .closing
  · rw [if_pos hstate] at hturn
    exact .exit hturn nofun
  rw [if_neg hstate] at hturn
  obtain ⟨r, t₂, rfl, hheader⟩ := path_ask_iff.mp hturn
  refine TurnShape.cons trivial ?_
  cases r with
  | again got =>
      simp only at hheader
      split_ifs at hheader
      · exact .exit hheader nofun
      · obtain ⟨rfl, rfl⟩ := Proc.path_ret_iff.mp hheader
        exact ⟨[], [], rfl, by simp, Or.inl ⟨rfl, Or.inl rfl⟩⟩
  | failed got => exact .exit hheader nofun
  | count got =>
      simp only at hheader
      split_ifs at hheader
      · exact .exit hheader nofun
      · exact .exit hheader nofun
      · exact handleHeader_path hstate hheader

/-! ### Whole runs -/

/-- After a turn: `J` of the locals it goes on with and the history, or `E` of the history if it left. -/
def After (J : Locals → List (Event ServerSig) → Prop) (E : List (Event ServerSig) → Prop)
    (t : List (Event ServerSig)) : Turn → Prop
  | .inl l => J l t
  | .inr _ => E t

theorem leave_plain (cfg : Config) (why : ExitReason) :
    (clientWorker cfg (.leave why)).Within (Plain none) fun x => x = .inr why :=
  within_ask trivial fun _ => within_ask trivial fun _ => within_ask trivial fun _ =>
    within_ask trivial fun _ => rfl

/-- What is known at each place of a worker: nothing is done before it enters, `J` holds between its turns, and
`E` once it leaves. -/
def AtPlace (payload : PayloadBuf) (J : Locals → List (Event ServerSig) → Prop)
    (E : ExitReason → List (Event ServerSig) → Prop) : WorkerPc → List (Event ServerSig) → Prop
  | .enter payload', t => payload' = payload ∧ t = []
  | .running l, t => J l t
  | .leave why, t => E why t

/-- The rule for workers, with the reason for leaving: what holds when the loop is entered and every turn keeps
holds at every turn, and what a last turn makes of it holds at the end if cleaning up does not matter to it. -/
theorem worker_exit_rule {cfg : Config} {J : Locals → List (Event ServerSig) → Prop}
    {E : ExitReason → List (Event ServerSig) → Prop} {payload : PayloadBuf}
    (hstart : J (.init payload) [⟨.activeAdd, ()⟩])
    (hturn : ∀ l t turn l', J l t → (clientTurn cfg l).Path turn (.inl l') → J l' (t ++ turn))
    (hexit : ∀ l t turn why, J l t → (clientTurn cfg l).Path turn (.inr why) → E why (t ++ turn))
    (hleave : ∀ why t t', E why t → (∀ e ∈ t', Plain none e.op) → E why (t ++ t')) {t : List (Event ServerSig)}
    {why : ExitReason} (hpath : Loop.Path (clientWorker cfg) (.enter payload) t why) : E why t := by
  have hentered : AtPlace payload J E (.enter payload) [] := ⟨rfl, rfl⟩
  refine hpath.invariant (J := AtPlace payload J E) (Q := E) ?_ hentered
  intro pc t₀ t x hK hpc
  cases pc with
  | enter payload' =>
      obtain ⟨rfl, rfl⟩ := hK
      obtain ⟨_, t', rfl, hret⟩ := path_ask_iff.mp hpc
      obtain ⟨rfl, rfl⟩ := Proc.path_ret_iff.mp hret
      exact hstart
  | running l =>
      obtain ⟨t₁, turn, t₂, rfl, hpath, hret⟩ := Proc.path_bind_iff.mp hpc
      obtain ⟨rfl, rfl⟩ := Proc.path_ret_iff.mp hret
      rw [List.append_nil]
      cases turn with
      | inl l' => exact hturn l t₀ t₁ l' hK hpath
      | inr why =>
          have hwhy := hexit l t₀ t₁ why hK hpath
          cases why <;> exact hwhy
  | leave why =>
      obtain ⟨hplain, rfl⟩ := (leave_plain cfg why).path hpc
      exact hleave why t₀ t hK hplain

/-- The same where the reason does not matter. -/
theorem worker_rule {cfg : Config} {J : Locals → List (Event ServerSig) → Prop}
    {E : List (Event ServerSig) → Prop} {payload : PayloadBuf}
    (hstart : J (.init payload) [⟨.activeAdd, ()⟩])
    (hturn : ∀ l t turn x, J l t → (clientTurn cfg l).Path turn x → After J E (t ++ turn) x)
    (hleave : ∀ t t', E t → (∀ e ∈ t', Plain none e.op) → E (t ++ t')) {t : List (Event ServerSig)}
    {why : ExitReason} (hpath : Loop.Path (clientWorker cfg) (.enter payload) t why) : E t :=
  worker_exit_rule (J := J) (E := fun _ => E) hstart (fun l t turn l' => hturn l t turn (.inl l'))
    (fun l t turn why => hturn l t turn (.inr why)) (fun _ => hleave) hpath

/-! ### The device a turn touches -/

/-- The operations of a worker once it has decided about a packet: they receive nothing, decide nothing and
touch no device but `dev`. -/
def Acts (dev : Option Nat) : ServerOp → Prop
  | .loadRunning => False
  | .readN _ => False
  | .decided _ _ => False
  | .device p _ => dev = some p
  | _ => True

/-- The same with the decision. -/
def Handles (dev : Option Nat) : ServerOp → Prop
  | .loadRunning => False
  | .readN _ => False
  | .device p _ => dev = some p
  | _ => True

theorem Plain.acts {dev : Option Nat} {o : ServerOp} (ho : Plain dev o) : Acts dev o := by
  cases o <;> first | exact ho.1 | exact ho.elim | trivial

theorem Acts.handles {dev : Option Nat} {o : ServerOp} (ho : Acts dev o) : Handles dev o := by
  cases o <;> first | exact ho | trivial

theorem Proc.Within.acts {α : Type} {dev : Option Nat} {Q : α → Prop} {p : ServerProc α}
    (hp : p.Within (Plain dev) Q) : p.Uses (Acts dev) :=
  hp.mono (fun _ ho => ho.acts) fun _ _ => trivial

theorem Proc.Within.handles {α : Type} {dev : Option Nat} {Q : α → Prop} {p : ServerProc α}
    (hp : p.Within (Acts dev) Q) : p.Uses (Handles dev) :=
  hp.mono (fun _ ho => ho.handles) fun _ _ => trivial

/-- The operations of a turn of `client_worker`: all but those at its start and of its cleanup. -/
def inTurn : ServerOp → Bool
  | .activeAdd | .activeSub | .closeFd | .semPost | .freeArg => false
  | _ => true

/-- An operation of a turn that satisfies `P`; if it is a write, then of one reply. -/
abbrev Turning (P : ServerOp → Prop) (o : ServerOp) : Prop := P o ∧ inTurn o = true ∧ Speaks o

theorem Minor.turning {dev : Option Nat} {o : ServerOp} (ho : Minor dev o) : Turning (Acts dev) o := by
  refine ⟨ho.plain.acts, ?_, ho.speaks⟩
  cases o <;> first | exact ho.elim | rfl

theorem LooksUp.turning {o : ServerOp} (ho : LooksUp o) (dev : Option Nat) : Turning (Acts dev) o := by
  cases o <;> first | exact ho.elim | exact ⟨trivial, rfl, trivial⟩

theorem Proc.Within.turning {α : Type} {dev : Option Nat} {Q : α → Prop} {p : ServerProc α}
    (hp : p.Within (Minor dev) Q) : p.Uses (Turning (Acts dev)) :=
  hp.mono (fun _ ho => ho.turning) fun _ _ => trivial

theorem Proc.Within.weaken {α : Type} {P P' : ServerOp → Prop} {Q : α → Prop} {p : ServerProc α}
    (hp : p.Within (Turning P) Q) (hP : ∀ o, P o → P' o) : p.Uses (Turning P') :=
  hp.mono (fun _ ho => ⟨hP _ ho.1, ho.2⟩) fun _ _ => trivial

theorem handleHello_turning (cfg : Config) (l : Locals) (h : PlHeader) :
    (handleHello cfg l h).Uses (Turning (Acts l.dev)) := by
  rw [handleHello]
  split_ifs
  · exact Proc.Uses.bind (sendError_minor cfg l.dev h.deviceId .noHello).turning fun _ => trivial
  · refine within_ask ⟨trivial, rfl, trivial⟩ fun sid => ?_
    have hcall : (dtGetOrCreate h.deviceId sid).Uses (Turning (Acts l.dev)) :=
      (dtGetOrCreate_looksUp _ _).mono (fun _ ho => ho.turning l.dev) fun _ _ => trivial
    refine Proc.Uses.bind hcall fun dev => ?_
    rw [sendHelloAck_eq]
    refine within_ask ⟨trivial, rfl, .helloAck h.deviceId sid, rfl⟩ fun ok => ?_
    split_ifs <;> trivial

theorem storeReading_turning (h : PlHeader) (p : Nat) (s : SensorFields) :
    (storeReading h p s).Uses (Turning (Acts (some p))) := by
  refine within_ask ⟨trivial, rfl, trivial⟩ fun now => Proc.Uses.bind ?_ fun _ =>
    within_ask ⟨trivial, rfl, trivial⟩ fun ns => within_ask ⟨trivial, rfl, trivial⟩ fun ok => trivial
  have hdevice : ∀ a, Turning (Acts (some p)) (.device p a) := fun a => ⟨rfl, rfl, trivial⟩
  exact within_ask (hdevice _) fun _ => within_ask (hdevice _) fun _ => within_ask (hdevice _) fun _ =>
    within_ask (hdevice _) fun _ => within_ask (hdevice _) fun _ => ⟨hdevice _, fun _ => trivial⟩

theorem handleSensor_turning (cfg : Config) (l : Locals) (h : PlHeader) :
    (handleSensor cfg l h).Uses (Turning (Acts l.dev)) := by
  rw [handleSensor]
  cases hdev : l.dev with
  | none => trivial
  | some p =>
      refine Proc.Uses.bind (storeReading_turning h p (readSensor cfg l.payload.bytes)) fun _ => ?_
      simp only
      split_ifs
      · rw [sendAck_eq]
        exact within_ask ⟨trivial, rfl, .ack h.deviceId _, rfl⟩ fun _ => trivial
      · trivial

theorem dispatch_turning (cfg : Config) (l : Locals) (h : PlHeader) :
    (dispatch cfg l h).Uses (Turning (Acts l.dev)) := by
  rw [dispatch]
  split_ifs with hstate
  · exact handleHello_turning cfg l h
  · exact handleSensor_turning cfg l h
  · exact (handleFrame_minor cfg hstate h).turning
  · trivial
  · exact (strikeClose_minor cfg hstate h .badType).turning

theorem strikeOut_turning (cfg : Config) (l : Locals) (h : PlHeader) (e : PlError) :
    (strikeOut cfg l h e).Uses (Turning (Handles l.dev)) :=
  within_ask ⟨trivial, rfl, trivial⟩ fun _ =>
    Proc.Uses.bind ((reject_minor cfg l h e).turning.weaken fun _ ho => ho.handles) fun _ => trivial

theorem checkPayload_turning (cfg : Config) (l : Locals) (h : PlHeader) :
    (checkPayload cfg l h).Uses (Turning (Handles l.dev)) := by
  rw [checkPayload]
  split_ifs
  · exact strikeOut_turning cfg l h .badChecksum
  · exact within_ask ⟨trivial, rfl, trivial⟩ fun _ => (dispatch_turning cfg l h).weaken fun _ ho => ho.handles

theorem dispatch_acts (cfg : Config) (l : Locals) (h : PlHeader) : (dispatch cfg l h).Uses (Acts l.dev) :=
  (dispatch_turning cfg l h).mono (fun _ ho => ho.1) fun _ _ => trivial

theorem strikeOut_handles (cfg : Config) (l : Locals) (h : PlHeader) (e : PlError) :
    (strikeOut cfg l h e).Uses (Handles l.dev) :=
  (strikeOut_turning cfg l h e).mono (fun _ ho => ho.1) fun _ _ => trivial

theorem checkPayload_handles (cfg : Config) (l : Locals) (h : PlHeader) :
    (checkPayload cfg l h).Uses (Handles l.dev) :=
  (checkPayload_turning cfg l h).mono (fun _ ho => ho.1) fun _ _ => trivial

/-- The operations that touch no device but `dev`. -/
def OnlyOn (dev : Option Nat) : ServerOp → Prop
  | .device p _ => dev = some p
  | _ => True

/-- What follows a header: the same without a look at `running`. -/
def OnlyOnBehind (dev : Option Nat) (o : ServerOp) : Prop := OnlyOn dev o ∧ o ≠ .loadRunning

theorem Handles.onlyOnBehind {dev : Option Nat} {o : ServerOp} (ho : Handles dev o) : OnlyOnBehind dev o := by
  constructor
  · cases o <;> first | exact ho | trivial
  · rintro rfl
    exact ho

theorem handleHeader_turning (cfg : Config) (l : Locals) (h : PlHeader) :
    (handleHeader cfg l h).Uses (Turning (OnlyOnBehind l.dev)) := by
  rw [handleHeader]
  cases checkHeader h with
  | some e => exact (strikeOut_turning cfg l h e).weaken fun _ ho => ho.onlyOnBehind
  | none =>
      rw [recvPayload]
      split_ifs
      · refine within_ask ⟨⟨trivial, by simp⟩, rfl, trivial⟩ fun r => ?_
        cases r with
        | count got =>
            simp only
            split_ifs
            · exact (checkPayload_turning cfg { l with payload := l.payload.fill got } h).weaken
                fun _ ho => ho.onlyOnBehind
            · trivial
        | again got => trivial
        | failed got => trivial
      · exact (checkPayload_turning cfg l h).weaken fun _ ho => ho.onlyOnBehind

/-- A turn touches only the device of the HELLO, and neither starts the worker nor cleans up after it. -/
theorem clientTurn_turning (cfg : Config) (l : Locals) : (clientTurn cfg l).Uses (Turning (OnlyOn l.dev)) := by
  refine within_ask ⟨trivial, rfl, trivial⟩ fun running => ?_
  by_cases hrunning : running = false
  · rw [if_pos hrunning]
    trivial
  rw [if_neg hrunning]
  by_cases hstate : l.state = .closing
  · rw [if_pos hstate]
    trivial
  rw [if_neg hstate]
  refine within_ask ⟨trivial, rfl, trivial⟩ fun r => ?_
  cases r with
  | again got =>
      simp only
      split_ifs <;> trivial
  | failed got => trivial
  | count got =>
      simp only
      split_ifs
      · trivial
      · trivial
      · exact (handleHeader_turning cfg { l with idleTicks := 0 } _).weaken fun _ ho => ho.1

/-! ### The rules for monitors -/

section Rules

variable {S : Type} {M : Monitor ServerSig S} {Q : S → Turn → Prop} {cfg : Config} {l : Locals} {s : S}

/-- What follows a header: a rejection, or the payload if there is one. A read of the payload takes the monitor to
`got r`. -/
theorem handleHeader_rule {h : PlHeader} (got : ReadResult → S)
    (hreject : ∀ e, checkHeader h = some e → (strikeOut cfg l h e).Follows M Q s)
    (hread : checkHeader h = none → h.payloadLen > 0 → ∀ r, M s ⟨.readN h.payloadLen.toNat, r⟩ = some (got r))
    (hshort : checkHeader h = none → ∀ r, (∀ bs, r = .count bs → bs.length ≠ h.payloadLen.toNat) →
      Q (got r) (.inr .midPayload))
    (hwhole : checkHeader h = none → ∀ bs, bs.length = h.payloadLen.toNat →
      (checkPayload cfg { l with payload := l.payload.fill bs } h).Follows M Q (got (.count bs)))
    (hempty : checkHeader h = none → ¬ h.payloadLen > 0 → (checkPayload cfg l h).Follows M Q s) :
    (handleHeader cfg l h).Follows M Q s := by
  rw [handleHeader]
  cases hcheck : checkHeader h with
  | some e => exact hreject e hcheck
  | none =>
      simp only [recvPayload]
      split_ifs with hlen
      · refine Proc.Follows.perform fun r => ⟨got r, hread hcheck hlen r, ?_⟩
        cases r with
        | count bs =>
            simp only
            split_ifs with hsize
            · exact hwhole hcheck bs hsize
            · refine hshort hcheck _ fun bs' hbs => ?_
              cases hbs
              exact hsize
        | again bs => exact hshort hcheck _ fun bs' hbs => by cases hbs
        | failed bs => exact hshort hcheck _ fun bs' hbs => by cases hbs
      · exact hempty hcheck hlen

/-- A turn: a look at `running`, which takes the monitor to `look running`, and the read of a header, which takes it
to `got r`. -/
theorem clientTurn_rule (look : Bool → S) (got : ReadResult → S)
    (hlook : ∀ running, M s ⟨.loadRunning, running⟩ = some (look running))
    (hstopped : Q (look false) (.inr .shutdown)) (hclosing : l.state = .closing → Q (look true) (.inr .closing))
    (hread : l.state ≠ .closing → ∀ r, M (look true) ⟨.readN PL_HDR_SIZE, r⟩ = some (got r))
    (hlate : l.state ≠ .closing → ∀ bs, Q (got (.again bs)) (.inl { l with idleTicks := l.idleTicks + 1 }))
    (hexit : l.state ≠ .closing → ∀ r, (∀ bs, r = .count bs → bs.length ≠ PL_HDR_SIZE) →
      ∀ why ∈ [ExitReason.idle, .recvError, .closed, .midHeader], Q (got r) (.inr why))
    (hheader : l.state ≠ .closing → ∀ bs, bs.length = PL_HDR_SIZE →
      (handleHeader cfg { l with idleTicks := 0 } (plParseHeader cfg.host bs)).Follows M Q (got (.count bs))) :
    (clientTurn cfg l).Follows M Q s := by
  rw [clientTurn]
  refine Proc.Follows.perform fun running => ⟨look running, hlook running, ?_⟩
  cases running with
  | false => exact hstopped
  | true =>
      rw [if_neg (show ¬ true = false by decide)]
      by_cases hstate : l.state = .closing
      · rw [if_pos hstate]
        exact hclosing hstate
      rw [if_neg hstate]
      refine Proc.Follows.perform fun r => ⟨got r, hread hstate r, ?_⟩
      cases r with
      | again bs =>
          simp only
          split_ifs
          · exact hexit hstate _ (fun bs' hbs => by cases hbs) _ (by simp)
          · exact hlate hstate bs
      | failed bs => exact hexit hstate _ (fun bs' hbs => by cases hbs) _ (by simp)
      | count bs =>
          simp only
          split_ifs with hnone hsize
          · refine hexit hstate _ (fun bs' hbs => ?_) _ (by simp)
            cases hbs
            rw [hnone]
            decide
          · refine hexit hstate _ (fun bs' hbs => ?_) _ (by simp)
            cases hbs
            exact hsize
          · exact hheader hstate bs (not_not.mp hsize)

end Rules

end PulseLink
