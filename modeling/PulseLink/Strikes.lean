import PulseLink.Dialogue
import PulseLink.Session
import PulseLink.WorkerRun
import Mathlib.Data.List.DropRight

/-! Three strikes. The conduct of a peer is read off the events of its connection: the header and the payload
received last, the first check they fail once the packet is complete, and from these what became of each
packet. The worker's `strikes` counts the packets rejected since the last that passed; every rejection is
answered by one PKT_ERROR with the code of the check that failed; and after the third in a row the worker reads
nothing more. -/

namespace PulseLink

open Bytes

/-! ### What becomes of a packet -/

inductive Ruling where
  /-- an answered HELLO, a SENSOR packet, a chunk of a frame that is not malformed -/
  | passed
  /-- a HELLO after the first -/
  | ignored
  /-- no HELLO where one was due -/
  | refused (h : PlHeader)
  | rejected (h : PlHeader) (e : PlError)
  deriving DecidableEq, Repr

def Ruling.resets : Ruling → Bool
  | .passed => true
  | _ => false

def Ruling.rejects : Ruling → Bool
  | .rejected _ _ => true
  | _ => false

/-- The PKT_ERROR it calls for. -/
def Ruling.reply : Ruling → Option (List UInt8)
  | .rejected h e => some (errorPacket h.deviceId e)
  | .refused h => some (errorPacket h.deviceId .noHello)
  | _ => none

/-- The first check a packet fails, in the order magic, version, length, checksum. -/
def firstFailing (h : PlHeader) (payload : List UInt8) : Option PlError :=
  if h.magic ≠ PL_MAGIC then some .badMagic
  else if h.version ≠ PL_VERSION then some .badVersion
  else if h.payloadLen > PL_MAX_PAYLOAD then some .tooBig
  else if plChecksum payload ≠ h.checksum then some .badChecksum
  else none

theorem firstFailing_eq (h : PlHeader) (payload : List UInt8) :
    firstFailing h payload =
      (checkHeader h).or (if plChecksum payload ≠ h.checksum then some .badChecksum else none) := by
  rw [firstFailing, checkHeader]
  split_ifs <;> rfl

/-! ### The conduct of a peer -/

/-- What the events so far say about a peer. -/
structure Conduct where
  /-- its HELLO has been answered -/
  greeted : Bool
  /-- the last event was a look at `running`, so the next read is of a header -/
  looked : Bool
  /-- the header received last -/
  header : PlHeader
  /-- what was received behind it -/
  payload : List UInt8
  rulings : List Ruling
  /-- the PKT_ERRORs sent -/
  errors : List (List UInt8)

namespace Conduct

def start (host : Endian) : Conduct := ⟨false, false, plParseHeader host [], [], [], []⟩

def rule (s : Conduct) (r : Ruling) : Conduct := { s with rulings := s.rulings ++ [r] }

/-- The packets rejected since the last that passed. -/
def strikes (s : Conduct) : Nat := (s.rulings.rtakeWhile fun r => !r.resets).countP Ruling.rejects

/-- The packet is complete. What becomes of a HELLO is known once its answer is sent, what becomes of a chunk
once the assembler has taken it. -/
def judge (s : Conduct) : Conduct :=
  match firstFailing s.header s.payload with
  | some e => s.rule (.rejected s.header e)
  | none =>
      if s.greeted = false then
        if s.header.type = PktType.hello.code then s else s.rule (.refused s.header)
      else if s.header.type = PktType.sensor.code then s.rule .passed
      else if s.header.type = PktType.frame.code then s
      else if s.header.type = PktType.hello.code then s.rule .ignored
      else s.rule (.rejected s.header .badType)

/-- A whole header has been received. Its packet is complete if nothing more of it is read. -/
def receiveHeader (host : Endian) (s : Conduct) (hdr : List UInt8) : Conduct :=
  let s := { s with looked := false, header := plParseHeader host hdr, payload := [] }
  if checkHeader s.header = none ∧ s.header.payloadLen > 0 then s else s.judge

/-- Bytes have been received behind a header; the packet is complete with the last of them. -/
def receivePayload (s : Conduct) (got : List UInt8) : Conduct :=
  if got.length = s.header.payloadLen.toNat then { s with payload := got }.judge else s

def receive (host : Endian) (s : Conduct) : ReadResult → Conduct
  | .count got =>
      if s.looked then
        if got.length = PL_HDR_SIZE then s.receiveHeader host got else { s with looked := false }
      else s.receivePayload got
  | _ => { s with looked := false }

/-- What a reply adds: a PKT_ERROR, or a HELLO_ACK that went out. -/
def reply (s : Conduct) (bs : List UInt8) (sent : Bool) : Conduct :=
  if bs.getD 3 0 = PktType.error.code then { s with errors := s.errors ++ [bs] }
  else if bs.getD 3 0 = PktType.helloAck.code ∧ sent = true then { s.rule .passed with greeted := true }
  else s

def step (host : Endian) (s : Conduct) : Event ServerSig → Conduct
  | ⟨.loadRunning, _⟩ => { s with looked := true }
  | ⟨.readN _, r⟩ => s.receive host r
  | ⟨.fed .malformed, _⟩ => s.rule (.rejected s.header .tooBig)
  | ⟨.fed _, _⟩ => s.rule .passed
  | ⟨.writeN bs, sent⟩ => s.reply bs sent
  | _ => s

end Conduct

/-- The conduct that a history shows. -/
def conduct (host : Endian) (t : List (Event ServerSig)) : Conduct := t.foldl (Conduct.step host) (.start host)

/-! ### Counting -/

namespace Conduct

@[simp] theorem strikes_passed (s : Conduct) : (s.rule .passed).strikes = 0 := by
  rw [strikes, rule, List.rtakeWhile_concat_neg _ _ _ (by decide)]
  rfl

/-- A ruling that does not reset adds to the count if it is a rejection. -/
theorem strikes_rule (s : Conduct) {r : Ruling} (hr : r.resets = false) :
    (s.rule r).strikes = s.strikes + if r.rejects then 1 else 0 := by
  rw [strikes, rule, List.rtakeWhile_concat_pos _ _ _ (by simp [hr]), List.countP_append, List.countP_singleton]
  rfl

@[simp] theorem strikes_rejected (s : Conduct) (h : PlHeader) (e : PlError) :
    (s.rule (.rejected h e)).strikes = s.strikes + 1 :=
  s.strikes_rule rfl

@[simp] theorem strikes_ignored (s : Conduct) : (s.rule .ignored).strikes = s.strikes := s.strikes_rule rfl

@[simp] theorem strikes_refused (s : Conduct) (h : PlHeader) : (s.rule (.refused h)).strikes = s.strikes :=
  s.strikes_rule rfl

/-- Every ruling has had the reply it calls for. -/
def Answered (s : Conduct) : Prop := s.errors = s.rulings.filterMap Ruling.reply

theorem Answered.rule {s : Conduct} (hs : s.Answered) {r : Ruling} (hr : r.reply = none) :
    (s.rule r).Answered := by
  rw [Answered, Conduct.rule, List.filterMap_append, List.filterMap_cons_none hr, List.filterMap_nil,
    List.append_nil]
  exact hs

/-- The reply a ruling calls for is sent. -/
theorem Answered.reply {s : Conduct} (hs : s.Answered) {r : Ruling} {deviceId : UInt32} {e : PlError}
    (hr : r.reply = some (errorPacket deviceId e)) (sent : Bool) :
    (s.rule r).reply (errorPacket deviceId e) sent =
        { s.rule r with errors := s.errors ++ [errorPacket deviceId e] } ∧
      ((s.rule r).reply (errorPacket deviceId e) sent).Answered := by
  have hreply : (s.rule r).reply (errorPacket deviceId e) sent =
      { s.rule r with errors := s.errors ++ [errorPacket deviceId e] } := if_pos rfl
  refine ⟨hreply, ?_⟩
  rw [hreply, Answered, Conduct.rule, List.filterMap_append, List.filterMap_cons_some hr, List.filterMap_nil]
  exact congrArg (· ++ _) hs

end Conduct

/-! ### The policy -/

/-- The monitor that follows the conduct of the peer and allows no read after the third strike. -/
def policy (host : Endian) : Monitor ServerSig Conduct := fun s e =>
  match e.op with
  | .readN _ => if s.strikes < 3 then some (s.step host e) else none
  | _ => some (s.step host e)

theorem policy_eq {host : Endian} {s s' : Conduct} {e : Event ServerSig} (hmove : policy host s e = some s') :
    s' = s.step host e ∧ ∀ n, e.op = .readN n → s.strikes < 3 := by
  obtain ⟨o, ans⟩ := e
  cases o with
  | readN n =>
      simp only [policy] at hmove
      split_ifs at hmove with hfew
      exact ⟨(Option.some.inj hmove).symm, fun _ _ => hfew⟩
  | _ => exact ⟨(Option.some.inj hmove).symm, nofun⟩

/-- The conduct of a trace that the policy allows, and the count at each of its reads. -/
theorem policy_accepts {host : Endian} {s s' : Conduct} {t : List (Event ServerSig)}
    (haccepts : (policy host).Accepts s t s') :
    s' = t.foldl (Conduct.step host) s ∧
      ∀ before n r after, t = before ++ ⟨.readN n, r⟩ :: after →
        (before.foldl (Conduct.step host) s).strikes < 3 := by
  induction haccepts with
  | nil s => exact ⟨rfl, fun before n r after hsplit => by simp at hsplit⟩
  | @cons s s₁ s' e t hmove _ ih =>
      obtain ⟨rfl, hfew⟩ := policy_eq hmove
      refine ⟨ih.1, fun before n r after hsplit => ?_⟩
      cases before with
      | nil =>
          cases hsplit
          exact hfew n rfl
      | cons e' before =>
          obtain ⟨rfl, rfl⟩ := List.cons.inj hsplit
          exact ih.2 before n r after rfl

/-- How the conduct fits the locals at the top of the loop. -/
structure Tallied (l : Locals) (s : Conduct) : Prop where
  strikes : l.strikes = s.strikes
  few : l.state ≠ .closing → s.strikes < 3
  third : l.state = .closing → s.strikes = 3
  greeted : s.greeted = true ↔ l.state ≠ .waitHello
  answered : s.Answered

/-- How it fits the reason for leaving. -/
structure ExitSettled (why : ExitReason) (s : Conduct) : Prop where
  answered : s.Answered
  struck : why = .strikes ∨ why = .closing → s.strikes = 3
  ends : s.strikes < 3 ∨ (s.strikes = 3 ∧ (why = .strikes ∨ why = .closing ∨ why = .shutdown))

def Standing : WorkerPc → Conduct → Prop
  | .enter _, s => s.greeted = false ∧ s.strikes = 0 ∧ s.Answered
  | .running l, s => Tallied l s
  | .leave why, s => ExitSettled why s

/-- What a turn leads to. -/
def TurnStands (s : Conduct) (x : Turn) : Prop := Monitor.Turned Standing ExitSettled s (WorkerPc.next x)

theorem turnStands_exit {s : Conduct} {why : ExitReason} (hsettled : ExitSettled why s) :
    TurnStands s (.inr why) := by
  cases why <;> exact hsettled

/-- Leaving for another reason than strikes. -/
theorem Tallied.exit {l : Locals} {s : Conduct} (hl : Tallied l s) (hstate : l.state ≠ .closing) {why : ExitReason}
    (hstrikes : why ≠ .strikes) (hclosing : why ≠ .closing) : TurnStands s (.inr why) :=
  turnStands_exit ⟨hl.answered, fun hwhy => absurd hwhy (not_or.mpr ⟨hstrikes, hclosing⟩), Or.inl (hl.few hstate)⟩

section Follows

variable {α : Type} {Q : Conduct → α → Prop} {host : Endian} {s : Conduct}

theorem policy_ask {o : ServerOp} {f : o.Ans → ServerProc α} (ho : ∀ n, o ≠ .readN n)
    (hf : ∀ ans, (f ans).Follows (policy host) Q (s.step host ⟨o, ans⟩)) :
    (ask o >>= f).Follows (policy host) Q s := by
  refine fun ans => ⟨s.step host ⟨o, ans⟩, ?_, hf ans⟩
  cases o with
  | readN n => exact absurd rfl (ho n)
  | _ => rfl

/-- The operations that say nothing about the peer. -/
def Unseen : ServerOp → Prop
  | .loadRunning | .readN _ | .fed _ | .writeN _ => False
  | _ => True

theorem Unseen.step {o : ServerOp} (ho : Unseen o) (host : Endian) (s : Conduct) (ans : o.Ans) :
    s.step host ⟨o, ans⟩ = s := by
  cases o <;> first | exact ho.elim | rfl

theorem Unseen.stays {o : ServerOp} (ans : o.Ans) (ho : Unseen o) : policy host s ⟨o, ans⟩ = some s := by
  cases o <;> first | exact ho.elim | rfl

/-- A program that says nothing about the peer. -/
theorem follows_unseen {p : ServerProc α} (hp : p.Uses Unseen) :
    p.Follows (policy host) (fun s' _ => s' = s) s :=
  Proc.Follows.mono (fun _ _ hQ => hQ.1) (hp.follows fun _ ans ho => ho.stays ans)

/-! #### Rejections -/

theorem sendError_policy (cfg : Config) (deviceId : UInt32) (e : PlError) :
    (sendError cfg deviceId e).Follows (policy host)
      (fun s' sent => s' = s.reply (errorPacket deviceId e) sent) s := by
  rw [sendError_eq]
  exact fun sent => ⟨_, rfl, rfl⟩

theorem dtRecordBad_unseen (dev : Option Nat) : (dtRecordBad dev).Uses Unseen := by
  cases dev with
  | none => trivial
  | some p => exact ⟨trivial, fun _ => trivial⟩

/-- From the ruling to its reply. -/
theorem reject_policy (cfg : Config) (l : Locals) {h : PlHeader} {e : PlError} (hs : s.Answered) :
    (reject cfg l h e).Follows (policy host)
      (fun s' l' => l' = { l with strikes := l.strikes + 1 } ∧ s'.strikes = s.strikes + 1 ∧
        s'.greeted = s.greeted ∧ s'.Answered)
      (s.rule (.rejected h e)) := by
  refine (sendError_policy cfg h.deviceId e).bind ?_
  rintro s' sent rfl
  obtain ⟨hreply, hanswered⟩ := hs.reply (r := .rejected h e) rfl sent
  refine (follows_unseen (dtRecordBad_unseen l.dev)).bind ?_
  rintro s' _ rfl
  refine ⟨rfl, ?_, ?_, hanswered⟩
  · rw [hreply]
    exact s.strikes_rejected h e
  · rw [hreply]
    rfl

/-- A failed framing check. -/
theorem strikeOut_policy (cfg : Config) {l : Locals} (hl : Tallied l s) (hstate : l.state ≠ .closing) {e : PlError}
    (hfail : firstFailing s.header s.payload = some e) :
    (strikeOut cfg l s.header e).Follows (policy host) TurnStands s.judge := by
  refine policy_ask nofun fun _ => ?_
  have hjudge : s.judge.step host ⟨.decided s.header (.rejected e), ()⟩ = s.rule (.rejected s.header e) := by
    show s.judge = _
    rw [Conduct.judge, hfail]
  rw [hjudge]
  refine (reject_policy cfg l hl.answered).bind ?_
  rintro s' l' ⟨rfl, hstrikes, hgreeted, hanswered⟩
  have hcount : s.strikes < 3 := hl.few hstate
  show TurnStands s' (if l.strikes + 1 ≥ 3 then _ else _)
  rw [hl.strikes]
  split_ifs with hthird
  · have hthree : s'.strikes = 3 := by omega
    exact turnStands_exit ⟨hanswered, fun _ => hthree, Or.inr ⟨hthree, Or.inl rfl⟩⟩
  · exact ⟨hstrikes.symm, fun _ => by omega, fun hclosing => absurd hclosing hstate,
      hgreeted ▸ hl.greeted, hanswered⟩

/-- A rejection after the framing checks. -/
theorem strikeClose_policy (cfg : Config) {l : Locals} (hl : Tallied l s) (hstate : l.state = .active)
    (h : PlHeader) (e : PlError) :
    (strikeClose cfg l h e).Follows (policy host) TurnStands (s.rule (.rejected h e)) := by
  refine (reject_policy cfg l hl.answered).bind ?_
  rintro s' l' ⟨rfl, hstrikes, hgreeted, hanswered⟩
  have hcount : s.strikes < 3 := hl.few (by rw [hstate]; nofun)
  have hgreeted' : s'.greeted = true := hgreeted.trans (hl.greeted.mpr (by rw [hstate]; nofun))
  show Tallied (if l.strikes + 1 ≥ 3 then _ else _) s'
  rw [hl.strikes]
  split_ifs with hthird
  · exact ⟨hstrikes.symm, fun hne => absurd rfl hne, fun _ => by omega, iff_of_true hgreeted' nofun, hanswered⟩
  · exact ⟨hstrikes.symm, fun _ => by omega, fun hclosing => (by rw [hstate] at hclosing; cases hclosing),
      iff_of_true hgreeted' (by rw [hstate]; nofun), hanswered⟩

/-! #### Packets that pass -/

theorem Tallied.passed {l : Locals} (hanswered : s.Answered) (hgreeted : s.greeted = true)
    (hstate : l.state = .active)
    (hzero : l.strikes = 0) : Tallied l (s.rule .passed) where
  strikes := by rw [hzero, Conduct.strikes_passed]
  few := fun _ => by rw [Conduct.strikes_passed]; decide
  third := fun hclosing => by rw [hstate] at hclosing; cases hclosing
  greeted := iff_of_true hgreeted (by rw [hstate]; nofun)
  answered := hanswered.rule rfl

theorem saveFrame_unseen (cfg : Config) (h : PlHeader) (img : Image) : (saveFrame cfg h img).Uses Unseen :=
  (saveFrame_saves cfg h img).mono (fun o ho => by cases o <;> first | exact ho.elim | trivial) fun _ _ => trivial

theorem handleFrame_policy (cfg : Config) {l : Locals} (hl : Tallied l s) (hstate : l.state = .active) :
    (handleFrame cfg l s.header).Follows (policy host) TurnStands s := by
  have hgreeted : s.greeted = true := hl.greeted.mpr (by rw [hstate]; nofun)
  refine policy_ask nofun fun alloc => ?_
  refine policy_ask nofun fun _ => ?_
  generalize frameAsmFeed alloc l.fa (l.payload.bytes.take s.header.payloadLen.toNat) = r
  obtain ⟨result, fa⟩ := r
  cases result with
  | malformed =>
      have hfa : Tallied { l with fa := fa } s := ⟨hl.strikes, hl.few, hl.third, hl.greeted, hl.answered⟩
      exact strikeClose_policy cfg hfa hstate s.header .tooBig
  | more => exact Tallied.passed hl.answered hgreeted hstate rfl
  | complete img =>
      refine (follows_unseen (saveFrame_unseen cfg s.header img)).bind ?_
      rintro s' _ rfl
      exact Tallied.passed hl.answered hgreeted hstate rfl

theorem storeReading_unseen (h : PlHeader) (p : Nat) (f : SensorFields) : (storeReading h p f).Uses Unseen := by
  refine within_ask trivial fun now => Proc.Uses.bind ?_ fun _ =>
    within_ask trivial fun ns => within_ask trivial fun ok => trivial
  exact within_ask trivial fun _ => within_ask trivial fun _ => within_ask trivial fun _ =>
    within_ask trivial fun _ => within_ask trivial fun _ => ⟨trivial, fun _ => trivial⟩

/-- An acknowledgement says nothing. -/
theorem reply_ack (deviceId seq : UInt32) (sent : Bool) : s.reply (ackPacket deviceId seq) sent = s := by
  rw [Conduct.reply, ackPacket, packetBytes_type, if_neg (by decide),
    if_neg (fun hack => absurd hack.1 (by decide))]

/-- A SENSOR packet has passed when it is accepted, whether or not there is a device to store it for. -/
theorem handleSensor_policy (cfg : Config) {l : Locals} (hl : Tallied l s) (hstate : l.state = .active)
    (h : PlHeader) : (handleSensor cfg l h).Follows (policy host) TurnStands (s.rule .passed) := by
  have hgreeted : s.greeted = true := hl.greeted.mpr (by rw [hstate]; rintro ⟨⟩)
  rw [handleSensor]
  cases l.dev with
  | none =>
      have hzero : (s.rule .passed).strikes < 3 := by rw [Conduct.strikes_passed]; decide
      exact turnStands_exit ⟨hl.answered.rule rfl, by simp, Or.inl hzero⟩
  | some p =>
      refine (follows_unseen (storeReading_unseen h p _)).bind ?_
      rintro s' _ rfl
      simp only
      split_ifs
      · rw [sendAck_eq]
        refine policy_ask (by simp) fun sent => ?_
        have hack : (s.rule .passed).step host ⟨.writeN (ackPacket h.deviceId
            (readSensor cfg l.payload.bytes).seq), sent⟩ = s.rule .passed := reply_ack _ _ sent
        rw [hack]
        exact Tallied.passed hl.answered hgreeted hstate rfl
      · exact Tallied.passed hl.answered hgreeted hstate rfl

theorem dtGetOrCreate_unseen (id sessionId : UInt32) : (dtGetOrCreate id sessionId).Uses Unseen :=
  (dtGetOrCreate_looksUp id sessionId).mono (fun o ho => by cases o <;> first | exact ho.elim | trivial)
    fun _ _ => trivial

theorem reply_helloAck (deviceId sessionId : UInt32) (sent : Bool) :
    s.reply (helloAckPacket deviceId sessionId) sent =
      if sent = true then { s.rule .passed with greeted := true } else s := by
  rw [Conduct.reply, helloAckPacket, packetBytes_type, if_neg (by decide)]
  exact if_congr (and_iff_right rfl) rfl rfl

/-- The HELLO has passed once it is answered; any other packet is refused. -/
theorem handleHello_policy (cfg : Config) {l : Locals} (hl : Tallied l s) (hstate : l.state = .waitHello) :
    (handleHello cfg l s.header).Follows (policy host) TurnStands
      (if s.header.type = PktType.hello.code then s else s.rule (.refused s.header)) := by
  have hopen : l.state ≠ .closing := by rw [hstate]; rintro ⟨⟩
  rw [handleHello]
  by_cases htype : s.header.type = PktType.hello.code
  · rw [if_neg (not_not.mpr htype), if_pos htype]
    refine policy_ask (by simp) fun sessionId => ?_
    refine (follows_unseen (dtGetOrCreate_unseen _ sessionId)).bind ?_
    intro s' dev hs'
    rw [sendHelloAck_eq, hs']
    refine policy_ask (by simp) fun sent => ?_
    have hack : s.step host ⟨.writeN (helloAckPacket s.header.deviceId sessionId), sent⟩ =
        if sent = true then { s.rule .passed with greeted := true } else s := reply_helloAck _ _ sent
    show Proc.Follows (policy host) TurnStands (s.step host _) _
    rw [hack]
    split_ifs
    · exact Tallied.passed (s := { s with greeted := true }) hl.answered rfl rfl rfl
    · exact hl.exit hopen (by simp) (by simp)
  · rw [if_pos htype, if_neg htype]
    refine (sendError_policy cfg s.header.deviceId .noHello).bind ?_
    rintro s' sent rfl
    obtain ⟨hreply, hanswered⟩ := hl.answered.reply (r := .refused s.header) rfl sent
    refine turnStands_exit ⟨hanswered, by simp, Or.inl ?_⟩
    rw [hreply]
    exact (s.strikes_refused s.header).trans_lt (hl.few hopen)

/-! #### Turns -/

/-- A packet that passes the framing checks. -/
theorem dispatch_policy (cfg : Config) {l : Locals} (hl : Tallied l s) (hstate : l.state ≠ .closing)
    (hpass : firstFailing s.header s.payload = none) :
    (dispatch cfg l s.header).Follows (policy host) TurnStands s.judge := by
  rw [dispatch, Conduct.judge, hpass]
  by_cases hwait : l.state = .waitHello
  · have hgreeted : s.greeted = false := Bool.eq_false_of_not_eq_true fun hg => hl.greeted.mp hg hwait
    rw [if_pos hwait]
    simp only [hgreeted, if_true]
    exact handleHello_policy cfg hl hwait
  have hactive : l.state = .active := by
    cases hs : l.state with
    | waitHello => exact absurd hs hwait
    | active => rfl
    | closing => exact absurd hs hstate
  have hgreeted : s.greeted = true := hl.greeted.mpr hwait
  rw [if_neg hwait]
  simp only [hgreeted, Bool.true_eq_false, if_false]
  split_ifs with hsensor hframe hhello
  · exact handleSensor_policy cfg hl hactive s.header
  · exact handleFrame_policy cfg hl hactive
  · refine ⟨hl.strikes.trans s.strikes_ignored.symm, fun hne => ?_, fun hclosing => absurd hclosing hstate,
      hl.greeted, hl.answered.rule rfl⟩
    rw [Conduct.strikes_ignored]
    exact hl.few hne
  · exact strikeClose_policy cfg hl hactive s.header .badType

/-- A packet whose header is acceptable and whose payload is in the buffer. -/
theorem checkPayload_policy (cfg : Config) {l : Locals} (hl : Tallied l s) (hstate : l.state ≠ .closing)
    (hcheck : checkHeader s.header = none)
    (hpayload : s.payload = l.payload.bytes.take s.header.payloadLen.toNat) :
    (checkPayload cfg l s.header).Follows (policy host) TurnStands s.judge := by
  have hfirst := firstFailing_eq s.header s.payload
  rw [hcheck, Option.none_or, hpayload] at hfirst
  rw [checkPayload]
  split_ifs at hfirst ⊢ with hsum
  · exact strikeOut_policy cfg hl hstate (hpayload ▸ hfirst)
  · refine policy_ask (by simp) fun _ => ?_
    exact dispatch_policy cfg hl hstate (hpayload ▸ hfirst)

/-- A packet whose header has been received. -/
theorem handleHeader_policy (cfg : Config) {l : Locals} (hl : Tallied l s) (hstate : l.state ≠ .closing)
    (hdr : List UInt8) :
    (handleHeader cfg l (plParseHeader host hdr)).Follows (policy host) TurnStands (s.receiveHeader host hdr) := by
  let s₁ : Conduct := { s with looked := false, header := plParseHeader host hdr, payload := [] }
  have hl₁ : Tallied l s₁ := ⟨hl.strikes, hl.few, hl.third, hl.greeted, hl.answered⟩
  have hmore : s.receiveHeader host hdr =
      if checkHeader s₁.header = none ∧ s₁.header.payloadLen > 0 then s₁ else s₁.judge := rfl
  rw [hmore]
  refine handleHeader_rule (s₁.receive host) ?_ ?_ ?_ ?_ ?_
  · intro e hcheck
    rw [if_neg fun hboth => Option.some_ne_none e (hcheck.symm.trans hboth.1)]
    refine strikeOut_policy cfg hl₁ hstate ?_
    rw [firstFailing_eq, show checkHeader s₁.header = some e from hcheck]
    rfl
  · intro hcheck hlen r
    rw [if_pos ⟨hcheck, hlen⟩]
    exact if_pos (hl.few hstate)
  · intro hcheck r hshort
    have hmid : TurnStands s₁ (.inr .midPayload) := hl₁.exit hstate (by simp) (by simp)
    cases r with
    | count bs =>
        have hstep : s₁.receive host (.count bs) = s₁ := if_neg (hshort bs rfl)
        rw [hstep]
        exact hmid
    | again bs => exact hmid
    | failed bs => exact hmid
  · intro hcheck bs hsize
    have hstep : s₁.receive host (.count bs) = { s₁ with payload := bs }.judge := if_pos hsize
    have hread : Tallied { l with payload := l.payload.fill bs } { s₁ with payload := bs } :=
      ⟨hl.strikes, hl.few, hl.third, hl.greeted, hl.answered⟩
    rw [hstep]
    refine checkPayload_policy cfg hread hstate hcheck ?_
    show bs = (l.payload.fill bs).bytes.take s₁.header.payloadLen.toNat
    rw [← hsize, l.payload.take_fill (hsize ▸ (checkHeader_eq_none.mp hcheck).2.2)]
  · intro hcheck hlen
    have hzero : s₁.header.payloadLen.toNat = 0 := Nat.eq_zero_of_not_pos fun hpos => hlen hpos
    rw [if_neg fun hboth => hlen hboth.2]
    exact checkPayload_policy cfg hl₁ hstate hcheck (by rw [hzero, List.take_zero])

theorem clientTurn_policy (cfg : Config) {l : Locals} (hl : Tallied l s) :
    (clientTurn cfg l).Follows (policy cfg.host) TurnStands s := by
  have hread : ∀ ticks, Tallied { l with idleTicks := ticks } { s with looked := false } :=
    fun ticks => ⟨hl.strikes, hl.few, hl.third, hl.greeted, hl.answered⟩
  refine clientTurn_rule (fun _ => { s with looked := true }) ({ s with looked := true }.receive cfg.host)
    (fun _ => rfl) ?_ ?_ ?_ ?_ ?_ ?_
  · refine turnStands_exit ⟨hl.answered, by simp, ?_⟩
    by_cases hclosing : l.state = .closing
    · exact Or.inr ⟨hl.third hclosing, Or.inr (Or.inr rfl)⟩
    · exact Or.inl (hl.few hclosing)
  · intro hstate
    have hthird : s.strikes = 3 := hl.third hstate
    exact turnStands_exit ⟨hl.answered, fun _ => hthird, Or.inr ⟨hthird, Or.inr (Or.inl rfl)⟩⟩
  · exact fun hstate r => if_pos (hl.few hstate)
  · exact fun _ _ => hread (l.idleTicks + 1)
  · intro hstate r hshort why hwhy
    have hexit : TurnStands { s with looked := false } (.inr why) := by
      refine (hread l.idleTicks).exit hstate ?_ ?_
      · rintro rfl
        simp at hwhy
      · rintro rfl
        simp at hwhy
    cases r with
    | count bs =>
        have hstep : { s with looked := true }.receive cfg.host (.count bs) = { s with looked := false } :=
          if_neg (hshort bs rfl)
        rw [hstep]
        exact hexit
    | again bs => exact hexit
    | failed bs => exact hexit
  · intro hstate bs hsize
    have hstep : { s with looked := true }.receive cfg.host (.count bs) = s.receiveHeader cfg.host bs := if_pos hsize
    have hcalm : Tallied { l with idleTicks := 0 } s := ⟨hl.strikes, hl.few, hl.third, hl.greeted, hl.answered⟩
    rw [hstep]
    exact handleHeader_policy cfg hcalm hstate bs

/-- The worker keeps to the policy. -/
theorem worker_policy (cfg : Config) {pc : WorkerPc} (hs : Standing pc s) :
    (clientWorker cfg pc).Follows (policy cfg.host) (Monitor.Turned Standing ExitSettled) s := by
  cases pc with
  | enter payload =>
      obtain ⟨hgreeted, hzero, hanswered⟩ := hs
      refine policy_ask nofun fun _ => ?_
      exact ⟨hzero.symm, fun _ => hzero.trans_lt (by decide), nofun,
        iff_of_false (by rw [show (s.step cfg.host ⟨.activeAdd, ()⟩).greeted = false from hgreeted]; decide)
          (not_not.mpr rfl), hanswered⟩
  | running l => exact (clientTurn_policy cfg hs).bind fun s' x hx => hx
  | leave why =>
      have hunseen : (clientWorker cfg (.leave why)).Within Unseen fun x => x = .inr why :=
        within_ask trivial fun _ => within_ask trivial fun _ => within_ask trivial fun _ =>
          within_ask trivial fun _ => rfl
      refine Proc.Follows.mono ?_ (hunseen.follows fun _ ans ho => ho.stays ans)
      rintro s' x ⟨rfl, rfl⟩
      exact hs

end Follows

/-! ### Whole connections -/

theorem standing_start (host : Endian) (payload : PayloadBuf) : Standing (.enter payload) (.start host) :=
  ⟨rfl, rfl, rfl⟩

theorem arrives_tallied {cfg : Config} {payload : PayloadBuf} {t : List (Event ServerSig)} {l : Locals}
    (harrives : Loop.Arrives (clientWorker cfg) (.enter payload) t (.running l)) :
    Tallied l (conduct cfg.host t) := by
  obtain ⟨s', haccepts, hstanding⟩ := harrives.accepts (fun _ _ hs => worker_policy cfg hs)
    (standing_start cfg.host payload)
  obtain ⟨rfl, -⟩ := policy_accepts haccepts
  exact hstanding

theorem path_settled {cfg : Config} {payload : PayloadBuf} {t : List (Event ServerSig)} {why : ExitReason}
    (hpath : Loop.Path (clientWorker cfg) (.enter payload) t why) :
    ExitSettled why (conduct cfg.host t) ∧ ∀ before n r after, t = before ++ ⟨.readN n, r⟩ :: after →
      (conduct cfg.host before).strikes < 3 := by
  obtain ⟨pc, t₁, t₂, rfl, harrives, hlast⟩ := hpath.arrives
  obtain ⟨s₁, haccepts₁, hstanding⟩ := harrives.accepts (fun _ _ hs => worker_policy cfg hs)
    (standing_start cfg.host payload)
  obtain ⟨s₂, haccepts₂, hsettled⟩ := (worker_policy cfg hstanding).reach hlast.reach
  obtain ⟨rfl, hreads⟩ := policy_accepts (haccepts₁.append haccepts₂)
  exact ⟨hsettled, hreads⟩

/-- **Three strikes.** At the top of the loop `strikes` is the number of packets rejected since the last that
passed, below 3 unless the worker is about to leave. Every rejection has been answered by one PKT_ERROR, of the
first check that failed. The worker takes no packet after a third rejection in a row, and leaves for strikes
exactly if there was one; the server's own end can only come first. -/
theorem three_strikes (cfg : Config) (payload : PayloadBuf) :
    (∀ t l, Loop.Arrives (clientWorker cfg) (.enter payload) t (.running l) →
      l.strikes = (conduct cfg.host t).strikes ∧ (l.state ≠ .closing → l.strikes < 3) ∧
        (conduct cfg.host t).errors = (conduct cfg.host t).rulings.filterMap Ruling.reply) ∧
    ∀ t why, Loop.Path (clientWorker cfg) (.enter payload) t why →
      (conduct cfg.host t).errors = (conduct cfg.host t).rulings.filterMap Ruling.reply ∧
      (why = .strikes ∨ why = .closing → (conduct cfg.host t).strikes = 3) ∧
      (3 ≤ (conduct cfg.host t).strikes → why = .strikes ∨ why = .closing ∨ why = .shutdown) ∧
      ∀ before n r after, t = before ++ ⟨.readN n, r⟩ :: after → (conduct cfg.host before).strikes < 3 := by
  constructor
  · intro t l harrives
    have hl := arrives_tallied harrives
    exact ⟨hl.strikes, fun hstate => hl.strikes ▸ hl.few hstate, hl.answered⟩
  · intro t why hpath
    obtain ⟨hsettled, hreads⟩ := path_settled hpath
    refine ⟨hsettled.answered, hsettled.struck, fun hthree => ?_, hreads⟩
    rcases hsettled.ends with hfew | ⟨-, hwhy⟩
    · exact absurd hthree (Nat.not_le.mpr hfew)
    · exact hwhy

/-- Three packets of zeros. -/
def zeroPackets : Conn := scripted (unread (List.replicate 36 0) [])

theorem zeroPackets_struck : (Loop.exec (clientWorker ⟨.little, none⟩) serverHandler 6 (.enter zeroPayload)
    (zeroPackets, freshServer)).map Outcome.value = some .strikes := rfl

theorem three_strikes_zeroPackets : ∃ t,
    Loop.Path (clientWorker ⟨.little, none⟩) (.enter zeroPayload) t .strikes ∧
      (conduct .little t).strikes = 3 := by
  obtain ⟨out, hexec, hvalue⟩ := Option.map_eq_some_iff.mp zeroPackets_struck
  have hpath := (Loop.Ends.of_exec hexec).path
  rw [hvalue] at hpath
  have hstruck := ((three_strikes ⟨.little, none⟩ zeroPayload).2 out.trace .strikes hpath).2.1
  exact ⟨out.trace, hpath, hstruck (Or.inl rfl)⟩

end PulseLink
