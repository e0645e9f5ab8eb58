import PulseLink.Session
import PulseLink.WorkerPath

/-! What an acknowledgement is worth. The worker counts the SENSOR packets it accepts and acknowledges
every eighth; neither a rejected packet nor a failed write to the sink enters the count. So an ACK speaks
for all the packets before it exactly when the first packets of the connection, as many as have been
acknowledged, were all accepted and stored. -/

namespace PulseLink

open Bytes

/-! ### The SENSOR packets of a run -/

/-- Whether the packet decided about last was stored, going by what follows the decision. -/
def stored : List (Event ServerSig) → Bool
  | [] => false
  | ⟨.decided _ _, _⟩ :: _ => false
  | ⟨.writeRecord _, ok⟩ :: _ => ok
  | _ :: t => stored t

def Verdict.isAccepted : Verdict → Bool
  | .accepted _ => true
  | .rejected _ => false

/-- For each SENSOR packet received, in order, whether it passed validation and was stored. -/
def sensorFates : List (Event ServerSig) → List Bool
  | [] => []
  | ⟨.decided h v, _⟩ :: t =>
      if h.type = PktType.sensor.code then (v.isAccepted && stored t) :: sensorFates t
      else sensorFates t
  | _ :: t => sensorFates t

/-- The operations that say nothing about SENSOR packets. -/
def Silent : ServerOp → Prop
  | .writeN bs => bs.getD 3 0 ≠ PktType.ack.code
  | .decided _ _ => False
  | .writeRecord _ => False
  | _ => True

theorem Plain.silent {dev : Option Nat} {o : ServerOp} (ho : Plain dev o) : Silent o := by
  cases o <;> first | exact ho | exact ho.elim | trivial

theorem Receives.silent {o : ServerOp} (ho : Receives o) : Silent o := by
  cases o <;> first | exact ho.elim | trivial

theorem Silent.ne_ack {o : ServerOp} (ho : Silent o) (id s : UInt32) : o ≠ .writeN (ackPacket id s) := by
  rintro rfl
  exact ho rfl

theorem stored_cons_silent {e : Event ServerSig} (he : Silent e.op) (t : List (Event ServerSig)) :
    stored (e :: t) = stored t := by
  obtain ⟨o, ans⟩ := e
  cases o <;> first | rfl | exact he.elim

theorem sensorFates_cons_silent {e : Event ServerSig} (he : Silent e.op) (t : List (Event ServerSig)) :
    sensorFates (e :: t) = sensorFates t := by
  obtain ⟨o, ans⟩ := e
  cases o <;> first | rfl | exact he.elim

theorem stored_silent_append {t : List (Event ServerSig)} (ht : ∀ e ∈ t, Silent e.op)
    (t' : List (Event ServerSig)) : stored (t ++ t') = stored t' := by
  induction t with
  | nil => rfl
  | cons e t ih =>
      rw [List.forall_mem_cons] at ht
      rw [List.cons_append, stored_cons_silent ht.1, ih ht.2]

theorem sensorFates_silent_append {t : List (Event ServerSig)} (ht : ∀ e ∈ t, Silent e.op)
    (t' : List (Event ServerSig)) : sensorFates (t ++ t') = sensorFates t' := by
  induction t with
  | nil => rfl
  | cons e t ih =>
      rw [List.forall_mem_cons] at ht
      rw [List.cons_append, sensorFates_cons_silent ht.1, ih ht.2]

theorem stored_silent {t : List (Event ServerSig)} (ht : ∀ e ∈ t, Silent e.op) : stored t = false := by
  have h := stored_silent_append ht []
  rwa [List.append_nil] at h

theorem sensorFates_silent {t : List (Event ServerSig)} (ht : ∀ e ∈ t, Silent e.op) :
    sensorFates t = [] := by
  have h := sensorFates_silent_append ht []
  rwa [List.append_nil] at h

theorem stored_append {t t' : List (Event ServerSig)} (ht' : stored t' = false) :
    stored (t ++ t') = stored t := by
  induction t with
  | nil => exact ht'
  | cons e t ih =>
      obtain ⟨o, ans⟩ := e
      cases o <;> first | rfl | exact ih

/-- What follows a finished turn does not change the fate of its packet. -/
theorem sensorFates_append {t t' : List (Event ServerSig)} (ht' : stored t' = false) :
    sensorFates (t ++ t') = sensorFates t ++ sensorFates t' := by
  induction t with
  | nil => rfl
  | cons e t ih =>
      obtain ⟨o, ans⟩ := e
      cases o with
      | decided h v =>
          simp only [List.cons_append, sensorFates, stored_append ht', ih]
          split_ifs <;> rfl
      | _ => exact ih

theorem recordsOf_silent {t : List (Event ServerSig)} (ht : ∀ e ∈ t, Silent e.op) : recordsOf t = [] := by
  refine List.filterMap_eq_nil_iff.mpr ?_
  intro e he
  have hsilent := ht e he
  obtain ⟨o, ans⟩ := e
  cases o <;> first | rfl | exact hsilent.elim

/-! ### Acknowledgements -/

theorem ackPacket_inj {id id' s s' : UInt32} (heq : ackPacket id s = ackPacket id' s') :
    id = id' ∧ s = s' := by
  have hid : ∀ id s, rdBe32 (ackPacket id s) 4 = id := fun id s =>
    rdBe32_append (be16 PL_MAGIC ++ [PL_VERSION, PktType.ack.code]) _ _ rfl
  have hseq : ∀ id s, rdBe32 (ackPacket id s) 12 = s := fun id s =>
    rdBe32_append (builtHeader PktType.ack.code id (be32 s)).wire [] s rfl
  exact ⟨by rw [← hid id s, heq, hid], by rw [← hseq id s, heq, hseq]⟩

/-- Something holds of what came before each ACK. -/
def AtAcks (P : List (Event ServerSig) → UInt32 → UInt32 → Prop) (t : List (Event ServerSig)) : Prop :=
  ∀ before e, before ++ [e] <+: t → ∀ id s, e.op = .writeN (ackPacket id s) → P before id s

/-- Every SENSOR packet received so far passed validation and was stored. -/
def AllStored (t : List (Event ServerSig)) : Prop := ∀ fate ∈ sensorFates t, fate = true

/-- Whenever an ACK is sent, every SENSOR packet received before it passed validation and was stored. -/
def AcksSound : List (Event ServerSig) → Prop := AtAcks fun before _ _ => AllStored before

/-- Every ACK carries the sequence number and the device id of the record passed to the sink last. -/
def AcksNameLast : List (Event ServerSig) → Prop :=
  AtAcks fun before id s => ∃ rec, (recordsOf before).getLast? = some rec ∧ rec.deviceId = id ∧ rec.seq = s

theorem atAcks_nil (P : List (Event ServerSig) → UInt32 → UInt32 → Prop) : AtAcks P [] := by
  intro before e h
  simp at h

theorem atAcks_concat {P : List (Event ServerSig) → UInt32 → UInt32 → Prop} {t : List (Event ServerSig)}
    {e : Event ServerSig} :
    AtAcks P (t ++ [e]) ↔ AtAcks P t ∧ ∀ id s, e.op = .writeN (ackPacket id s) → P t id s := by
  constructor
  · intro h
    exact ⟨fun before e' hp => h before e' (hp.trans (List.prefix_append _ _)),
      h t e (List.prefix_refl _)⟩
  · rintro ⟨hbefore, hlast⟩ before e' hp
    rcases List.prefix_concat_iff.mp hp with heq | hp
    · obtain ⟨rfl, he⟩ := List.append_inj' heq rfl
      cases he
      exact hlast
    · exact hbefore before e' hp

theorem atAcks_silent {P : List (Event ServerSig) → UInt32 → UInt32 → Prop} {t t' : List (Event ServerSig)}
    (ht' : ∀ e ∈ t', ∀ id s, e.op ≠ .writeN (ackPacket id s)) : AtAcks P (t ++ t') ↔ AtAcks P t := by
  induction t' generalizing t with
  | nil => rw [List.append_nil]
  | cons e t' ih =>
      rw [List.forall_mem_cons] at ht'
      rw [List.append_cons, ih ht'.2, atAcks_concat]
      exact and_iff_left fun id s he => absurd he (ht'.1 id s)

/-- The acknowledged packets: of the `k` accepted so far, as many as the last multiple of eight. -/
def acked (t : List (Event ServerSig)) : Nat := 8 * ((recordsOf t).length / 8)

/-- What a run says about its acknowledgements at the end of a turn: at most the accepted packets were
stored, every accepted packet was received, and the ACKs are sound iff the first packets received, as
many as are acknowledged, were stored. -/
structure Ledger (t : List (Event ServerSig)) : Prop where
  stored_le : (sensorFates t).count true ≤ (recordsOf t).length
  le_received : (recordsOf t).length ≤ (sensorFates t).length
  sound : AcksSound t ↔ ∀ fate ∈ (sensorFates t).take (acked t), fate = true
  named : AcksNameLast t

theorem ledger_nil : Ledger [] where
  stored_le := le_refl _
  le_received := le_refl _
  sound := by simp [AcksSound, atAcks_nil, sensorFates]
  named := atAcks_nil _

theorem acked_le (t : List (Event ServerSig)) : acked t ≤ (recordsOf t).length := by
  rw [acked]
  omega

/-- Events that add no record, no ACK and no stored packet. -/
theorem Ledger.pass {t t' : List (Event ServerSig)} (hledger : Ledger t) (hstored : stored t' = false)
    (hrecords : recordsOf t' = []) (hfates : ∀ fate ∈ sensorFates t', fate = false)
    (hacks : ∀ e ∈ t', ∀ id s, e.op ≠ .writeN (ackPacket id s)) : Ledger (t ++ t') := by
  have hrec : recordsOf (t ++ t') = recordsOf t := by rw [recordsOf_append, hrecords, List.append_nil]
  have hcount : (sensorFates t').count true = 0 := by
    rw [List.count_eq_zero]
    intro h
    exact absurd (hfates true h) (by decide)
  constructor
  · rw [sensorFates_append hstored, List.count_append, hcount, hrec]
    exact hledger.stored_le
  · rw [sensorFates_append hstored, List.length_append, hrec]
    exact Nat.le_add_right_of_le hledger.le_received
  · have hle := (acked_le t).trans hledger.le_received
    have hacked : acked (t ++ t') = acked t := by rw [acked, hrec, acked]
    rw [AcksSound, atAcks_silent hacks, hacked, sensorFates_append hstored,
      List.take_append_of_le_length hle]
    exact hledger.sound
  · exact (atAcks_silent hacks).mpr hledger.named

theorem Ledger.silent {t t' : List (Event ServerSig)} (hledger : Ledger t)
    (ht' : ∀ e ∈ t', Silent e.op) : Ledger (t ++ t') :=
  hledger.pass (stored_silent ht') (recordsOf_silent ht') (by simp [sensorFates_silent ht'])
    fun e he => (ht' e he).ne_ack

theorem recordsOf_decided {reads post : List (Event ServerSig)} (hreads : ∀ e ∈ reads, Silent e.op)
    (hpost : ∀ e ∈ post, Silent e.op) (h : PlHeader) (v : Verdict) :
    recordsOf (reads ++ ⟨.decided h v, ()⟩ :: post) = [] := by
  rw [recordsOf_append, recordsOf_silent hreads]
  show recordsOf post = []
  exact recordsOf_silent hpost

/-- A packet that is decided about and leaves no record. -/
theorem Ledger.unstored {t reads post : List (Event ServerSig)} (hledger : Ledger t)
    (hreads : ∀ e ∈ reads, Silent e.op) (hpost : ∀ e ∈ post, Silent e.op) (h : PlHeader) (v : Verdict) :
    Ledger (t ++ (reads ++ ⟨.decided h v, ()⟩ :: post)) := by
  refine hledger.pass ?_ (recordsOf_decided hreads hpost h v) ?_ ?_
  · rw [stored_silent_append hreads]
    rfl
  · rw [sensorFates_silent_append hreads]
    simp only [sensorFates, stored_silent hpost, Bool.and_false, sensorFates_silent hpost]
    split_ifs <;> simp
  · intro e he id s
    rcases List.mem_append.mp he with he | he
    · exact (hreads e he).ne_ack id s
    · rcases List.mem_cons.mp he with rfl | he
      · nofun
      · exact (hpost e he).ne_ack id s

/-- With fewer than `k` of the fates true before the last, the first `k` are all true only if there are no
others. -/
theorem take_all_iff {fates : List Bool} {last : Bool} {k : Nat} (hcount : fates.count true < k)
    (hlen : k ≤ fates.length + 1) :
    (∀ fate ∈ (fates ++ [last]).take k, fate = true) ↔ ∀ fate ∈ fates ++ [last], fate = true := by
  refine ⟨?_, fun h fate hfate => h fate (List.mem_of_mem_take hfate)⟩
  intro h
  rcases Nat.lt_or_eq_of_le hlen with hlt | rfl
  · -- a packet without a record lies among the first, so one of them is not stored
    rw [List.take_append_of_le_length (by omega)] at h
    have htake : (fates.take k).count true = k := by
      rw [List.count_eq_length.mpr fun fate hfate => (h fate hfate).symm, List.length_take]
      omega
    have hle : (fates.take k).count true ≤ fates.count true := (List.take_sublist _ _).count_le true
    omega
  · rwa [List.take_of_length_le (by simp)] at h

/-- The eighth record in a row of eight is acknowledged. -/
theorem Ledger.ack {t : List (Event ServerSig)} {fates : List Bool} {last : Bool} {rec : SensorRecord}
    (hfates : sensorFates t = fates ++ [last]) (hcount : fates.count true < (recordsOf t).length)
    (hlen : (recordsOf t).length ≤ fates.length + 1) (hlast : (recordsOf t).getLast? = some rec)
    (hsound : AllStored t → AcksSound t) (hnamed : AcksNameLast t) (hmod : (recordsOf t).length % 8 = 0)
    (sent : Bool) : Ledger (t ++ [⟨.writeN (ackPacket rec.deviceId rec.seq), sent⟩]) := by
  obtain ⟨e, he⟩ : ∃ e : Event ServerSig, e = ⟨.writeN (ackPacket rec.deviceId rec.seq), sent⟩ := ⟨_, rfl⟩
  rw [← he]
  have hfates' : sensorFates (t ++ [e]) = fates ++ [last] := by
    rw [sensorFates_append (by rw [he]; rfl), hfates, he]
    exact List.append_nil _
  have hrecords : recordsOf (t ++ [e]) = recordsOf t := by
    rw [recordsOf_append, he]
    exact List.append_nil _
  have hacked : acked (t ++ [e]) = (recordsOf t).length := by
    rw [acked, hrecords]
    omega
  constructor
  · have hone : [last].count true ≤ 1 := List.count_le_length
    rw [hfates', hrecords, List.count_append]
    omega
  · rw [hfates', hrecords, List.length_append]
    exact hlen
  · have hall : AllStored t ↔ ∀ fate ∈ (fates ++ [last]).take (recordsOf t).length, fate = true := by
      rw [take_all_iff hcount hlen, AllStored, hfates]
    rw [AcksSound, atAcks_concat, hacked, hfates', ← hall]
    exact ⟨fun h => h.2 _ _ (by rw [he]), fun h => ⟨hsound h, fun _ _ _ => h⟩⟩
  · refine atAcks_concat.mpr ⟨hnamed, ?_⟩
    intro id s hop
    rw [he] at hop
    obtain ⟨rfl, rfl⟩ := ackPacket_inj (ServerOp.writeN.inj hop)
    exact ⟨rec, hlast, rfl, rfl⟩

section Stored

variable {t reads : List (Event ServerSig)} (hreads : ∀ e ∈ reads, Silent e.op) {h : PlHeader}
  (payload : List UInt8) (p : Nat) (s : SensorFields) (now : Int) (ns : UInt64) (ok : Bool)

include hreads

theorem sensorFates_stored (htype : h.type = PktType.sensor.code) :
    sensorFates (t ++ (reads ++ ⟨.decided h (.accepted payload), ()⟩ :: storeEvents h p s now ns ok)) =
      sensorFates t ++ [ok] := by
  rw [sensorFates_append (by rw [stored_silent_append hreads]; rfl), sensorFates_silent_append hreads,
    sensorFates, if_pos htype]
  rfl

theorem recordsOf_stored :
    recordsOf (t ++ (reads ++ ⟨.decided h (.accepted payload), ()⟩ :: storeEvents h p s now ns ok)) =
      recordsOf t ++ [⟨h.deviceId, s.seq, s.temp, s.hum, ns⟩] := by
  rw [recordsOf_append, recordsOf_append, recordsOf_silent hreads]
  rfl

theorem stored_ne_ack :
    ∀ e ∈ reads ++ ⟨.decided h (.accepted payload), ()⟩ :: storeEvents h p s now ns ok,
      ∀ id seq, e.op ≠ .writeN (ackPacket id seq) := by
  intro e he id seq
  rcases List.mem_append.mp he with he | he
  · exact (hreads e he).ne_ack id seq
  · simp only [storeEvents, List.mem_cons, List.not_mem_nil, or_false] at he
    rcases he with rfl | rfl | rfl | rfl | rfl | rfl | rfl | rfl | rfl | rfl <;> nofun

end Stored

/-- An accepted SENSOR packet with the record it leaves, and the ACK if its number is a multiple of
eight. -/
theorem Ledger.sensor {t reads acks : List (Event ServerSig)} (hledger : Ledger t)
    (hreads : ∀ e ∈ reads, Silent e.op) {h : PlHeader} (htype : h.type = PktType.sensor.code)
    (payload : List UInt8) (p : Nat) (s : SensorFields) (now : Int) (ns : UInt64) (ok : Bool)
    (hacks : if ((recordsOf t).length + 1) % 8 = 0 then
        ∃ sent, acks = [⟨.writeN (ackPacket h.deviceId s.seq), sent⟩] else acks = []) :
    Ledger (t ++ (reads ++ ⟨.decided h (.accepted payload), ()⟩ :: storeEvents h p s now ns ok) ++ acks) := by
  have hfates := sensorFates_stored (t := t) hreads payload p s now ns ok htype
  have hrecords := recordsOf_stored (t := t) (h := h) hreads payload p s now ns ok
  have hnoAck := stored_ne_ack (h := h) hreads payload p s now ns ok
  revert hfates hrecords hnoAck
  generalize reads ++ ⟨.decided h (.accepted payload), ()⟩ :: storeEvents h p s now ns ok = turn
  intro hfates hrecords hnoAck
  have hlength : (recordsOf (t ++ turn)).length = (recordsOf t).length + 1 := by
    rw [hrecords, List.length_append, List.length_singleton]
  have hstored := hledger.stored_le
  have hreceived := hledger.le_received
  split_ifs at hacks with hmod
  · obtain ⟨sent, rfl⟩ := hacks
    have hlast : (recordsOf (t ++ turn)).getLast? = some ⟨h.deviceId, s.seq, s.temp, s.hum, ns⟩ := by
      rw [hrecords, List.getLast?_concat]
    refine Ledger.ack hfates (by omega) (by omega) hlast ?_ ((atAcks_silent hnoAck).mpr hledger.named)
      (by omega) sent
    -- if everything is stored, so is what earlier ACKs speak for
    intro hall
    refine (atAcks_silent hnoAck).mpr (hledger.sound.mpr ?_)
    intro fate hfate
    refine hall fate ?_
    rw [hfates]
    exact List.mem_append_left _ (List.mem_of_mem_take hfate)
  · subst hacks
    rw [List.append_nil]
    refine ⟨?_, ?_, ?_, (atAcks_silent hnoAck).mpr hledger.named⟩
    · have hone : [ok].count true ≤ 1 := List.count_le_length
      rw [hfates, List.count_append]
      omega
    · rw [hfates, List.length_append, List.length_singleton]
      omega
    · have hacked : acked (t ++ turn) = acked t := by
        rw [acked, acked]
        omega
      rw [AcksSound, atAcks_silent hnoAck, hacked, hfates,
        List.take_append_of_le_length ((acked_le t).trans hreceived)]
      exact hledger.sound

/-! ### Every run of a worker -/

/-- The worker's count is the number of records it has passed on. -/
structure Book (l : Locals) (t : List (Event ServerSig)) : Prop where
  ledger : Ledger t
  count : l.sensorCount = UInt32.ofNat (recordsOf t).length

theorem LooksUp.silent {o : ServerOp} (ho : LooksUp o) : Silent o := by
  cases o <;> first | exact ho.elim | trivial

theorem handleHello_silent {cfg : Config} {l : Locals} {h : PlHeader} {t : List (Event ServerSig)} {x : Turn}
    (hpath : (handleHello cfg l h).Path t x) :
    (∀ e ∈ t, Silent e.op) ∧ ∀ l', x = .inl l' → l'.sensorCount = l.sensorCount := by
  rcases handleHello_path hpath with ⟨-, hplain, rfl⟩ | ⟨sid, dev, call, rest, -, rfl, hcall, hrest, hx⟩
  · exact ⟨fun e he => (hplain e he).silent, nofun⟩
  · constructor
    · intro e he
      rcases List.mem_cons.mp he with rfl | he
      · trivial
      · rcases List.mem_append.mp he with he | he
        · exact (((dtGetOrCreate_looksUp _ _).path hcall).1 e he).silent
        · exact (hrest e he).silent
    · rintro l' rfl
      rcases hx with hx | hx
      · cases hx
      · cases hx
        rfl

/-- Turns that leave no record keep the books balanced. -/
theorem Book.unstored {l : Locals} {t turn : List (Event ServerSig)} {x : Turn} (hbook : Book l t)
    (hledger : Ledger (t ++ turn)) (hrecords : recordsOf turn = [])
    (hx : ∀ l', x = .inl l' → l'.sensorCount = l.sensorCount) : After Book Ledger (t ++ turn) x := by
  cases x with
  | inr why => exact hledger
  | inl l' =>
      refine ⟨hledger, ?_⟩
      rw [recordsOf_append, hrecords, List.append_nil, hx l' rfl]
      exact hbook.count

theorem Book.dispatch {cfg : Config} {l : Locals} {h : PlHeader} {t reads post : List (Event ServerSig)}
    {x : Turn} (hbook : Book l t) (hreads : ∀ e ∈ reads, Silent e.op) (payload : List UInt8)
    (hpath : (dispatch cfg l h).Path post x) :
    After Book Ledger (t ++ (reads ++ ⟨.decided h (.accepted payload), ()⟩ :: post)) x := by
  rcases dispatch_path hpath with ⟨-, hhello⟩ | ⟨-, htype, hsensor⟩ | ⟨-, -, hplain, l', rfl, -, hcount, -, -⟩
  · obtain ⟨hpost, hx⟩ := handleHello_silent hhello
    exact hbook.unstored (hbook.ledger.unstored hreads hpost h _) (recordsOf_decided hreads hpost h _) hx
  · rcases handleSensor_path hsensor with ⟨-, rfl, rfl⟩ | ⟨p, now, ns, ok, acks, -, rfl, rfl, hacks⟩
    · exact hbook.ledger.unstored hreads (by simp) h _
    · simp only [hbook.count, ack_due_iff] at hacks
      have hledger := hbook.ledger.sensor hreads htype payload p _ now ns ok hacks
      rw [List.append_assoc, List.append_assoc, List.cons_append] at hledger
      refine ⟨hledger, ?_⟩
      have hnone : recordsOf acks = [] := by
        split_ifs at hacks
        · obtain ⟨sent, rfl⟩ := hacks
          rfl
        · rw [hacks]
          rfl
      have hone : (recordsOf (reads ++ ⟨.decided h (.accepted payload), ()⟩ ::
          (storeEvents h p (readSensor cfg l.payload.bytes) now ns ok ++ acks))).length = 1 := by
        rw [recordsOf_append, recordsOf_silent hreads]
        exact congrArg (fun rest : List SensorRecord => rest.length + 1) hnone
      rw [recordsOf_append, List.length_append, hone, UInt32.ofNat_add, ← hbook.count]
      rfl
  · have hpost : ∀ e ∈ post, Silent e.op := fun e he => (hplain e he).plain.silent
    refine hbook.unstored (hbook.ledger.unstored hreads hpost h _) (recordsOf_decided hreads hpost h _) ?_
    rintro l₁ hl₁
    cases hl₁
    exact hcount

/-- One turn of the loop keeps the books balanced. -/
theorem Book.turn {cfg : Config} {l : Locals} {t turn : List (Event ServerSig)} {x : Turn}
    (hbook : Book l t) (hpath : (clientTurn cfg l).Path turn x) : After Book Ledger (t ++ turn) x := by
  obtain ⟨reads, post, rfl, hreads, ⟨rfl, hwaits⟩ | ⟨-, payload, h, hdecides⟩⟩ := clientTurn_path hpath
  · have hsilent : ∀ e ∈ reads ++ [], Silent e.op := by
      intro e he
      rw [List.append_nil] at he
      exact (hreads e he).silent
    refine hbook.unstored (hbook.ledger.silent hsilent) (recordsOf_silent hsilent) ?_
    rintro l' rfl
    rcases hwaits with hx | ⟨why, hx, -⟩
    · cases hx
      rfl
    · cases hx
  · have hsilent : ∀ e ∈ reads, Silent e.op := fun e he => (hreads e he).silent
    have hheard : Book (l.heard payload) t := ⟨hbook.ledger, hbook.count⟩
    rcases hdecides with ⟨e, hstrike⟩ | ⟨bytes, post', rfl, hdispatch⟩
    · obtain ⟨post', rfl, hplain, rfl⟩ := strikeOut_path hstrike
      have hpost : ∀ e ∈ post', Silent e.op := fun e he => (hplain e he).plain.silent
      refine hheard.unstored (hheard.ledger.unstored hsilent hpost h _)
        (recordsOf_decided hsilent hpost h _) ?_
      intro l' hl'
      rw [struck_eq_inl hl']
    · exact hheard.dispatch hsilent bytes hdispatch

/-- Every finished run of a worker, on any stream and with any answers, leaves a balanced ledger. -/
theorem worker_ledger {cfg : Config} {payload : PayloadBuf} {t : List (Event ServerSig)} {why : ExitReason}
    (hpath : Loop.Path (clientWorker cfg) (.enter payload) t why) : Ledger t := by
  refine worker_rule (J := Book) ?_ (fun l t turn x hbook => hbook.turn) ?_ hpath
  · have hsilent : ∀ e ∈ [(⟨.activeAdd, ()⟩ : Event ServerSig)], Silent e.op := by simp [Silent]
    exact ⟨ledger_nil.silent hsilent, rfl⟩
  · intro t t' hledger hplain
    exact hledger.silent fun e he => (hplain e he).silent

/-- **What the acknowledgements are worth.** In every run of a worker, each ACK carries the sequence number
of the last record passed to the sink; and all ACKs are sound, in that every SENSOR packet received up to
then passed validation and was stored, exactly when of the SENSOR packets received the first ones, as many
as are acknowledged, passed validation and were stored. -/
theorem acks_sound_iff (cfg : Config) (payload : PayloadBuf) {t : List (Event ServerSig)} {why : ExitReason}
    (hpath : Loop.Path (clientWorker cfg) (.enter payload) t why) :
    AcksNameLast t ∧ (AcksSound t ↔ ∀ fate ∈ (sensorFates t).take (acked t), fate = true) :=
  ⟨(worker_ledger hpath).named, (worker_ledger hpath).sound⟩

/-- A HELLO and eight readings, numbered from 0. -/
def eightReadings : List UInt8 :=
  packetBytes PktType.hello.code 7 (helloPayload 1 0) ++
    sensorStream ((List.range 8).map fun i => (7, ⟨UInt32.ofNat i, 0, 250, 4000⟩))

/-- A worker serving them alone, with the given results of the sink. -/
def eightRun (sinkResults : List Bool) : Option (Outcome ServerSig World ExitReason) :=
  Loop.exec (clientWorker ⟨.little, none⟩) serverHandler 12 (.enter zeroPayload)
    (scripted (unread eightReadings []),
      { freshServer with choices := { freshServer.choices with sinkResults := sinkResults } })

theorem eightRun_path {sinkResults : List Bool} {out : Outcome ServerSig World ExitReason}
    (hrun : eightRun sinkResults = some out) :
    Loop.Path (clientWorker ⟨.little, none⟩) (.enter zeroPayload) out.trace out.value :=
  (Loop.Ends.of_exec hrun).path

/-- All writes succeed: the ACK after the eighth reading is sound. -/
theorem acks_sound_iff_eightRun :
    ∃ out, eightRun [] = some out ∧ acked out.trace = 8 ∧ AcksSound out.trace := by
  have hrun : (eightRun []).map (fun out => (sensorFates out.trace, acked out.trace)) =
      some (List.replicate 8 true, 8) := by
    decide +kernel
  obtain ⟨out, hout, hfates⟩ := Option.map_eq_some_iff.mp hrun
  rw [Prod.mk.injEq] at hfates
  refine ⟨out, hout, hfates.2, ((acks_sound_iff _ _ (eightRun_path hout)).2).mpr ?_⟩
  rw [hfates.1]
  intro fate hfate
  exact List.eq_of_mem_replicate (List.mem_of_mem_take hfate)

/-- The first write fails: the ACK after the eighth reading speaks for a record that was not stored. -/
theorem acks_unsound_firstWriteFails : ∃ out, eightRun [false] = some out ∧ ¬ AcksSound out.trace := by
  have hrun : (eightRun [false]).map (fun out => (sensorFates out.trace, acked out.trace)) =
      some (false :: List.replicate 7 true, 8) := by
    decide +kernel
  obtain ⟨out, hout, hfates⟩ := Option.map_eq_some_iff.mp hrun
  rw [Prod.mk.injEq] at hfates
  refine ⟨out, hout, fun hsound => ?_⟩
  have hall := (worker_ledger (eightRun_path hout)).sound.mp hsound
  rw [hfates.1, hfates.2] at hall
  exact absurd (hall false List.mem_cons_self) (by decide)

end PulseLink
