import PulseLink.Maintenance
import PulseLink.Accounts

/-! Presence over whole runs of the server. Workers, the UDP listener and the reaper take turns, each without
interruption and at one reading of the clock; the log keeps which device was heard when, and by which kind of
packet. What the table says about a device is the time of the last packet that refreshed it, which is not
always the last packet from it: a chunk of a frame and the HELLO of a known device refresh nothing. -/

namespace PulseLink

open Bytes

/-! ### Turns that leave presence alone -/

/-- The operations that insert no device and change neither the state nor the time of one. -/
def Still : ServerOp → Prop
  | .find _ => False
  | .insert _ _ => False
  | .device _ a => a = .addBad
  | _ => True

theorem Receives.still {o : ServerOp} (ho : Receives o) : Still o := by
  cases o <;> first | exact ho.elim | trivial

theorem Minor.still {dev : Option Nat} {o : ServerOp} (ho : Minor dev o) : Still o := by
  cases o <;> first | exact ho.2 | exact ho.elim | trivial

theorem Plain.still {o : ServerOp} (ho : Plain none o) : Still o := by
  cases o with
  | device p a => cases ho.1
  | _ => first | exact ho.elim | trivial

/-- The same devices, seen at the same times and in the same states. -/
structure Untouched (t t' : DeviceTable) : Prop where
  wellFormed : t'.WellFormed
  lookup : ∀ id, t'.lookup id = t.lookup id
  seen : ∀ id, t'.seen id = t.seen id

theorem Untouched.trans {t t₁ t₂ : DeviceTable} (h₁ : Untouched t t₁) (h₂ : Untouched t₁ t₂) : Untouched t t₂ :=
  ⟨h₂.wellFormed, fun id => (h₂.lookup id).trans (h₁.lookup id), fun id => (h₂.seen id).trans (h₁.seen id)⟩

/-- A store that is neither of the time nor of the state. -/
theorem untouched_atomic {t : DeviceTable} (hwf : t.WellFormed) (p : Nat) {a : DevAtomic}
    (ha : ∀ x, a.onSeen x = x) : Untouched t (t.atomic p a) := by
  have hid : a.onSeen = id := funext ha
  refine ⟨hwf.atomic p a, DeviceTable.atomic_lookup p a, fun id' => ?_⟩
  rw [DeviceTable.seen_atomic, hid, Option.map_id, id_eq, ite_self]

theorem untouched_still {now : Int} {turn : List (Event ServerSig)} {t t' : DeviceTable} (hwf : t.WellFormed)
    (haccepts : (tableMonitor now).Accepts t turn t') (hstill : ∀ e ∈ turn, Still e.op) : Untouched t t' := by
  induction haccepts with
  | nil => exact ⟨hwf, fun _ => rfl, fun _ => rfl⟩
  | @cons t t₁ t' e turn hmove _ ih =>
      obtain ⟨o, ans⟩ := e
      have ho : Still o := hstill _ List.mem_cons_self
      have hone : Untouched t t₁ := by
        cases o with
        | find id => exact ho.elim
        | insert id sid => exact ho.elim
        | device p a =>
            cases hmove
            obtain rfl : a = .addBad := ho
            exact untouched_atomic hwf p fun _ => rfl
        | time =>
            simp only [tableMonitor] at hmove
            split_ifs at hmove
            cases hmove
            exact ⟨hwf, fun _ => rfl, fun _ => rfl⟩
        | _ =>
            cases hmove
            exact ⟨hwf, fun _ => rfl, fun _ => rfl⟩
      exact hone.trans (ih hone.wellFormed fun e he => hstill e (List.mem_cons_of_mem _ he))

/-- A call between two stretches that leave presence alone. -/
theorem Refreshes.between {now : Int} {P Q : UInt32 → Prop} [DecidablePred P] [DecidablePred Q]
    {t t₁ t₂ t' : DeviceTable} (hcall : Refreshes now P t₁ t₂) (hbefore : Untouched t t₁)
    (hafter : Untouched t₂ t') (hiff : ∀ id, Q id ↔ P id) : Refreshes now Q t t' := by
  refine ⟨hafter.wellFormed, fun id p hp => ?_, fun id => ?_⟩
  · rw [hafter.lookup]
    exact hcall.lookup id p ((hbefore.lookup id).trans hp)
  · rw [hafter.seen, hcall.seen, hbefore.seen]
    simp only [hiff]

/-- A stored reading refreshes its device. -/
theorem refreshes_recordSensor {t : DeviceTable} (hwf : t.WellFormed) {id : UInt32} {p : Nat}
    (hp : t.lookup id = some p) (s : SensorFields) (now : Int) :
    Refreshes now (fun id' => id = id') t (t.recordSensor p s now) := by
  have hseq := untouched_atomic hwf p (a := .storeSeq s.seq) fun _ => rfl
  have htemp := untouched_atomic hseq.wellFormed p (a := .storeTemp s.temp) fun _ => rfl
  have hhumid := untouched_atomic htemp.wellFormed p (a := .storeHumid s.hum) fun _ => rfl
  have hfields := (hseq.trans htemp).trans hhumid
  have hstores := refreshes_stores hfields.wellFormed ((hfields.lookup id).trans hp) now
  have hok := untouched_atomic hstores.wellFormed p (a := .addOk) fun _ => rfl
  exact hstores.between hfields hok fun _ => Iff.rfl

/-! ### Packets heard -/

/-- A packet from a device: when, of which kind, and whether the device is in the table since. -/
structure Heard where
  time : Int
  id : UInt32
  kind : PktType
  creates : Bool
  deriving DecidableEq, Repr

/-- The packets after which the code stores the time and ONLINE. -/
def Heard.refreshes (e : Heard) : Bool := e.creates || e.kind = .sensor || e.kind = .heartbeat

/-- The packet a worker accepted in a turn, and from whom. Until its HELLO a connection has no name and only a
HELLO counts; afterwards its packets come from the device of the HELLO. A chunk that `frame_asm_feed` calls
malformed and a packet of another type get an error reply: they are not accepted. -/
def packetIn (name : Option UInt32) (turn : List (Event ServerSig)) : Option (UInt32 × PktType) :=
  match (acceptedHeaders turn).head?, name with
  | none, _ => none
  | some h, none => if h.type = PktType.hello.code then some (h.deviceId, .hello) else none
  | some h, some id =>
      if h.type = PktType.sensor.code then some (id, .sensor)
      else if h.type = PktType.frame.code then
        if FeedResult.malformed ∈ feedResults turn then none else some (id, .frame)
      else if h.type = PktType.hello.code then some (id, .hello)
      else none

/-- The name of the connection after the turn. -/
def nameAfter (name : Option UInt32) (turn : List (Event ServerSig)) : Option UInt32 :=
  name <|> (packetIn name turn).map Prod.fst

/-- What a turn of a worker adds to the log, by the tables before and after it. -/
def heardIn (now : Int) (name : Option UInt32) (turn : List (Event ServerSig)) (t t' : DeviceTable) :
    Option Heard :=
  (packetIn name turn).map fun x => ⟨now, x.1, x.2, NewIn t t' x.1⟩

/-- What a datagram adds to the log. -/
def heardOf (now : Int) (host : Endian) (got : Option (List UInt8)) (t t' : DeviceTable) : Option Heard :=
  (got.bind (heartbeatId host)).map fun id => ⟨now, id, .heartbeat, NewIn t t' id⟩

theorem time_heardIn {now : Int} {name : Option UInt32} {turn : List (Event ServerSig)} {t t' : DeviceTable} :
    ∀ e ∈ heardIn now name turn t t', e.time = now := by
  intro e he
  obtain ⟨x, -, rfl⟩ := Option.map_eq_some_iff.mp he
  rfl

theorem time_heardOf {now : Int} {host : Endian} {got : Option (List UInt8)} {t t' : DeviceTable} :
    ∀ e ∈ heardOf now host got t t', e.time = now := by
  intro e he
  obtain ⟨id, -, rfl⟩ := Option.map_eq_some_iff.mp he
  rfl

/-- The packet, if there is one, refreshes the device. -/
def Refreshed (heard : Option Heard) (id : UInt32) : Prop := heard.any fun e => e.id = id && e.refreshes

instance (heard : Option Heard) : DecidablePred (Refreshed heard) := fun id =>
  inferInstanceAs (Decidable ((heard.any fun e => e.id = id && e.refreshes) = true))

/-- The packet did to the table what the log says: it refreshed its device, if that is in the table. -/
def Hears (now : Int) (heard : Option Heard) (t t' : DeviceTable) : Prop :=
  Refreshes now (fun id => Refreshed heard id ∧ t'.lookup id ≠ none) t t'

theorem refreshed_heardIn {now : Int} {name : Option UInt32} {turn : List (Event ServerSig)}
    {t t' : DeviceTable} {id : UInt32} :
    Refreshed (heardIn now name turn t t') id ↔ ∃ kind, packetIn name turn = some (id, kind) ∧
      (NewIn t t' id ∨ kind = .sensor ∨ kind = .heartbeat) := by
  rw [Refreshed, heardIn]
  cases packetIn name turn with
  | none => simp
  | some x =>
      obtain ⟨id', kind⟩ := x
      constructor
      · intro h
        simp only [Option.map_some, Option.any_some, Heard.refreshes, Bool.and_eq_true, Bool.or_eq_true,
          decide_eq_true_eq] at h
        obtain ⟨rfl, h⟩ := h
        exact ⟨kind, rfl, or_assoc.mp h⟩
      · rintro ⟨kind', heq, h⟩
        cases heq
        simp only [Option.map_some, Option.any_some, Heard.refreshes, Bool.and_eq_true, Bool.or_eq_true,
          decide_eq_true_eq, true_and]
        exact or_assoc.mpr h

theorem refreshed_heardOf {now : Int} {host : Endian} {got : Option (List UInt8)} {t t' : DeviceTable}
    {id : UInt32} : Refreshed (heardOf now host got t t') id ↔ got.bind (heartbeatId host) = some id := by
  rw [Refreshed, heardOf]
  cases got.bind (heartbeatId host) with
  | none => simp
  | some id' => simp [Heard.refreshes]

theorem Untouched.hears {now : Int} {heard : Option Heard} {t t' : DeviceTable} (h : Untouched t t')
    (hheard : ∀ id, ¬ Refreshed heard id) : Hears now heard t t' := by
  refine ⟨h.wellFormed, fun id p hp => (h.lookup id).trans hp, fun id => ?_⟩
  rw [if_neg fun hr => hheard id hr.1, h.seen]

/-! ### A turn of a worker -/

/-- The device of a worker is the one the table holds for the name of its connection. -/
def Bound (t : DeviceTable) (name : Option UInt32) (l : Locals) : Prop :=
  (l.state = .waitHello ∧ l.dev = none ∧ name = none) ∨
    (l.state ≠ .waitHello ∧ ∃ id, name = some id ∧ ∀ p, l.dev = some p → t.lookup id = some p)

theorem Bound.mono {t t' : DeviceTable} {name : Option UInt32} {l l' : Locals} (hbound : Bound t name l)
    (hlookup : ∀ id p, t.lookup id = some p → t'.lookup id = some p)
    (hstate : l'.state = .waitHello ↔ l.state = .waitHello) (hdev : l'.dev = l.dev) : Bound t' name l' := by
  rcases hbound with ⟨hwait, hnone, hname⟩ | ⟨hactive, id, hname, hid⟩
  · exact Or.inl ⟨hstate.mpr hwait, hdev.trans hnone, hname⟩
  · refine Or.inr ⟨fun h => hactive (hstate.mp h), id, hname, fun p hp => ?_⟩
    exact hlookup id p (hid p (hdev.symm.trans hp))

/-- What a turn of a worker owes the log and the name of its connection. -/
structure TurnHeard (now : Int) (name : Option UInt32) (turn : List (Event ServerSig)) (t t' : DeviceTable)
    (x : Turn) : Prop where
  hears : Hears now (heardIn now name turn t t') t t'
  bound : ∀ l', x = .inl l' → Bound t' (nameAfter name turn) l'

section Turn

variable {now : Int} {name : Option UInt32} {turn : List (Event ServerSig)} {t t' : DeviceTable}

/-- A turn without an accepted packet. -/
theorem hears_none (name : Option UInt32) (hwf : t.WellFormed) (haccepts : (tableMonitor now).Accepts t turn t')
    (hstill : ∀ e ∈ turn, Still e.op) (hnone : ∀ e ∈ turn, acceptedHeader e = none) :
    Hears now (heardIn now name turn t t') t t' ∧ nameAfter name turn = name := by
  have hpacket : packetIn name turn = none := by
    have hheaders : acceptedHeaders turn = [] := List.filterMap_eq_nil_iff.mpr hnone
    simp only [packetIn, hheaders, List.head?_nil]
  refine ⟨(untouched_still hwf haccepts hstill).hears fun id => ?_, ?_⟩
  · rw [refreshed_heardIn, hpacket]
    rintro ⟨kind, hkind, -⟩
    cases hkind
  · rw [nameAfter, hpacket]
    cases name <;> rfl

variable {pre post : List (Event ServerSig)} {h : PlHeader} {payload : List UInt8}

theorem head_accepted (hpre : ∀ e ∈ pre, Receives e.op) (h : PlHeader) (payload : List UInt8)
    (post : List (Event ServerSig)) :
    (acceptedHeaders (pre ++ ⟨.decided h (.accepted payload), ()⟩ :: post)).head? = some h := by
  rw [acceptedHeaders, List.filterMap_append,
    List.filterMap_eq_nil_iff.mpr fun e he => (hpre e he).neutral.1]
  rfl

/-- The table when an accepted packet is dispatched. -/
theorem untouched_decided (hwf : t.WellFormed) (hpre : ∀ e ∈ pre, Receives e.op)
    (haccepts : (tableMonitor now).Accepts t (pre ++ ⟨.decided h (.accepted payload), ()⟩ :: post) t') :
    ∃ t₁, Untouched t t₁ ∧ (tableMonitor now).Accepts t₁ post t' := by
  obtain ⟨t₁, hreads, hrest⟩ := haccepts.split
  refine ⟨t₁, untouched_still hwf hreads fun e he => (hpre e he).still, ?_⟩
  exact accepts_skip hrest trivial

/-- A HELLO on a connection without a name. -/
theorem hello_heard {cfg : Config} {l : Locals} {x : Turn} (hwf : t.WellFormed) (hname : name = none)
    (hdev : l.dev = none) (hpre : ∀ e ∈ pre, Receives e.op) (hpath : (handleHello cfg l h).Path post x)
    (haccepts : (tableMonitor now).Accepts t (pre ++ ⟨.decided h (.accepted payload), ()⟩ :: post) t') :
    TurnHeard now name (pre ++ ⟨.decided h (.accepted payload), ()⟩ :: post) t t' x := by
  subst hname
  have hhead := head_accepted hpre h payload post
  obtain ⟨t₁, hbefore, hrest⟩ := untouched_decided hwf hpre haccepts
  rcases handleHello_path hpath with ⟨htype, hplain, rfl⟩ |
    ⟨sid, dev, call, rest, htype, rfl, hcall, hplain, hx⟩
  · rw [hdev] at hplain
    have hafter := untouched_still hbefore.wellFormed hrest fun e he => (hplain e he).still
    refine ⟨(hbefore.trans hafter).hears fun id => ?_, nofun⟩
    rw [refreshed_heardIn]
    rintro ⟨kind, hkind, -⟩
    simp only [packetIn, hhead, if_neg htype] at hkind
    cases hkind
  · have hpacket : packetIn none (pre ++ ⟨.decided h (.accepted payload), ()⟩ ::
        ⟨.nextSession, sid⟩ :: (call ++ rest)) = some (h.deviceId, .hello) := by
      simp only [packetIn, hhead, if_pos htype]
    rw [hdev] at hplain
    have hsession := accepts_skip hrest trivial
    obtain ⟨t₂, hcalled, hlast⟩ := hsession.split
    obtain ⟨hfound, htable⟩ := dtGetOrCreate_table hcall hcalled
    have hcreate := refreshes_getOrCreate hbefore.wellFormed htable
    have hafter := untouched_still hcreate.wellFormed hlast fun e he => (hplain e he).still
    refine ⟨hcreate.between hbefore hafter fun id => ?_, ?_⟩
    · rw [refreshed_heardIn, hpacket, NewIn, NewIn, hbefore.lookup, hafter.lookup]
      constructor
      · rintro ⟨⟨kind, hkind, hnew | hsensor | hheartbeat⟩, hsome⟩
        · cases hkind
          exact ⟨rfl, hnew⟩
        · cases hkind
          cases hsensor
        · cases hkind
          cases hheartbeat
      · rintro ⟨rfl, hnew⟩
        exact ⟨⟨_, rfl, Or.inl hnew⟩, hnew.2⟩
    · rintro l' rfl
      rcases hx with hx | hx
      · cases hx
      · cases hx
        refine Or.inr ⟨nofun, h.deviceId, ?_, fun p hp => ?_⟩
        · rw [nameAfter, hpacket]
          rfl
        · rw [hafter.lookup, ← hfound]
          exact hp

theorem storeEvents_table {h : PlHeader} {p : Nat} {s : SensorFields} {τ : Int} {ns : UInt64} {stored : Bool}
    {rest : List (Event ServerSig)}
    (haccepts : (tableMonitor now).Accepts t (storeEvents h p s τ ns stored ++ rest) t') :
    (tableMonitor now).Accepts (t.recordSensor p s now) rest t' := by
  obtain ⟨rfl, htime⟩ := accepts_time haccepts
  have hstores := accepts_device (accepts_device (accepts_device (accepts_device (accepts_device
    (accepts_device htime)))))
  exact accepts_skip (accepts_skip hstores trivial) trivial

/-- A SENSOR packet on a connection with a device. -/
theorem sensor_heard {cfg : Config} {l : Locals} {x : Turn} {id : UInt32} (hwf : t.WellFormed)
    (hname : name = some id) (hid : ∀ p, l.dev = some p → t.lookup id = some p)
    (hstate : l.state ≠ .waitHello) (htype : h.type = PktType.sensor.code) (hpre : ∀ e ∈ pre, Receives e.op)
    (hpath : (handleSensor cfg l h).Path post x) (hup : x ≠ .inr .crash)
    (haccepts : (tableMonitor now).Accepts t (pre ++ ⟨.decided h (.accepted payload), ()⟩ :: post) t') :
    TurnHeard now name (pre ++ ⟨.decided h (.accepted payload), ()⟩ :: post) t t' x := by
  subst hname
  have hpacket : packetIn (some id) (pre ++ ⟨.decided h (.accepted payload), ()⟩ :: post) =
      some (id, .sensor) := by
    simp only [packetIn, head_accepted hpre, if_pos htype]
  obtain ⟨t₁, hbefore, hrest⟩ := untouched_decided hwf hpre haccepts
  rcases handleSensor_path hpath with ⟨-, -, rfl⟩ | ⟨p, τ, ns, stored, acks, hdev, rfl, rfl, hacks⟩
  · -- without a device the worker follows the null pointer: that run ends here
    exact absurd rfl hup
  have hp : t₁.lookup id = some p := (hbefore.lookup id).trans (hid p hdev)
  have hlast := storeEvents_table hrest
  have hcall := refreshes_recordSensor hbefore.wellFormed hp (readSensor cfg l.payload.bytes) now
  have hafter : Untouched (t₁.recordSensor p (readSensor cfg l.payload.bytes) now) t' := by
    refine untouched_still hcall.wellFormed hlast fun e he => ?_
    split_ifs at hacks
    · obtain ⟨sent, rfl⟩ := hacks
      rw [List.mem_singleton.mp he]
      trivial
    · rw [hacks] at he
      cases he
  have hlookup : ∀ id', t'.lookup id' = t.lookup id' := by
    intro id'
    rw [hafter.lookup, DeviceTable.recordSensor_lookup, hbefore.lookup]
  refine ⟨hcall.between hbefore hafter fun id' => ?_, ?_⟩
  · rw [refreshed_heardIn, hpacket]
    constructor
    · rintro ⟨⟨kind, hkind, -⟩, -⟩
      cases hkind
      rfl
    · rintro rfl
      refine ⟨⟨_, rfl, Or.inr (Or.inl rfl)⟩, ?_⟩
      rw [hlookup, hid p hdev]
      exact nofun
  · rintro l' hl'
    cases hl'
    refine Or.inr ⟨hstate, id, rfl, fun q hq => ?_⟩
    rw [hlookup]
    exact hid q hq

/-- Any other packet on a connection with a name. -/
theorem other_heard {l : Locals} {x : Turn} {id : UInt32} (hwf : t.WellFormed) (hname : name = some id)
    (hid : ∀ p, l.dev = some p → t.lookup id = some p) (htype : h.type ≠ PktType.sensor.code)
    (hpre : ∀ e ∈ pre, Receives e.op) (hpost : ∀ e ∈ post, Minor l.dev e.op) (hcarries : Carries l x)
    (haccepts : (tableMonitor now).Accepts t (pre ++ ⟨.decided h (.accepted payload), ()⟩ :: post) t') :
    TurnHeard now name (pre ++ ⟨.decided h (.accepted payload), ()⟩ :: post) t t' x := by
  subst hname
  obtain ⟨t₁, hbefore, hrest⟩ := untouched_decided hwf hpre haccepts
  have huntouched := hbefore.trans
    (untouched_still hbefore.wellFormed hrest fun e he => (hpost e he).still)
  refine ⟨huntouched.hears fun id' => ?_, ?_⟩
  · rw [refreshed_heardIn]
    rintro ⟨kind, hkind, hnew | hkind'⟩
    · rw [NewIn, huntouched.lookup] at hnew
      exact hnew.2 hnew.1
    · simp only [packetIn, head_accepted hpre, if_neg htype] at hkind
      split_ifs at hkind <;> cases hkind <;> rcases hkind' with hkind' | hkind' <;> cases hkind'
  · obtain ⟨l', rfl, hdev, -, -, hstate⟩ := hcarries
    rintro _ hl'
    cases hl'
    refine Or.inr ⟨hstate, id, rfl, fun p hp => ?_⟩
    rw [huntouched.lookup]
    exact hid p (hdev.symm.trans hp)

/-- An accepted packet. -/
theorem dispatch_heard {cfg : Config} {l : Locals} {x : Turn} (hwf : t.WellFormed) (hbound : Bound t name l)
    (hpre : ∀ e ∈ pre, Receives e.op) (hpath : (dispatch cfg l h).Path post x) (hup : x ≠ .inr .crash)
    (haccepts : (tableMonitor now).Accepts t (pre ++ ⟨.decided h (.accepted payload), ()⟩ :: post) t') :
    TurnHeard now name (pre ++ ⟨.decided h (.accepted payload), ()⟩ :: post) t t' x := by
  rcases dispatch_path hpath with ⟨hwait, hhello⟩ | ⟨hactive, htype, hsensor⟩ | ⟨hactive, htype, hminor, hcarries⟩
  · rcases hbound with ⟨-, hdev, hname⟩ | ⟨hactive, -⟩
    · exact hello_heard hwf hname hdev hpre hhello haccepts
    · exact absurd hwait hactive
  · rcases hbound with ⟨hwait, -⟩ | ⟨-, id, hname, hid⟩
    · exact absurd hwait hactive
    · exact sensor_heard hwf hname hid hactive htype hpre hsensor hup haccepts
  · rcases hbound with ⟨hwait, -⟩ | ⟨-, id, hname, hid⟩
    · exact absurd hwait hactive
    · exact other_heard hwf hname hid htype hpre hminor hcarries haccepts

/-- A turn that accepts no packet and goes on as before, if it goes on. -/
theorem none_heard {l : Locals} {x : Turn} (hwf : t.WellFormed) (hbound : Bound t name l)
    (hstill : ∀ e ∈ turn, Still e.op) (hnone : ∀ e ∈ turn, acceptedHeader e = none)
    (hx : ∀ l', x = .inl l' → l'.state = l.state ∧ l'.dev = l.dev)
    (haccepts : (tableMonitor now).Accepts t turn t') : TurnHeard now name turn t t' x := by
  obtain ⟨hhears, hname⟩ := hears_none name hwf haccepts hstill hnone
  refine ⟨hhears, fun l' hl' => ?_⟩
  obtain ⟨hstate, hdev⟩ := hx l' hl'
  rw [hname]
  exact hbound.mono hhears.lookup (by rw [hstate]) hdev

/-- **A turn of the loop** does to the table what the log says about it. -/
theorem clientTurn_heard {cfg : Config} {l : Locals} {x : Turn} (hwf : t.WellFormed) (hbound : Bound t name l)
    (hpath : (clientTurn cfg l).Path turn x) (hup : x ≠ .inr .crash)
    (haccepts : (tableMonitor now).Accepts t turn t') : TurnHeard now name turn t t' x := by
  obtain ⟨reads, post, rfl, hreads, ⟨rfl, hwaits⟩ | ⟨-, buf, h, hdecides⟩⟩ := clientTurn_path hpath
  · rw [List.append_nil] at haccepts ⊢
    refine none_heard hwf hbound (fun e he => (hreads e he).still) (fun e he => (hreads e he).neutral.1) ?_
      haccepts
    rintro l' rfl
    rcases hwaits with hx | ⟨why, hx, -⟩
    · cases hx
      exact ⟨rfl, rfl⟩
    · cases hx
  · rcases hdecides with ⟨e, hstrike⟩ | ⟨bytes, post', rfl, hdispatch⟩
    · obtain ⟨post', rfl, hminor, rfl⟩ := strikeOut_path hstrike
      refine none_heard hwf hbound ?_ ?_ ?_ haccepts
      · intro ev hev
        rcases List.mem_append.mp hev with hev | hev
        · exact (hreads ev hev).still
        · rcases List.mem_cons.mp hev with rfl | hev
          · trivial
          · exact (hminor ev hev).still
      · intro ev hev
        rcases List.mem_append.mp hev with hev | hev
        · exact (hreads ev hev).neutral.1
        · rcases List.mem_cons.mp hev with rfl | hev
          · rfl
          · exact (hminor ev hev).plain.neutral.1
      · intro l' hl'
        rw [struck_eq_inl hl']
        exact ⟨rfl, rfl⟩
    · have hbound' : Bound t name (l.heard buf) := hbound.mono (fun _ _ hp => hp) Iff.rfl rfl
      exact dispatch_heard hwf hbound' hreads hdispatch hup haccepts

end Turn

/-- How the worker stands with the table, wherever it is. -/
def WorkerPc.Bound (t : DeviceTable) (name : Option UInt32) : WorkerPc → Prop
  | .enter _ => name = none
  | .running l => PulseLink.Bound t name l
  | .leave _ => True

theorem WorkerPc.Bound.mono {t t' : DeviceTable} {name : Option UInt32} {pc : WorkerPc}
    (hbound : pc.Bound t name) (hlookup : ∀ id p, t.lookup id = some p → t'.lookup id = some p) :
    pc.Bound t' name := by
  cases pc with
  | enter payload => exact hbound
  | running l => exact PulseLink.Bound.mono hbound hlookup Iff.rfl rfl
  | leave why => trivial

/-- A turn of the worker, entering and leaving included. -/
theorem clientWorker_heard {cfg : Config} {now : Int} {name : Option UInt32} {turn : List (Event ServerSig)}
    {t t' : DeviceTable} {pc : WorkerPc} {x : WorkerPc ⊕ ExitReason} (hwf : t.WellFormed)
    (hbound : pc.Bound t name) (hpath : (clientWorker cfg pc).Path turn x) (hup : x ≠ .inr .crash)
    (haccepts : (tableMonitor now).Accepts t turn t') :
    Hears now (heardIn now name turn t t') t t' ∧
      ∀ pc', x = .inl pc' → pc'.Bound t' (nameAfter name turn) := by
  cases pc with
  | enter payload =>
      obtain ⟨_, turn', rfl, hret⟩ := path_ask_iff.mp hpath
      obtain ⟨rfl, rfl⟩ := Proc.path_ret_iff.mp hret
      obtain ⟨hhears, hname⟩ := hears_none name hwf haccepts (List.forall_mem_singleton.mpr trivial)
        (List.forall_mem_singleton.mpr rfl)
      refine ⟨hhears, ?_⟩
      rintro pc' hpc'
      cases hpc'
      exact Or.inl ⟨rfl, rfl, hname.trans hbound⟩
  | running l =>
      obtain ⟨turn', y, rest, rfl, hturn, hret⟩ := Proc.path_bind_iff.mp hpath
      obtain ⟨rfl, rfl⟩ := Proc.path_ret_iff.mp hret
      rw [List.append_nil] at haccepts ⊢
      have hup' : y ≠ .inr .crash := by
        rintro rfl
        exact hup rfl
      obtain ⟨hhears, hbound'⟩ := clientTurn_heard hwf hbound hturn hup' haccepts
      refine ⟨hhears, fun pc' hpc' => ?_⟩
      cases y with
      | inl l' =>
          cases hpc'
          exact hbound' l' rfl
      | inr why => cases why <;> cases hpc' <;> trivial
  | leave why =>
      obtain ⟨hplain, rfl⟩ := (leave_plain cfg why).path hpath
      obtain ⟨hhears, -⟩ := hears_none name hwf haccepts (fun e he => (hplain e he).still)
        fun e he => (hplain e he).neutral.1
      exact ⟨hhears, nofun⟩

/-! ### The log -/

/-- The time of the last packet of the log that satisfies `p`. -/
def lastTime (p : Heard → Bool) (log : List Heard) : Option Int := ((log.filter p).getLast?).map Heard.time

theorem lastTime_append (p : Heard → Bool) (log : List Heard) (e : Heard) :
    lastTime p (log ++ [e]) = if p e then some e.time else lastTime p log := by
  rw [lastTime, lastTime, List.filter_append]
  by_cases hp : p e
  · rw [if_pos hp, List.filter_cons_of_pos hp, List.filter_nil, List.getLast?_append_of_ne_nil _ (by simp)]
    rfl
  · rw [if_neg hp, List.filter_cons_of_neg hp, List.filter_nil, List.append_nil]

/-- When the last packet came from the device. -/
def lastHeard (log : List Heard) (id : UInt32) : Option Int := lastTime (fun e => e.id = id) log

/-- When the last packet came that refreshed it. -/
def lastRefresh (log : List Heard) (id : UInt32) : Option Int :=
  lastTime (fun e => e.id = id && e.refreshes) log

/-- What the table and the log say about each other at time `now`. -/
structure Presence (now : Int) (log : List Heard) (t : DeviceTable) : Prop where
  wellFormed : t.WellFormed
  seen : ∀ id v state, t.seen id = some (v, state) →
    lastRefresh log id = some v ∧ (state = .offline → now - v > HEARTBEAT_TIMEOUT_S)
  heard : ∀ id v, lastRefresh log id = some v → ∃ last, lastHeard log id = some last ∧ v ≤ last ∧ last ≤ now

theorem Presence.later {now now' : Int} {log : List Heard} {t : DeviceTable} (h : Presence now log t)
    (hle : now ≤ now') : Presence now' log t := by
  refine ⟨h.wellFormed, fun id v state hseen => ?_, fun id v hv => ?_⟩
  · obtain ⟨hrefresh, hoffline⟩ := h.seen id v state hseen
    exact ⟨hrefresh, fun hstate => lt_of_lt_of_le (hoffline hstate) (by omega)⟩
  · obtain ⟨last, hlast, hvl, hln⟩ := h.heard id v hv
    exact ⟨last, hlast, hvl, hln.trans hle⟩

/-- A packet, or none, keeps table and log in step. -/
theorem Presence.hears {now : Int} {log : List Heard} {heard : Option Heard} {t t' : DeviceTable}
    (h : Presence now log t) (hhears : Hears now heard t t') (htime : ∀ e ∈ heard, e.time = now) :
    Presence now (log ++ heard.toList) t' := by
  cases heard with
  | none =>
      rw [Option.toList_none, List.append_nil]
      refine ⟨hhears.wellFormed, fun id v state hseen => h.seen id v state ?_, h.heard⟩
      rw [hhears.seen] at hseen
      exact (if_neg fun hr => by cases hr.1).symm.trans hseen
  | some e =>
      have he : e.time = now := htime e rfl
      rw [Option.toList_some]
      refine ⟨hhears.wellFormed, fun id v state hseen => ?_, fun id v hv => ?_⟩
      · -- a heartbeat there was no memory for is in the log, but then its device is not in the table
        have hin : t'.lookup id ≠ none := by
          intro hnone
          rw [DeviceTable.seen_eq_none_iff.mpr hnone] at hseen
          cases hseen
        rw [hhears.seen] at hseen
        rw [lastRefresh, lastTime_append]
        by_cases hr : (e.id = id && e.refreshes) = true
        · rw [if_pos ⟨hr, hin⟩] at hseen
          cases hseen
          rw [if_pos hr, he]
          exact ⟨rfl, nofun⟩
        · rw [if_neg fun hr' => hr hr'.1] at hseen
          rw [if_neg hr]
          exact h.seen id v state hseen
      · rw [lastRefresh, lastTime_append] at hv
        rw [lastHeard, lastTime_append]
        by_cases hid : e.id = id
        · refine ⟨now, by rw [if_pos (decide_eq_true hid), he], ?_, le_refl now⟩
          split_ifs at hv
          · cases hv
            exact he.le
          · obtain ⟨last, -, hvl, hln⟩ := h.heard id v hv
            exact hvl.trans hln
        · rw [if_neg (by simp [hid])] at hv ⊢
          exact h.heard id v hv

/-- A sweep keeps them in step, and afterwards exactly the devices not refreshed in time are OFFLINE. -/
theorem Presence.swept {now : Int} {log : List Heard} {t t' : DeviceTable} (h : Presence now log t)
    (hwf : t'.WellFormed) (hseen : ∀ id, t'.seen id = (t.seen id).map (sweepSeen now HEARTBEAT_TIMEOUT_S)) :
    Presence now log t' ∧ ∀ id v state, t'.seen id = some (v, state) →
      (state = .offline ↔ now - v > HEARTBEAT_TIMEOUT_S) := by
  have hone : ∀ id v state, t'.seen id = some (v, state) →
      lastRefresh log id = some v ∧ (state = .offline ↔ now - v > HEARTBEAT_TIMEOUT_S) := by
    intro id v state hx
    rw [hseen, Option.map_eq_some_iff] at hx
    obtain ⟨⟨v', state'⟩, hbefore, hx⟩ := hx
    obtain ⟨hrefresh, hoffline⟩ := h.seen id v' state' hbefore
    rw [sweepSeen] at hx
    split_ifs at hx with hold
    · cases hx
      exact ⟨hrefresh, fun _ => hold, fun _ => rfl⟩
    · cases hx
      exact ⟨hrefresh, hoffline, fun hold' => absurd hold' hold⟩
  refine ⟨⟨hwf, fun id v state hx => ?_, h.heard⟩, fun id v state hx => (hone id v state hx).2⟩
  exact ⟨(hone id v state hx).1, (hone id v state hx).2.mp⟩

/-! ### Runs of the server -/

/-- The server: its workers, the names of their connections, the shared state and the log. -/
structure Station (ι : Type) where
  workers : ι → WorkerPc ⊕ ExitReason
  names : ι → Option UInt32
  conns : ι → Conn
  ctx : ServerCtx
  log : List Heard

/-- Whose turn it is: a worker's, the listener's with what `recvfrom` returned, or the reaper's. -/
inductive Doing (ι : Type) where
  | turn (i : ι)
  | datagram (got : Option (List UInt8))
  | sweep

/-- A turn and what the clock shows meanwhile. -/
structure Moment (ι : Type) where
  now : Int
  doing : Doing ι

/-- The clock does not go backwards. -/
def ClockRuns {ι : Type} (ms : List (Moment ι)) : Prop := ms.Pairwise fun a b => a.now ≤ b.now

namespace Station

variable {ι : Type}

/-- The server when no connection has been accepted yet. -/
def start (payloads : ι → PayloadBuf) (conns : ι → Conn) (ctx : ServerCtx) : Station ι where
  workers i := .inl (.enter (payloads i))
  names _ := none
  conns := conns
  ctx := ctx
  log := []

/-- A turn of the UDP listener; its socket is no connection. -/
def datagram (cfg : Config) (st : Station ι) (now : Int) (got : Option (List UInt8)) : Station ι :=
  let ctx := ((udpTurn cfg.host got).exec (serverAt now) (scripted [], st.ctx)).world.2
  { st with ctx := ctx, log := st.log ++ (heardOf now cfg.host got st.ctx.devices ctx.devices).toList }

/-- A sweep of the reaper. -/
def sweep (st : Station ι) (now : Int) : Station ι :=
  { st with ctx := (reaperSweep.exec (trafficAt now) (scripted [], st.ctx)).world.2 }

/-- The server at time `now`, between two turns. -/
structure Stands (now : Int) (st : Station ι) : Prop where
  presence : Presence now st.log st.ctx.devices
  bound : ∀ i pc, st.workers i = .inl pc → pc.Bound st.ctx.devices (st.names i)

section Alone

variable {st : Station ι} {clock now : Int}

theorem start_stands (payloads : ι → PayloadBuf) (conns : ι → Conn) {ctx : ServerCtx}
    (hinit : ctx.devices = dtInit) (now : Int) : (start payloads conns ctx).Stands now := by
  refine ⟨⟨?_, fun id v state hseen => ?_, nofun⟩, fun i pc hpc => ?_⟩
  · show ctx.devices.WellFormed
    rw [hinit]
    exact DeviceTable.wellFormed_init
  · have hnone : ctx.devices.seen id = none := by
      rw [hinit]
      rfl
    cases hnone.symm.trans hseen
  · cases hpc
    rfl

theorem Stands.later (hstands : st.Stands clock) (hle : clock ≤ now) : st.Stands now :=
  ⟨hstands.presence.later hle, hstands.bound⟩

theorem datagram_stands (cfg : Config) (got : Option (List UInt8)) (hstands : st.Stands now) :
    (st.datagram cfg now got).Stands now := by
  have hpath := Proc.exec_path (serverAt now) (udpTurn cfg.host got) (scripted [], st.ctx)
  have haccepts := accepts_serverAt now (udpTurn cfg.host got) (scripted [], st.ctx)
  have htouch := udpTurn_table hstands.presence.wellFormed hpath haccepts
  have hhears : Hears now (heardOf now cfg.host got st.ctx.devices (st.datagram cfg now got).ctx.devices)
      st.ctx.devices (st.datagram cfg now got).ctx.devices := by
    refine ⟨htouch.wellFormed, htouch.lookup, fun id => (htouch.seen id).trans ?_⟩
    simp only [refreshed_heardOf]
    rfl
  exact ⟨hstands.presence.hears hhears time_heardOf, fun j pc hj => (hstands.bound j pc hj).mono htouch.lookup⟩

/-- A sweep keeps the server standing, and settles which devices are OFFLINE. -/
theorem sweep_stands (hstands : st.Stands now) :
    (st.sweep now).Stands now ∧ ∀ id v state, (st.sweep now).ctx.devices.seen id = some (v, state) →
      (state = .offline ↔ now - v > HEARTBEAT_TIMEOUT_S) := by
  obtain ⟨hwf, hlookup, hseen⟩ := reaperSweep_table now (w := (scripted [], st.ctx)) hstands.presence.wellFormed
  obtain ⟨hpresence, hoffline⟩ := hstands.presence.swept hwf hseen
  refine ⟨⟨hpresence, fun i pc hpc => ?_⟩, hoffline⟩
  exact (hstands.bound i pc hpc).mono fun id p hp => (hlookup id).trans hp

end Alone

variable [DecidableEq ι]

/-- A turn of the worker of a connection; a crash takes the server down. -/
def turn (cfg : Config) (st : Station ι) (now : Int) (i : ι) : Option (Station ι) :=
  match st.workers i with
  | .inr _ => some st
  | .inl pc =>
      let r := (clientWorker cfg pc).exec (serverAt now) (st.conns i, st.ctx)
      match r.value with
      | .inr .crash => none
      | x => some
          { workers := Function.update st.workers i x
            names := Function.update st.names i (nameAfter (st.names i) r.trace)
            conns := Function.update st.conns i r.world.1
            ctx := r.world.2
            log := st.log ++ (heardIn now (st.names i) r.trace st.ctx.devices r.world.2.devices).toList }

def step (cfg : Config) (st : Station ι) (m : Moment ι) : Option (Station ι) :=
  match m.doing with
  | .turn i => st.turn cfg m.now i
  | .datagram got => some (st.datagram cfg m.now got)
  | .sweep => some (st.sweep m.now)

/-- The server after the given moments, if it has not crashed. -/
def run (cfg : Config) (st : Station ι) : List (Moment ι) → Option (Station ι)
  | [] => some st
  | m :: ms => (st.step cfg m).bind fun st' => st'.run cfg ms

variable {cfg : Config} {st st' : Station ι} {clock now : Int}

theorem turn_stands {i : ι} (hstands : st.Stands now) (hturn : st.turn cfg now i = some st') :
    st'.Stands now := by
  rw [turn] at hturn
  cases hpc : st.workers i with
  | inr why =>
      rw [hpc] at hturn
      cases hturn
      exact hstands
  | inl pc =>
      rw [hpc] at hturn
      simp only at hturn
      have hpath := Proc.exec_path (serverAt now) (clientWorker cfg pc) (st.conns i, st.ctx)
      have haccepts := accepts_serverAt now (clientWorker cfg pc) (st.conns i, st.ctx)
      split at hturn
      · cases hturn
      next hup =>
          cases hturn
          obtain ⟨hhears, hbound⟩ :=
            clientWorker_heard hstands.presence.wellFormed (hstands.bound i pc hpc) hpath hup haccepts
          refine ⟨hstands.presence.hears hhears time_heardIn, fun j pc' hj => ?_⟩
          by_cases hji : j = i
          · subst hji
            simp only [Function.update_self] at hj ⊢
            exact hbound pc' hj
          · simp only [Function.update_of_ne hji] at hj ⊢
            exact (hstands.bound j pc' hj).mono hhears.lookup

theorem step_stands {m : Moment ι} (hstands : st.Stands m.now) (hstep : st.step cfg m = some st') :
    st'.Stands m.now := by
  rw [step] at hstep
  cases hdoing : m.doing with
  | turn i =>
      rw [hdoing] at hstep
      exact turn_stands hstands hstep
  | datagram got =>
      rw [hdoing] at hstep
      cases hstep
      exact datagram_stands cfg got hstands
  | sweep =>
      rw [hdoing] at hstep
      cases hstep
      exact (sweep_stands hstands).1

/-- **Every run** that follows the clock keeps table and log in step. -/
theorem run_stands {ms : List (Moment ι)} (hstands : st.Stands clock) (hstart : ∀ m ∈ ms, clock ≤ m.now)
    (hclock : ClockRuns ms) (hrun : st.run cfg ms = some st')
    (hle : clock ≤ now) (hnow : ∀ m ∈ ms, m.now ≤ now) : st'.Stands now := by
  induction ms generalizing st clock with
  | nil =>
      cases hrun
      exact hstands.later hle
  | cons m ms ih =>
      obtain ⟨st₁, hstep, hrest⟩ := Option.bind_eq_some_iff.mp hrun
      obtain ⟨hm, hms⟩ := List.pairwise_cons.mp hclock
      have hstands₁ := step_stands (hstands.later (hstart m List.mem_cons_self)) hstep
      exact ih hstands₁ hm hms hrest (hnow m List.mem_cons_self) fun m' hm' =>
        hnow m' (List.mem_cons_of_mem _ hm')

theorem run_append {ms ms' : List (Moment ι)} :
    st.run cfg (ms ++ ms') = (st.run cfg ms).bind fun st₁ => st₁.run cfg ms' := by
  induction ms generalizing st with
  | nil => rfl
  | cons m ms ih =>
      simp only [List.cons_append, run, Option.bind_assoc, ih]

end Station

/-- **OFFLINE after a sweep**: over any run of the server that follows the clock and ends with a sweep, a device
is OFFLINE exactly when its last packet of any kind is older than the timeout, if and only if the packets that
refresh it are as recent as its last packet, as far as the timeout can tell. -/
theorem offline_after_sweep_iff {ι : Type} [DecidableEq ι] (cfg : Config) (payloads : ι → PayloadBuf)
    (conns : ι → Conn) {ctx : ServerCtx} (hinit : ctx.devices = dtInit) (ms : List (Moment ι)) (now : Int)
    (hclock : ClockRuns (ms ++ [⟨now, .sweep⟩])) {st : Station ι}
    (hrun : (Station.start payloads conns ctx).run cfg (ms ++ [⟨now, .sweep⟩]) = some st) (id : UInt32)
    {d : Device} (hd : st.ctx.devices.get id = some d) :
    ∃ last refreshed, lastHeard st.log id = some last ∧ lastRefresh st.log id = some refreshed ∧
      ((d.state = .offline ↔ now - last > HEARTBEAT_TIMEOUT_S) ↔
        (now - last ≤ HEARTBEAT_TIMEOUT_S → now - refreshed ≤ HEARTBEAT_TIMEOUT_S)) := by
  rw [Station.run_append] at hrun
  obtain ⟨st₁, hbefore, hsweep⟩ := Option.bind_eq_some_iff.mp hrun
  cases hsweep
  obtain ⟨hms, -, hlast⟩ := List.pairwise_append.mp hclock
  -- the server may have started at any time before the first moment
  obtain ⟨clock, hbound⟩ := ((now :: ms.map Moment.now).toFinset).bddBelow
  have hle : clock ≤ now := hbound (by simp)
  have hstart : ∀ m ∈ ms, clock ≤ m.now := fun m hm =>
    hbound (by simpa using Or.inr ⟨m, hm, rfl⟩)
  have hnow : ∀ m ∈ ms, m.now ≤ now := fun m hm => hlast m hm _ (List.mem_singleton.mpr rfl)
  have hstands : st₁.Stands now :=
    Station.run_stands (Station.start_stands payloads conns hinit clock) hstart hms hbefore hle hnow
  obtain ⟨hswept, hoffline⟩ := Station.sweep_stands hstands
  have hseen : (st₁.sweep now).ctx.devices.seen id = some (d.lastSeen, d.state) :=
    congrArg (Option.map fun d : Device => (d.lastSeen, d.state)) hd
  have hstate := hoffline id _ _ hseen
  obtain ⟨hrefresh, -⟩ := hswept.presence.seen id _ _ hseen
  obtain ⟨last, hheard, hle', -⟩ := hswept.presence.heard id _ hrefresh
  refine ⟨last, d.lastSeen, hheard, hrefresh, ?_⟩
  rw [hstate]
  omega

/-- Device 7 greets on two connections and sends one more packet on the second. -/
def twoGreetings (packet : List UInt8) : Station Bool :=
  let hello := packetBytes PktType.hello.code 7 (helloPayload 1 0)
  Station.start (fun _ => zeroPayload) (fun i => scripted (unread (if i then hello ++ packet else hello) []))
    freshServer

/-- The first greeting at time 0, the second at 100 and the packet at 101. -/
def greetedTwice : List (Moment Bool) :=
  [⟨0, .turn false⟩, ⟨0, .turn false⟩, ⟨100, .turn true⟩, ⟨100, .turn true⟩, ⟨101, .turn true⟩]

theorem greetedTwice_clock : ClockRuns (greetedTwice ++ [⟨101, .sweep⟩]) := by
  rw [ClockRuns]
  decide

/-- A SENSOR packet refreshes the device. -/
theorem offline_after_sweep_sensor :
    ∃ st d, (twoGreetings (packetBytes PktType.sensor.code 7 (sensorPayload oneReading))).run ⟨.little, none⟩
        (greetedTwice ++ [⟨101, .sweep⟩]) = some st ∧
      st.ctx.devices.get 7 = some d ∧ lastHeard st.log 7 = some 101 ∧
      (d.state = .offline ↔ (101 - 101 : Int) > HEARTBEAT_TIMEOUT_S) := by
  have hfacts : ((twoGreetings (packetBytes PktType.sensor.code 7 (sensorPayload oneReading))).run
      ⟨.little, none⟩ (greetedTwice ++ [⟨101, .sweep⟩])).map (fun st =>
        ((st.ctx.devices.get 7).isSome, lastHeard st.log 7, lastRefresh st.log 7)) =
      some (true, some 101, some 101) := by decide +kernel
  obtain ⟨st, hrun, hst⟩ := Option.map_eq_some_iff.mp hfacts
  simp only [Prod.mk.injEq] at hst
  obtain ⟨hsome, hheard, hrefresh⟩ := hst
  obtain ⟨d, hd⟩ := Option.isSome_iff_exists.mp hsome
  refine ⟨st, d, hrun, hd, hheard, ?_⟩
  obtain ⟨last, refreshed, hlast, hrefreshed, hiff⟩ :=
    offline_after_sweep_iff ⟨.little, none⟩ _ _ rfl greetedTwice 101 greetedTwice_clock hrun 7 hd
  cases hheard.symm.trans hlast
  cases hrefresh.symm.trans hrefreshed
  exact hiff.mpr id

/-- The greeting of a known device and a FRAME packet refresh nothing: the device is OFFLINE in the second in
which the server has taken a frame from it. -/
theorem offline_after_sweep_frame :
    ∃ st d, (twoGreetings (packetBytes PktType.frame.code 7 (frameHeader 2 1 9 0 1 ++ [10, 20]))).run
        ⟨.little, none⟩ (greetedTwice ++ [⟨101, .sweep⟩]) = some st ∧
      ClockRuns (greetedTwice ++ [⟨101, .sweep⟩]) ∧
      st.log = [⟨0, 7, .hello, true⟩, ⟨100, 7, .hello, false⟩, ⟨101, 7, .frame, false⟩] ∧
      st.ctx.devices.get 7 = some d ∧ lastHeard st.log 7 = some 101 ∧
      ¬ (d.state = .offline ↔ (101 - 101 : Int) > HEARTBEAT_TIMEOUT_S) := by
  have hfacts : ((twoGreetings (packetBytes PktType.frame.code 7 (frameHeader 2 1 9 0 1 ++ [10, 20]))).run
      ⟨.little, none⟩ (greetedTwice ++ [⟨101, .sweep⟩])).map (fun st =>
        (st.log, (st.ctx.devices.get 7).map Device.state)) =
      some ([⟨0, 7, .hello, true⟩, ⟨100, 7, .hello, false⟩, ⟨101, 7, .frame, false⟩], some .offline) := by
    decide +kernel
  obtain ⟨st, hrun, hst⟩ := Option.map_eq_some_iff.mp hfacts
  simp only [Prod.mk.injEq] at hst
  obtain ⟨hlog, hstate⟩ := hst
  obtain ⟨d, hd, hoffline⟩ := Option.map_eq_some_iff.mp hstate
  refine ⟨st, d, hrun, greetedTwice_clock, hlog, hd, by rw [hlog]; rfl, ?_⟩
  intro hiff
  exact absurd (hiff.mp hoffline) (by decide)

end PulseLink
