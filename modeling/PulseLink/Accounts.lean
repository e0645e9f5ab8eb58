import PulseLink.TableInvariant
import PulseLink.WorkerPath

/-! The accounts of one connection: which packets it brought, which records they left and which device they
were credited to. A worker credits every reading to the device its HELLO chose and labels the record with
the id in the header of the SENSOR packet. -/

namespace PulseLink

/-! ### The counters of a device -/

/-- A counter of a device: how it is read and which operation adds to it. -/
structure Counter where
  read : Device → UInt64
  add : DevAtomic
  read_newDevice : ∀ id sessionId now, read (DeviceTable.newDevice id sessionId now) = 0
  read_apply : ∀ a d, read (DevAtomic.apply a d) = if a = add then read d + 1 else read d

/-- `packets_ok`. -/
def Counter.ok : Counter where
  read := Device.packetsOk
  add := .addOk
  read_newDevice _ _ _ := rfl
  read_apply a d := by cases a <;> rfl

/-- `packets_bad`. -/
def Counter.bad : Counter where
  read := Device.packetsBad
  add := .addBad
  read_newDevice _ _ _ := rfl
  read_apply a d := by cases a <;> rfl

namespace Counter

variable (k : Counter)

def addOf : Event ServerSig → Option Nat
  | ⟨.device p a, _⟩ => if a = k.add then some p else none
  | _ => none

/-- The devices added to, in order. -/
def addsOf (t : List (Event ServerSig)) : List Nat := t.filterMap k.addOf

variable {k}

theorem addsOf_append (t t' : List (Event ServerSig)) : k.addsOf (t ++ t') = k.addsOf t ++ k.addsOf t' :=
  List.filterMap_append

theorem addOf_other {o : ServerOp} (ho : ∀ p, o ≠ .device p k.add) (ans : o.Ans) : k.addOf ⟨o, ans⟩ = none := by
  cases o with
  | device p a =>
      refine if_neg ?_
      rintro rfl
      exact ho p rfl
  | _ => rfl

theorem addOf_add (p : Nat) (ans : Unit) : k.addOf ⟨.device p k.add, ans⟩ = some p := if_pos rfl

end Counter

/-! ### What a trace says about its packets -/

def acceptedHeader : Event ServerSig → Option PlHeader
  | ⟨.decided h (.accepted _), _⟩ => some h
  | _ => none

/-- The headers of the packets that passed the framing checks, in order. -/
def acceptedHeaders (t : List (Event ServerSig)) : List PlHeader := t.filterMap acceptedHeader

def PlHeader.isSensor (h : PlHeader) : Bool := h.type = PktType.sensor.code

/-- The id in the first accepted packet; if that is not a HELLO the worker leaves. -/
def helloId (t : List (Event ServerSig)) : Option UInt32 := (acceptedHeaders t).head?.map PlHeader.deviceId

/-- The SENSOR packets accepted after the HELLO. -/
def sensorsOf (t : List (Event ServerSig)) : List PlHeader :=
  (acceptedHeaders t).tail.filter PlHeader.isSensor

/-- Packets, records and credits. -/
def summary (t : List (Event ServerSig)) : List PlHeader × List SensorRecord × List Nat :=
  (acceptedHeaders t, recordsOf t, Counter.ok.addsOf t)

theorem summary_append (t t' : List (Event ServerSig)) :
    summary (t ++ t') = (acceptedHeaders t ++ acceptedHeaders t', recordsOf t ++ recordsOf t',
      Counter.ok.addsOf t ++ Counter.ok.addsOf t') := by
  simp only [summary, acceptedHeaders, recordsOf, Counter.addsOf, List.filterMap_append]

/-- An event that counts nowhere. -/
def Neutral (e : Event ServerSig) : Prop := acceptedHeader e = none ∧ recordOf e = none ∧ Counter.ok.addOf e = none

theorem Plain.neutral {dev : Option Nat} {e : Event ServerSig} (he : Plain dev e.op) : Neutral e := by
  obtain ⟨o, ans⟩ := e
  cases o with
  | device p a =>
      refine ⟨rfl, rfl, ?_⟩
      cases a <;> first | rfl | exact absurd rfl he.2
  | _ => first | exact he.elim | exact ⟨rfl, rfl, rfl⟩

theorem Receives.neutral {e : Event ServerSig} (he : Receives e.op) : Neutral e := by
  obtain ⟨o, ans⟩ := e
  cases o <;> first | exact he.elim | exact ⟨rfl, rfl, rfl⟩

theorem LooksUp.neutral {e : Event ServerSig} (he : LooksUp e.op) : Neutral e := by
  obtain ⟨o, ans⟩ := e
  cases o <;> first | exact he.elim | exact ⟨rfl, rfl, rfl⟩

theorem summary_neutral {t : List (Event ServerSig)} (ht : ∀ e ∈ t, Neutral e) :
    summary t = ([], [], []) := by
  refine Prod.ext ?_ (Prod.ext ?_ ?_)
  · exact List.filterMap_eq_nil_iff.mpr fun e he => (ht e he).1
  · exact List.filterMap_eq_nil_iff.mpr fun e he => (ht e he).2.1
  · exact List.filterMap_eq_nil_iff.mpr fun e he => (ht e he).2.2

theorem summary_append_neutral (t : List (Event ServerSig)) {t' : List (Event ServerSig)}
    (ht' : ∀ e ∈ t', Neutral e) : summary (t ++ t') = summary t := by
  have h := summary_neutral ht'
  simp only [summary, Prod.mk.injEq] at h
  rw [summary_append, h.1, h.2.1, h.2.2]
  simp only [summary, List.append_nil]

/-- One packet among neutral events. -/
theorem summary_accepted {pre post : List (Event ServerSig)} (hpre : ∀ e ∈ pre, Neutral e)
    (hpost : ∀ e ∈ post, Neutral e) (h : PlHeader) (payload : List UInt8) :
    summary (pre ++ ⟨.decided h (.accepted payload), ()⟩ :: post) = ([h], [], []) := by
  have hcons : summary (⟨.decided h (.accepted payload), ()⟩ :: post) = ([h], [], []) := by
    have h' := summary_append_neutral [⟨.decided h (.accepted payload), ()⟩] hpost
    exact h'
  have h₁ := summary_neutral hpre
  simp only [summary, Prod.mk.injEq] at h₁ hcons
  rw [summary_append, h₁.1, h₁.2.1, h₁.2.2, hcons.1, hcons.2.1, hcons.2.2]
  rfl

/-! ### What a turn does to the accounts -/

/-- The kinds of turn, by what they add to the summary. -/
inductive TurnKind (l : Locals) : List (Event ServerSig) → Turn → Prop where
  | idle {t : List (Event ServerSig)} {x : Turn} (ht : ∀ e ∈ t, Neutral e)
      (hx : ∀ l', x = .inl l' → l'.dev = l.dev ∧ (l'.state = .waitHello ↔ l.state = .waitHello)) :
      TurnKind l t x
  | hello {pre post : List (Event ServerSig)} {h : PlHeader} {payload : List UInt8} {x : Turn}
      (hstate : l.state = .waitHello) (hpre : ∀ e ∈ pre, Neutral e) (hpost : ∀ e ∈ post, Neutral e)
      (hx : ∀ l', x = .inl l' → l'.state ≠ .waitHello ∧ Grounds post h.deviceId l'.dev) :
      TurnKind l (pre ++ ⟨.decided h (.accepted payload), ()⟩ :: post) x
  | sensor {pre acks : List (Event ServerSig)} {h : PlHeader} {payload : List UInt8} {p : Nat}
      {s : SensorFields} {now : Int} {ns : UInt64} {ok : Bool} {l' : Locals} (hstate : l.state ≠ .waitHello)
      (hdev : l.dev = some p) (hpre : ∀ e ∈ pre, Neutral e) (hacks : ∀ e ∈ acks, Neutral e)
      (htype : h.isSensor = true) (hdev' : l'.dev = l.dev) (hstate' : l'.state = l.state) :
      TurnKind l (pre ++ ⟨.decided h (.accepted payload), ()⟩ :: (storeEvents h p s now ns ok ++ acks)) (.inl l')
  | other {pre post : List (Event ServerSig)} {h : PlHeader} {payload : List UInt8} {l' : Locals}
      (hstate : l.state ≠ .waitHello) (hpre : ∀ e ∈ pre, Neutral e) (hpost : ∀ e ∈ post, Neutral e)
      (htype : h.isSensor = false) (hdev' : l'.dev = l.dev) (hstate' : l'.state ≠ .waitHello) :
      TurnKind l (pre ++ ⟨.decided h (.accepted payload), ()⟩ :: post) (.inl l')
  | crash {t : List (Event ServerSig)} (hstate : l.state ≠ .waitHello) (hdev : l.dev = none) :
      TurnKind l t (.inr .crash)

theorem TurnKind.of_dispatch {cfg : Config} {l : Locals} {h : PlHeader} {pre t : List (Event ServerSig)}
    {x : Turn} (hpre : ∀ e ∈ pre, Neutral e) (payload : List UInt8) (hpath : (dispatch cfg l h).Path t x) :
    TurnKind l (pre ++ ⟨.decided h (.accepted payload), ()⟩ :: t) x := by
  rcases dispatch_path hpath with ⟨hstate, hhello⟩ | ⟨hstate, htype, hsensor⟩ |
    ⟨hstate, htype, hplain, l', rfl, hdev, -, -, hstate'⟩
  · rcases handleHello_path hhello with ⟨-, hplain, rfl⟩ | ⟨sid, dev, call, rest, -, rfl, hcall, hrest, hx⟩
    · exact .hello hstate hpre (fun e he => (hplain e he).neutral) nofun
    · have hlooks := ((dtGetOrCreate_looksUp _ _).path hcall).1
      refine .hello hstate hpre ?_ ?_
      · intro e he
        rcases List.mem_cons.mp he with rfl | he
        · exact ⟨rfl, rfl, rfl⟩
        · rcases List.mem_append.mp he with he | he
          · exact (hlooks e he).neutral
          · exact (hrest e he).neutral
      · rintro l' rfl
        rcases hx with hx | hx
        · cases hx
        · cases hx
          refine ⟨nofun, (dtGetOrCreate_path hcall).mono ?_⟩
          exact List.subset_cons_of_subset _ (List.subset_append_left _ _)
  · rcases handleSensor_path hsensor with ⟨hdev, rfl, rfl⟩ | ⟨p, now, ns, ok, acks, hdev, rfl, rfl, hacks⟩
    · exact .crash hstate hdev
    · refine .sensor hstate hdev hpre ?_ (by simp [PlHeader.isSensor, htype]) rfl rfl
      split_ifs at hacks
      · obtain ⟨sent, rfl⟩ := hacks
        simp [Neutral, acceptedHeader, recordOf, Counter.addOf]
      · simp [hacks]
  · exact .other hstate hpre (fun e he => (hplain e he).plain.neutral) (by simp [PlHeader.isSensor, htype]) hdev
      hstate'

/-- The kind of a turn depends on the state and the device only. -/
theorem TurnKind.of_heard {l : Locals} {payload : PayloadBuf} {t : List (Event ServerSig)} {x : Turn}
    (hkind : TurnKind (l.heard payload) t x) : TurnKind l t x := by
  cases hkind with
  | idle ht hx => exact .idle ht hx
  | hello hstate hpre hpost hx => exact .hello hstate hpre hpost hx
  | sensor hstate hdev hpre hacks htype hdev' hstate' =>
      exact .sensor hstate hdev hpre hacks htype hdev' hstate'
  | other hstate hpre hpost htype hdev' hstate' => exact .other hstate hpre hpost htype hdev' hstate'
  | crash hstate hdev => exact .crash hstate hdev

/-- Every turn is of one of the kinds. -/
theorem TurnKind.of_path {cfg : Config} {l : Locals} {t : List (Event ServerSig)} {x : Turn}
    (hpath : (clientTurn cfg l).Path t x) : TurnKind l t x := by
  obtain ⟨reads, post, rfl, hreads, ⟨rfl, hwaits⟩ | ⟨-, payload, h, hdecides⟩⟩ := clientTurn_path hpath
  · refine .idle ?_ ?_
    · intro e he
      rw [List.append_nil] at he
      exact (hreads e he).neutral
    · rintro l' rfl
      rcases hwaits with hx | ⟨why, hx, -⟩
      · cases hx
        exact ⟨rfl, Iff.rfl⟩
      · cases hx
  · have hneutral : ∀ e ∈ reads, Neutral e := fun e he => (hreads e he).neutral
    rcases hdecides with ⟨e, hstrike⟩ | ⟨bytes, post', rfl, hdispatch⟩
    · obtain ⟨post', rfl, hplain, rfl⟩ := strikeOut_path hstrike
      refine .idle ?_ ?_
      · intro e he
        rcases List.mem_append.mp he with he | he
        · exact hneutral e he
        · rcases List.mem_cons.mp he with rfl | he
          · exact ⟨rfl, rfl, rfl⟩
          · exact (hplain e he).plain.neutral
      · intro l' hl'
        rw [struck_eq_inl hl']
        exact ⟨rfl, Iff.rfl⟩
    · exact (TurnKind.of_dispatch hneutral bytes hdispatch).of_heard

/-! ### The accounts of one worker -/

/-- The allocation of a device failed. -/
def Starved (t : List (Event ServerSig)) : Prop := ∃ id, Grounds t id none

/-- A connection opened as `id` whose readings all went to the device at `p`: one record for each SENSOR
packet, under the id of its header, and one credit. -/
structure Tied (t : List (Event ServerSig)) (id : UInt32) (p : Nat) : Prop where
  hello : helloId t = some id
  records : (recordsOf t).map SensorRecord.deviceId = (sensorsOf t).map PlHeader.deviceId
  credits : Counter.ok.addsOf t = List.replicate (sensorsOf t).length p
  grounds : Grounds t id (some p)

/-- A connection without readings. -/
structure Untied (t : List (Event ServerSig)) : Prop where
  sensors : sensorsOf t = []
  records : recordsOf t = []
  credits : Counter.ok.addsOf t = []

/-- How a connection stands at the end. -/
def Settled (t : List (Event ServerSig)) : Prop := Starved t ∨ Untied t ∨ ∃ id p, Tied t id p

theorem Starved.append {t : List (Event ServerSig)} (hstarved : Starved t) (t' : List (Event ServerSig)) :
    Starved (t ++ t') := by
  obtain ⟨id, hid⟩ := hstarved
  exact ⟨id, hid.mono (List.subset_append_left _ _)⟩

theorem Tied.neutral {t t' : List (Event ServerSig)} {id : UInt32} {p : Nat} (htied : Tied t id p)
    (ht' : ∀ e ∈ t', Neutral e) : Tied (t ++ t') id p := by
  have hsummary := summary_append_neutral t ht'
  simp only [summary, Prod.mk.injEq] at hsummary
  obtain ⟨haccepted, hrecords, hcredits⟩ := hsummary
  exact
    { hello := by rw [helloId, haccepted]; exact htied.hello
      records := by rw [sensorsOf, haccepted, hrecords]; exact htied.records
      credits := by rw [sensorsOf, haccepted, hcredits]; exact htied.credits
      grounds := htied.grounds.mono (List.subset_append_left _ _) }

theorem Untied.neutral {t t' : List (Event ServerSig)} (huntied : Untied t) (ht' : ∀ e ∈ t', Neutral e) :
    Untied (t ++ t') := by
  have hsummary := summary_append_neutral t ht'
  simp only [summary, Prod.mk.injEq] at hsummary
  obtain ⟨haccepted, hrecords, hcredits⟩ := hsummary
  exact
    { sensors := by rw [sensorsOf, haccepted]; exact huntied.sensors
      records := by rw [hrecords]; exact huntied.records
      credits := by rw [hcredits]; exact huntied.credits }

theorem Settled.neutral {t t' : List (Event ServerSig)} (hsettled : Settled t) (ht' : ∀ e ∈ t', Neutral e) :
    Settled (t ++ t') := by
  rcases hsettled with hstarved | huntied | ⟨id, p, htied⟩
  · exact Or.inl (hstarved.append t')
  · exact Or.inr (Or.inl (huntied.neutral ht'))
  · exact Or.inr (Or.inr ⟨id, p, htied.neutral ht'⟩)

/-- One more accepted packet after the HELLO. -/
theorem Tied.accept {t turn : List (Event ServerSig)} {id : UInt32} {p : Nat} (htied : Tied t id p)
    {h : PlHeader} {records : List SensorRecord} {credits : List Nat}
    (hturn : summary turn = ([h], records, credits))
    (hrecords : records.map SensorRecord.deviceId = ([h].filter PlHeader.isSensor).map PlHeader.deviceId)
    (hcredits : credits = List.replicate ([h].filter PlHeader.isSensor).length p) : Tied (t ++ turn) id p := by
  have hsummary := summary_append t turn
  simp only [summary, Prod.mk.injEq] at hturn hsummary
  obtain ⟨haccepted, hrecs, hcreds⟩ := hsummary
  rw [hturn.1] at haccepted
  rw [hturn.2.1] at hrecs
  rw [hturn.2.2] at hcreds
  obtain ⟨hello, rest, hcons, hid⟩ : ∃ hello rest, acceptedHeaders t = hello :: rest ∧ hello.deviceId = id := by
    have h := htied.hello
    rw [helloId] at h
    cases hheaders : acceptedHeaders t with
    | nil =>
        rw [hheaders] at h
        cases h
    | cons hello rest =>
        rw [hheaders] at h
        exact ⟨hello, rest, rfl, Option.some.inj h⟩
  have hsensors : sensorsOf (t ++ turn) = sensorsOf t ++ [h].filter PlHeader.isSensor := by
    rw [sensorsOf, sensorsOf, haccepted, hcons, List.cons_append, List.tail_cons, List.tail_cons,
      List.filter_append]
  constructor
  · rw [helloId, haccepted, hcons]
    exact congrArg some hid
  · rw [hrecs, hsensors, List.map_append, List.map_append, htied.records, hrecords]
  · rw [hcreds, hsensors, htied.credits, hcredits, List.length_append, List.replicate_add]
  · exact htied.grounds.mono (List.subset_append_left _ _)

/-- The accounts of a worker, turn by turn. -/
def Tally (l : Locals) (t : List (Event ServerSig)) : Prop :=
  Starved t ∨ (l.state = .waitHello ∧ summary t = ([], [], [])) ∨
    (l.state ≠ .waitHello ∧ ∃ id p, l.dev = some p ∧ Tied t id p)

theorem Starved.tallied {t : List (Event ServerSig)} (hstarved : Starved t) (x : Turn) :
    After Tally Settled t x := by
  cases x with
  | inl l => exact Or.inl hstarved
  | inr why => exact Or.inl hstarved

theorem untied_of_summary {t : List (Event ServerSig)} {headers : List PlHeader}
    (hsummary : summary t = (headers, [], [])) (htail : headers.tail = []) : Untied t := by
  simp only [summary, Prod.mk.injEq] at hsummary
  refine ⟨?_, hsummary.2.1, hsummary.2.2⟩
  rw [sensorsOf, hsummary.1, htail]
  rfl

/-- A connection gets its device with the HELLO. -/
theorem tied_of_hello {t post : List (Event ServerSig)} {h : PlHeader} {p : Nat}
    (hsummary : summary t = ([h], [], [])) (hgrounds : Grounds post h.deviceId (some p)) (hsub : post ⊆ t) :
    Tied t h.deviceId p := by
  have huntied := untied_of_summary hsummary rfl
  simp only [summary, Prod.mk.injEq] at hsummary
  exact
    { hello := by rw [helloId, hsummary.1]; rfl
      records := by rw [huntied.records, huntied.sensors]; rfl
      credits := by rw [huntied.credits, huntied.sensors]; rfl
      grounds := hgrounds.mono hsub }

theorem tally_waiting {l : Locals} {t turn : List (Event ServerSig)} {x : Turn}
    (hstate : l.state = .waitHello) (hsummary : summary t = ([], [], [])) (hkind : TurnKind l turn x) :
    After Tally Settled (t ++ turn) x := by
  cases hkind with
  | idle hneutral hx =>
      have hsummary' := (summary_append_neutral t hneutral).trans hsummary
      cases x with
      | inl l' => exact Or.inr (Or.inl ⟨(hx l' rfl).2.mpr hstate, hsummary'⟩)
      | inr why => exact Or.inr (Or.inl (untied_of_summary hsummary' rfl))
  | @hello pre post h payload x _ hpre hpost hx =>
      have hturn := summary_accepted hpre hpost h payload
      have hsummary' : summary (t ++ (pre ++ ⟨.decided h (.accepted payload), ()⟩ :: post)) = ([h], [], []) := by
        simp only [summary, Prod.mk.injEq] at hsummary hturn
        rw [summary_append, hsummary.1, hsummary.2.1, hsummary.2.2, hturn.1, hturn.2.1, hturn.2.2]
        rfl
      cases x with
      | inr why => exact Or.inr (Or.inl (untied_of_summary hsummary' rfl))
      | inl l' =>
          obtain ⟨hstate', hgrounds⟩ := hx l' rfl
          have hsub : post ⊆ t ++ (pre ++ ⟨.decided h (.accepted payload), ()⟩ :: post) := by
            intro e he
            simp [he]
          cases hdev : l'.dev with
          | none =>
              rw [hdev] at hgrounds
              exact Or.inl ⟨h.deviceId, hgrounds.mono hsub⟩
          | some p =>
              rw [hdev] at hgrounds
              exact Or.inr (Or.inr ⟨hstate', h.deviceId, p, hdev, tied_of_hello hsummary' hgrounds hsub⟩)
  | sensor hactive => exact absurd hstate hactive
  | other hactive => exact absurd hstate hactive
  | crash hactive => exact absurd hstate hactive

theorem summary_stored {pre acks : List (Event ServerSig)} (hpre : ∀ e ∈ pre, Neutral e)
    (hacks : ∀ e ∈ acks, Neutral e) (h : PlHeader) (payload : List UInt8) (p : Nat) (s : SensorFields)
    (now : Int) (ns : UInt64) (ok : Bool) :
    summary (pre ++ ⟨.decided h (.accepted payload), ()⟩ :: (storeEvents h p s now ns ok ++ acks)) =
      ([h], [⟨h.deviceId, s.seq, s.temp, s.hum, ns⟩], [p]) := by
  have h₁ := summary_neutral hpre
  have h₂ := summary_append_neutral
    (⟨.decided h (.accepted payload), ()⟩ :: storeEvents h p s now ns ok) hacks
  rw [List.cons_append] at h₂
  simp only [summary, Prod.mk.injEq] at h₁ h₂
  rw [summary_append, h₁.1, h₁.2.1, h₁.2.2, h₂.1, h₂.2.1, h₂.2.2]
  rfl

theorem tally_active {l : Locals} {t turn : List (Event ServerSig)} {x : Turn} {id : UInt32} {p : Nat}
    (hstate : l.state ≠ .waitHello) (hdev : l.dev = some p) (htied : Tied t id p)
    (hkind : TurnKind l turn x) : After Tally Settled (t ++ turn) x := by
  cases hkind with
  | idle hneutral hx =>
      cases x with
      | inr why => exact Or.inr (Or.inr ⟨id, p, htied.neutral hneutral⟩)
      | inl l' =>
          obtain ⟨hdev', hstate'⟩ := hx l' rfl
          exact Or.inr (Or.inr ⟨fun h => hstate (hstate'.mp h), id, p, hdev'.trans hdev,
            htied.neutral hneutral⟩)
  | hello hwaiting => exact absurd hwaiting hstate
  | @sensor pre acks h payload q s now ns ok l' _ hq hpre hacks htype hdev' hstate' =>
      obtain rfl : q = p := Option.some.inj (hq.symm.trans hdev)
      have hturn := summary_stored hpre hacks h payload q s now ns ok
      refine Or.inr (Or.inr ⟨by rw [hstate']; exact hstate, id, q, hdev'.trans hdev,
        htied.accept hturn ?_ ?_⟩)
      · rw [List.filter_cons_of_pos htype]
        rfl
      · rw [List.filter_cons_of_pos htype]
        rfl
  | @other pre post h payload l' _ hpre hpost htype hdev' hstate' =>
      have hturn := summary_accepted hpre hpost h payload
      have hnone : [h].filter PlHeader.isSensor = [] := by simp [htype]
      exact Or.inr (Or.inr ⟨hstate', id, p, hdev'.trans hdev,
        htied.accept hturn (by rw [hnone]; rfl) (by rw [hnone]; rfl)⟩)
  | crash _ hnone =>
      rw [hnone] at hdev
      cases hdev

/-- Every finished connection is settled. -/
theorem worker_settled {cfg : Config} {payload : PayloadBuf} {t : List (Event ServerSig)} {why : ExitReason}
    (hpath : Loop.Path (clientWorker cfg) (.enter payload) t why) : Settled t := by
  refine worker_rule (J := Tally) (Or.inr (Or.inl ⟨rfl, rfl⟩)) ?_ ?_ hpath
  · intro l t turn x htally hturn
    have hkind := TurnKind.of_path hturn
    rcases htally with hstarved | ⟨hstate, hsummary⟩ | ⟨hstate, id, p, hdev, htied⟩
    · exact (hstarved.append turn).tallied x
    · exact tally_waiting hstate hsummary hkind
    · exact tally_active hstate hdev htied hkind
  · intro t t' hsettled hplain
    exact hsettled.neutral fun e he => (hplain e he).neutral

end PulseLink
