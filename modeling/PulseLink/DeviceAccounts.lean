import PulseLink.TableSink

/-! The accounts of a device under any interleaving of workers. A packet handled after the HELLO is owed to
`packets_ok`, to `packets_bad` or to neither, and the worker adds to the counter before it decides about the
next packet or leaves. So once all workers have left, the counters of a device are the numbers of packets
owed to them on the connections whose HELLO named it. -/

namespace PulseLink

/-! ### What a connection owes -/

/-- The HELLO a connection was opened with, if its first accepted packet was one. -/
def openingHello (t : List (Event ServerSig)) : Option PlHeader :=
  (acceptedHeaders t).head?.filter fun h => h.type = PktType.hello.code

/-- What happened after the first accepted packet. -/
def afterHello (t : List (Event ServerSig)) : List (Event ServerSig) :=
  (t.dropWhile fun e => (acceptedHeader e).isNone).tail

/-- The packets after the HELLO that are owed to a counter. -/
def Counter.owedIn (k : Counter) (t : List (Event ServerSig)) : Nat :=
  (afterHello t).countP fun e => owed e = some k.add

theorem acceptedHeaders_concat (t : List (Event ServerSig)) (e : Event ServerSig) :
    acceptedHeaders (t ++ [e]) = acceptedHeaders t ++ (acceptedHeader e).toList := by
  cases he : acceptedHeader e <;> simp [acceptedHeaders, he]

theorem dropWhile_eq_nil_iff_headers {t : List (Event ServerSig)} :
    (t.dropWhile fun e => (acceptedHeader e).isNone) = [] ↔ acceptedHeaders t = [] := by
  rw [List.dropWhile_eq_nil_iff, acceptedHeaders, List.filterMap_eq_nil_iff]
  simp only [Option.isNone_iff_eq_none]

theorem afterHello_before {t : List (Event ServerSig)} (ht : acceptedHeaders t = []) (e : Event ServerSig) :
    afterHello (t ++ [e]) = [] := by
  rw [afterHello, List.dropWhile_append, dropWhile_eq_nil_iff_headers.mpr ht, List.dropWhile_cons]
  split_ifs <;> rfl

theorem afterHello_after {t : List (Event ServerSig)} (ht : acceptedHeaders t ≠ []) (e : Event ServerSig) :
    afterHello (t ++ [e]) = afterHello t ++ [e] := by
  have hne := fun h => ht (dropWhile_eq_nil_iff_headers.mp h)
  rw [afterHello, afterHello, List.dropWhile_append, if_neg (by simpa using hne), List.tail_append_of_ne_nil hne]

theorem openingHello_after {t : List (Event ServerSig)} (ht : acceptedHeaders t ≠ []) (e : Event ServerSig) :
    openingHello (t ++ [e]) = openingHello t := by
  rw [openingHello, openingHello, acceptedHeaders_concat, List.head?_append_of_ne_nil _ ht]

theorem headers_ne_nil {t : List (Event ServerSig)} {h : PlHeader} (ht : openingHello t = some h) :
    acceptedHeaders t ≠ [] := by
  intro hnil
  rw [openingHello, hnil] at ht
  cases ht

namespace Counter

variable {k : Counter} {t : List (Event ServerSig)}

theorem owedIn_before (ht : acceptedHeaders t = []) (e : Event ServerSig) : k.owedIn (t ++ [e]) = 0 := by
  rw [owedIn, afterHello_before ht]
  rfl

theorem owedIn_after (ht : acceptedHeaders t ≠ []) (e : Event ServerSig) :
    k.owedIn (t ++ [e]) = k.owedIn t + if owed e = some k.add then 1 else 0 := by
  rw [owedIn, owedIn, afterHello_after ht, List.countP_append, List.countP_singleton]
  simp only [decide_eq_true_eq]

theorem addsOf_none {e : Event ServerSig} (he : k.addOf e = none) (t : List (Event ServerSig)) :
    k.addsOf (t ++ [e]) = k.addsOf t := by
  simp [addsOf, he]

end Counter

/-! ### The books of one connection -/

/-- The counter is one that packets are owed to. -/
def Counter.OfPackets (k : Counter) : Prop := k.add = .addOk ∨ k.add = .addBad

/-- A connection opened by `h` that has not handled a packet since. -/
structure JustOpened (k : Counter) (h : PlHeader) (t : List (Event ServerSig)) : Prop where
  hello : openingHello t = some h
  adds : k.addsOf t = []
  owed : k.owedIn t = 0

/-- What was added to the counter, in each stage: as much as was owed, up to an addition still due. -/
def Books (k : Counter) : Stage → List (Event ServerSig) → Prop
  | .waiting, t => acceptedHeaders t = [] ∧ k.addsOf t = []
  | .greeted h, t => JustOpened k h t
  | .granted h _ told, t => JustOpened k h t ∧ ∀ dev, told = some dev → Grounds t h.deviceId dev
  | .bound h _ dev, t => JustOpened k h t ∧ Grounds t h.deviceId dev
  | .serving dev due, t => ∃ h, openingHello t = some h ∧ Grounds t h.deviceId dev ∧
      ∀ p, dev = some p → ∃ n, k.addsOf t = List.replicate n p ∧
        k.owedIn t = n + if due = some k.add then 1 else 0
  | .refused todo, t => openingHello t = none ∧ acceptedHeaders t ≠ [] ∧ k.addsOf t = [] ∧
      ∃ h, todo <:+ refusal h

theorem Grounds.concat {t : List (Event ServerSig)} {id : UInt32} {dev : Option Nat} (h : Grounds t id dev)
    (e : Event ServerSig) : Grounds (t ++ [e]) id dev := h.mono (List.subset_append_left _ _)

/-- An event that neither adds nor is owed. -/
def Counter.Passive (k : Counter) (e : Event ServerSig) : Prop := k.addOf e = none ∧ owed e = none

theorem JustOpened.concat {k : Counter} {h : PlHeader} {t : List (Event ServerSig)} (ht : JustOpened k h t)
    {e : Event ServerSig} (he : k.Passive e) : JustOpened k h (t ++ [e]) := by
  have hne := headers_ne_nil ht.hello
  refine ⟨(openingHello_after hne e).trans ht.hello, (Counter.addsOf_none he.1 t).trans ht.adds, ?_⟩
  rw [Counter.owedIn_after hne, ht.owed, he.2, if_neg nofun]

theorem Aside.passive {e : Event ServerSig} (he : Aside e.op) (k : Counter) : k.Passive e := by
  obtain ⟨o, ans⟩ := e
  cases o <;> first | exact he.elim | exact ⟨rfl, rfl⟩

theorem Counter.OfPackets.passive_store {k : Counter} (hk : k.OfPackets) {p : Nat} {a : DevAtomic}
    (hok : a ≠ .addOk) (hbad : a ≠ .addBad) : k.Passive ⟨.device p a, ()⟩ := by
  refine ⟨if_neg ?_, rfl⟩
  rintro rfl
  exact hk.elim hok hbad

/-- What serving a packet does to the books. -/
theorem Books.serve {k : Counter} (hk : k.OfPackets) {dev : Option Nat} {due due' : Option DevAtomic}
    {e : Event ServerSig} {t : List (Event ServerSig)} (ht : Books k (.serving dev due) t)
    (hserves : Serves dev due e due') : Books k (.serving dev due') (t ++ [e]) := by
  obtain ⟨h, hhello, hgrounds, hbooks⟩ := ht
  have hne := headers_ne_nil hhello
  refine ⟨h, (openingHello_after hne e).trans hhello, hgrounds.concat e, ?_⟩
  rintro p rfl
  obtain ⟨n, hadds, howed⟩ := hbooks p rfl
  have hpassive : k.Passive e → ∃ n, k.addsOf (t ++ [e]) = List.replicate n p ∧
      k.owedIn (t ++ [e]) = n + if due = some k.add then 1 else 0 := by
    rintro ⟨hadd, hnone⟩
    refine ⟨n, (Counter.addsOf_none hadd t).trans hadds, ?_⟩
    rw [Counter.owedIn_after hne, howed, hnone, if_neg (nofun : none ≠ some k.add), Nat.add_zero]
  have hdecides : k.addOf e = none → due = none → ∃ n, k.addsOf (t ++ [e]) = List.replicate n p ∧
      k.owedIn (t ++ [e]) = n + if owed e = some k.add then 1 else 0 := by
    rintro hadd rfl
    refine ⟨n, (Counter.addsOf_none hadd t).trans hadds, ?_⟩
    rw [Counter.owedIn_after hne, howed, if_neg (nofun : none ≠ some k.add), Nat.add_zero]
  cases hserves with
  | aside _ he => exact hpassive (he.passive k)
  | store _ hdev hok hbad => exact hpassive (hk.passive_store hok hbad)
  | accept => exact hdecides rfl rfl
  | reject => exact hdecides rfl rfl
  | feed => exact hdecides rfl rfl
  | @count q a hdev ha =>
      cases hdev
      by_cases hadd : a = k.add
      · subst hadd
        refine ⟨n + 1, ?_, ?_⟩
        · rw [Counter.addsOf_append, hadds, List.replicate_succ']
          simp [Counter.addsOf, Counter.addOf_add]
        · rw [Counter.owedIn_after hne, howed, if_pos rfl, if_neg (nofun : none ≠ some k.add)]
          rfl
      · have hnone : k.addOf ⟨.device p a, ()⟩ = none := if_neg hadd
        refine ⟨n, (Counter.addsOf_none hnone t).trans hadds, ?_⟩
        rw [Counter.owedIn_after hne, howed, if_neg fun h => hadd (Option.some.inj h)]
        rfl

theorem Books.move {k : Counter} (hk : k.OfPackets) {st st' : Stage} {e : Event ServerSig}
    {t : List (Event ServerSig)} (ht : Books k st t) (hmove : Moves st e st') : Books k st' (t ++ [e]) := by
  cases hmove with
  | @wait e he =>
      refine ⟨(acceptedHeaders_waiting t he).trans ht.1, ?_⟩
      refine (Counter.addsOf_none ?_ t).trans ht.2
      obtain ⟨o, ans⟩ := e
      cases o <;> first | rfl | cases he
  | @greet h payload hpasses htype =>
      refine ⟨?_, (Counter.addsOf_none rfl t).trans ht.2, Counter.owedIn_before ht.1 _⟩
      rw [openingHello, acceptedHeaders_concat, ht.1]
      simp [acceptedHeader, htype]
  | @refuse h payload hpasses htype =>
      refine ⟨?_, ?_, (Counter.addsOf_none rfl t).trans ht.2, h, List.suffix_refl _⟩
      · rw [openingHello, acceptedHeaders_concat, ht.1]
        simp [acceptedHeader, htype]
      · rw [acceptedHeaders_concat, ht.1]
        exact List.cons_ne_nil _ _
  | grant h sessionId => exact ⟨JustOpened.concat ht ⟨rfl, rfl⟩, fun _ hnone => by cases hnone⟩
  | find h sessionId hit =>
      refine ⟨ht.1.concat ⟨rfl, rfl⟩, ?_⟩
      intro dev hdev
      obtain ⟨p, rfl, rfl⟩ := Option.map_eq_some_iff.mp hdev
      exact ⟨_, List.mem_append_right _ (List.mem_singleton_self _), rfl⟩
  | insert h sessionId r =>
      refine ⟨ht.1.concat ⟨rfl, rfl⟩, ?_⟩
      rintro dev hdev
      cases hdev
      cases r with
      | found p => exact ⟨_, List.mem_append_right _ (List.mem_singleton_self _), rfl⟩
      | inserted p => exact ⟨_, List.mem_append_right _ (List.mem_singleton_self _), rfl⟩
      | noMemory => exact ⟨sessionId, List.mem_append_right _ (List.mem_singleton_self _)⟩
  | bind h sessionId dev => exact ⟨ht.1.concat ⟨rfl, rfl⟩, (ht.2 dev rfl).concat _⟩
  | answer h sessionId dev sent =>
      obtain ⟨hopened, hgrounds⟩ := ht
      have hopened' := hopened.concat (e := ⟨.writeN (helloAckPacket h.deviceId sessionId), sent⟩) ⟨rfl, rfl⟩
      refine ⟨h, hopened'.hello, hgrounds.concat _, fun p _ => ⟨0, hopened'.adds, ?_⟩⟩
      rw [hopened'.owed, if_neg (by simp)]
  | serve hserves => exact ht.serve hk hserves
  | @leave o todo e he =>
      obtain ⟨hnone, hne, hadds, h, htodo⟩ := ht
      refine ⟨(openingHello_after hne _).trans hnone, ?_, ?_, h, (List.suffix_cons _ _).trans htodo⟩
      · rw [acceptedHeaders_concat]
        exact fun happ => hne (List.append_eq_nil_iff.mp happ).1
      · refine (Counter.addsOf_none ?_ t).trans hadds
        subst he
        have hmem := htodo.subset List.mem_cons_self
        obtain ⟨o, ans⟩ := e
        cases o with
        | device p a => simp [refusal] at hmem
        | _ => rfl

/-- How a connection whose worker has left stands: its HELLO got no device, it had no HELLO and added nothing,
or it added to one device exactly what was owed. -/
theorem left_books {k : Counter} (hk : k.OfPackets) {why : ExitReason} {st : Stage} {t : List (Event ServerSig)}
    (haccepts : Monitor.Accepts Stage.next .waiting t st) (hleft : LeftIn why st) :
    Starved t ∨ (openingHello t = none ∧ k.addsOf t = []) ∨
      ∃ h p, openingHello t = some h ∧ Grounds t h.deviceId (some p) ∧
        k.addsOf t = List.replicate (k.owedIn t) p := by
  have hstart : Books k .waiting [] := ⟨rfl, rfl⟩
  have hbooks : Books k st t :=
    haccepts.invariant (P := Books k) (fun _ _ _ _ ht hnext => ht.move hk (moves_of_next hnext)) hstart
  rcases hleft with rfl | ⟨dev, rfl⟩ | ⟨-, rfl⟩
  · refine Or.inr (Or.inl ⟨?_, hbooks.2⟩)
    rw [openingHello, hbooks.1]
    rfl
  · obtain ⟨h, hhello, hgrounds, hdevice⟩ := hbooks
    cases dev with
    | none => exact Or.inl ⟨h.deviceId, hgrounds⟩
    | some p =>
        obtain ⟨n, hadds, howed⟩ := hdevice p rfl
        rw [if_neg nofun, Nat.add_zero] at howed
        exact Or.inr (Or.inr ⟨h, p, hhello, hgrounds, by rw [hadds, howed]⟩)
  · exact Or.inr (Or.inl ⟨hbooks.1, hbooks.2.2.1⟩)

/-! ### All connections -/

/-- A SENSOR packet that passed the framing checks. -/
def isSensorPacket : Event ServerSig → Bool
  | ⟨.decided h (.accepted _), _⟩ => h.type = PktType.sensor.code
  | _ => false

/-- A rejection: of a packet by its magic, version, length or checksum, of a packet by its type, or of the
chunk in a FRAME packet. -/
def isRejection : Event ServerSig → Bool
  | ⟨.decided _ (.rejected _), _⟩ => true
  | ⟨.decided h (.accepted _), _⟩ =>
      h.type ∉ [PktType.sensor.code, PktType.frame.code, PktType.hello.code]
  | ⟨.fed .malformed, _⟩ => true
  | _ => false

/-- The events of one kind after the HELLO, if it named the id. -/
def countFrom (kind : Event ServerSig → Bool) (id : UInt32) (t : List (Event ServerSig)) : Nat :=
  if (openingHello t).map PlHeader.deviceId = some id then (afterHello t).countP kind else 0

theorem isSensorPacket_iff (e : Event ServerSig) : isSensorPacket e = true ↔ owed e = some Counter.ok.add := by
  obtain ⟨o, ans⟩ := e
  cases o with
  | decided h v =>
      cases v with
      | rejected e => exact ⟨(fun h => by cases h), fun h => by cases h⟩
      | accepted payload =>
          simp only [isSensorPacket, owed, Counter.ok, decide_eq_true_eq]
          split_ifs with hsensor hother <;> simp [hsensor]
  | fed r => cases r <;> exact ⟨(fun h => by cases h), fun h => by cases h⟩
  | _ => exact ⟨(fun h => by cases h), fun h => by cases h⟩

theorem isRejection_iff (e : Event ServerSig) : isRejection e = true ↔ owed e = some Counter.bad.add := by
  obtain ⟨o, ans⟩ := e
  cases o with
  | decided h v =>
      cases v with
      | rejected e => exact ⟨fun _ => rfl, fun _ => rfl⟩
      | accepted payload =>
          simp only [isRejection, owed, Counter.bad, decide_eq_true_eq, List.mem_cons, List.not_mem_nil, or_false]
          by_cases hsensor : h.type = PktType.sensor.code
          · simp [hsensor]
          by_cases hother : h.type = PktType.frame.code ∨ h.type = PktType.hello.code
          · simp [hsensor, hother]
          · simp [hsensor, hother]
  | fed r =>
      cases r with
      | malformed => exact ⟨fun _ => rfl, fun _ => rfl⟩
      | more => exact ⟨(fun h => by cases h), fun h => by cases h⟩
      | complete img => exact ⟨(fun h => by cases h), fun h => by cases h⟩
  | _ => exact ⟨(fun h => by cases h), fun h => by cases h⟩

section Sums

variable {ι : Type} [Fintype ι] [DecidableEq ι]

/-- One counter of a device, once all workers have left. -/
theorem counter_accounts {k : Counter} (hk : k.OfPackets) {kind : Event ServerSig → Bool}
    (hkind : ∀ e, kind e = true ↔ owed e = some k.add) {cfg : Config} {payloads : ι → PayloadBuf}
    {conns : ι → Conn} {ctx : ServerCtx} (hwf : ctx.devices.WellFormed)
    (hcallocs : ∀ ok ∈ ctx.choices.callocs, ok = true) {schedule : List ι}
    (hdone : ∀ i, ∃ why, (workerPool cfg payloads conns ctx schedule).threads i = .done why) (id : UInt32) :
    k.valueOf (workerPool cfg payloads conns ctx schedule).shared.devices id = k.valueOf ctx.devices id +
      UInt64.ofNat (∑ i, countFrom kind id
        (Pool.eventsOf (workerPool cfg payloads conns ctx schedule).log i)) := by
  have hcounted : Counted k ctx.devices (workerPool cfg payloads conns ctx schedule).log _ :=
    workerPool_counted k hwf hcallocs schedule
  have hkinds : ∀ t, (afterHello t).countP kind = k.owedIn t := by
    intro t
    refine List.countP_congr fun e _ => ?_
    rw [hkind, decide_eq_true_eq]
  rw [hcounted.count id]
  congr 2
  simp only [countFrom, hkinds]
  refine hcounted.added_eq_sum _ (fun i => k.owedIn _) (fun i => ?_) id
  obtain ⟨why, hwhy⟩ := hdone i
  obtain ⟨st, haccepts, htracks⟩ := workerPool_accepts cfg payloads conns ctx schedule i
  rw [hwhy] at htracks
  rcases left_books hk haccepts htracks with ⟨id', sid, hstarved⟩ | ⟨hnone, hnil⟩ | ⟨h, p, hhello, hgrounds, hadds⟩
  · exact absurd rfl (hcounted.table.memory _ (Pool.mem_eventsOf.mp hstarved) id' sid)
  · exact Or.inl ⟨Or.inl (by rw [hnone]; rfl), hnil⟩
  · exact Or.inr ⟨h.deviceId, p, by rw [hhello]; rfl, hgrounds, hadds⟩

/-- **The accounts of every device.** Under any interleaving of workers on any streams, with allocations
succeeding, once all workers have left: `packets_ok` of a device has grown by the number of SENSOR packets
accepted after the HELLO on the connections whose HELLO named it, and `packets_bad` by the number of
rejections after the HELLO on these connections, the one that closes a connection included (each modulo the
width of the counter). From an empty table both start at 0. -/
theorem device_accounts (cfg : Config) (payloads : ι → PayloadBuf) (conns : ι → Conn) {ctx : ServerCtx}
    (hwf : ctx.devices.WellFormed) (hcallocs : ∀ ok ∈ ctx.choices.callocs, ok = true) {schedule : List ι}
    (hdone : ∀ i, ∃ why, (workerPool cfg payloads conns ctx schedule).threads i = .done why) (id : UInt32) :
    let pool := workerPool cfg payloads conns ctx schedule
    pool.shared.devices.okOf id = ctx.devices.okOf id +
      UInt64.ofNat (∑ i, countFrom isSensorPacket id (Pool.eventsOf pool.log i)) ∧
    pool.shared.devices.badOf id = ctx.devices.badOf id +
      UInt64.ofNat (∑ i, countFrom isRejection id (Pool.eventsOf pool.log i)) := by
  intro pool
  have hok : Counter.ok.OfPackets := Or.inl rfl
  have hbad : Counter.bad.OfPackets := Or.inr rfl
  exact ⟨counter_accounts hok isSensorPacket_iff hwf hcallocs hdone id,
    counter_accounts hbad isRejection_iff hwf hcallocs hdone id⟩

end Sums

/-- Two connections of device 7: one brings a reading and a packet of an unknown type, the other three
headers of zeros, the last of which closes it. -/
def sharedStreams : Bool → List UInt8
  | false => packetBytes PktType.hello.code 7 (helloPayload 1 0) ++
      (sensorStream [(7, oneReading)] ++ packetBytes 9 7 [])
  | true => packetBytes PktType.hello.code 7 (helloPayload 1 0) ++ List.replicate 36 0

/-- Their two workers, taking turns until both have left. -/
def sharedWorkers : Pool ServerSig Bool WorkerPc ExitReason Conn ServerCtx :=
  workerPool ⟨.little, none⟩ (fun _ => zeroPayload) (fun i => scripted (unread (sharedStreams i) []))
    freshServer (List.replicate 50 [false, true]).flatten

theorem device_accounts_shared :
    sharedWorkers.shared.devices.okOf 7 = 0 + UInt64.ofNat 1 ∧
      sharedWorkers.shared.devices.badOf 7 = 0 + UInt64.ofNat 4 := by
  have hdone : ∀ i, ∃ why, sharedWorkers.threads i = .done why := by
    intro i
    refine Thread.finished_iff.mp ?_
    revert i
    decide +kernel
  have hsensors : ∑ i, countFrom isSensorPacket 7 (Pool.eventsOf sharedWorkers.log i) = 1 := by decide +kernel
  have hrejected : ∑ i, countFrom isRejection 7 (Pool.eventsOf sharedWorkers.log i) = 4 := by decide +kernel
  have hcallocs : ∀ ok ∈ freshServer.choices.callocs, ok = true := by simp [freshServer]
  rw [← hsensors, ← hrejected]
  rw [sharedWorkers] at hdone ⊢
  exact device_accounts _ _ _ DeviceTable.wellFormed_init hcallocs hdone 7

end PulseLink
