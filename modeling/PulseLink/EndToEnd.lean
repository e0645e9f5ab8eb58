import PulseLink.LineRuns
import PulseLink.Uplink

/-! From the sensor to the sink. The firmware cuts at most the last packet of a connection, the network may lose the
end of what was written, and the server takes whole packets only. The device sends a sample every two seconds, about
as often as a `recv` of the server times out, so timeouts between its packets are the rule. Put together: whatever
order the tasks of the firmware and the threads of the server take their steps in, the records passed to the sink for
a connection of the device are its readings, from the first on, in order and each once. -/

namespace PulseLink

open Bytes Proc

/-! ### What may be left of a stream -/

theorem samples_take (rs : List Reading) (r : Reading) {n : Nat} (hn : n < 28) (m : Nat) :
    ∃ k r' n', n' < 28 ∧ (rs.flatMap sensorPacket ++ (sensorPacket r).take n).take m =
      (rs.take k).flatMap sensorPacket ++ (sensorPacket r').take n' := by
  induction rs generalizing m with
  | nil =>
      refine ⟨0, r, min m n, by omega, ?_⟩
      rw [List.flatMap_nil, List.nil_append, List.take_take, List.take_nil, List.flatMap_nil, List.nil_append]
  | cons r₀ rs ih =>
      rw [List.flatMap_cons, List.append_assoc]
      by_cases hm : m < 28
      · refine ⟨0, r₀, m, hm, ?_⟩
        rw [List.take_append_of_le_length (by rw [length_sensorPacket]; omega)]
        rfl
      · obtain ⟨k, r', n', hn', htake⟩ := ih (m - 28)
        refine ⟨k + 1, r', n', hn', ?_⟩
        rw [List.take_append, length_sensorPacket, List.take_of_length_le (by rw [length_sensorPacket]; omega), htake,
          List.take_succ_cons, List.flatMap_cons, List.append_assoc]

/-- **What arrives of a stream** carries the first of its samples. -/
theorem CarriesSamples.shorter {bs bs' : List UInt8} {rs : List Reading} (hcarries : CarriesSamples bs rs)
    (hle : bs' <+: bs) : ∃ k, CarriesSamples bs' (rs.take k) := by
  have htake := List.prefix_iff_eq_take.mp hle
  generalize bs'.length = m at htake
  subst htake
  cases hcarries with
  | @hello n hn =>
      refine ⟨0, ?_⟩
      rw [List.take_take]
      exact .hello (by omega)
  | @samples _ r n hn =>
      rw [wholeStream, List.append_assoc, List.take_append, length_helloPacket]
      by_cases hm : m < 20
      · refine ⟨0, ?_⟩
        rw [show m - 20 = 0 by omega, List.take_zero, List.append_nil]
        exact .hello hm
      · obtain ⟨k, r', n', hn', hsamples⟩ := samples_take rs r hn (m - 20)
        refine ⟨k, ?_⟩
        rw [List.take_of_length_le (by rw [length_helloPacket]; omega), hsamples, ← List.append_assoc]
        exact .samples _ r' hn'

/-! ### Timeouts on the line -/

/-- The bytes among what arrives. -/
def bytesIn (as : List Arrival) : List UInt8 :=
  as.filterMap fun a =>
    match a with
    | .byte b => some b
    | _ => none

theorem bytesIn_append (as as' : List Arrival) : bytesIn (as ++ as') = bytesIn as ++ bytesIn as' :=
  List.filterMap_append

theorem bytesIn_bytes (bs : List UInt8) : bytesIn (bs.map .byte) = bs := by
  rw [bytesIn, List.filterMap_map]
  exact List.filterMap_some

theorem bytesIn_arrivals (script : List Recv) : bytesIn (arrivals script) = bytesOf script := by
  induction script with
  | nil => rfl
  | cons r script ih =>
      cases r with
      | data b bs => rw [arrivals, bytesIn_append, bytesIn_bytes, ih, bytesOf]
      | eintr => exact ih
      | eof | eagain | error => exact ih

/-- Where a packet of the device begins: a HELLO has 20 bytes, and each sample 28. -/
def packetStart (k : Nat) : Bool := k = 0 || (20 ≤ k && (k - 20) % 28 = 0)

/-- Nothing but bytes and timeouts arrives, and the timeouts fall between packets. The number is that of the bytes
before. -/
def timeoutsBetween : Nat → List Arrival → Bool
  | _, [] => true
  | k, .byte _ :: as => timeoutsBetween (k + 1) as
  | k, .eagain :: as => packetStart k && timeoutsBetween k as
  | _, .eof :: _ => false
  | _, .error :: _ => false

/-- Whole packets, and then some bytes of another one, with timeouts before any of them. -/
inductive Paced : List (List UInt8) → List UInt8 → List Arrival → Prop where
  | last (cut : List UInt8) : Paced [] cut (cut.map .byte)
  | timeout {ps : List (List UInt8)} {cut : List UInt8} {as : List Arrival} (hpaced : Paced ps cut as) :
      Paced ps cut (.eagain :: as)
  | packet (p : List UInt8) {ps : List (List UInt8)} {cut : List UInt8} {as : List Arrival}
      (hpaced : Paced ps cut as) : Paced (p :: ps) cut (p.map .byte ++ as)

/-- The packets begin where packets of the device begin, from `k` on, and nowhere else. -/
def PacketsFrom : Nat → List (List UInt8) → List UInt8 → Prop
  | k, [], cut => ∀ j, 0 < j → j ≤ cut.length → packetStart (k + j) = false
  | k, p :: ps, cut =>
      p ≠ [] ∧ (∀ j, 0 < j → j < p.length → packetStart (k + j) = false) ∧ PacketsFrom (k + p.length) ps cut

/-- Bytes between which no packet begins arrive without a timeout. -/
theorem arrived_together {bs rest : List UInt8} {k : Nat} {as : List Arrival}
    (hinside : ∀ j < bs.length, packetStart (k + j) = false) (hbetween : timeoutsBetween k as = true)
    (hbytes : bytesIn as = bs ++ rest) :
    ∃ as', as = bs.map .byte ++ as' ∧ timeoutsBetween (k + bs.length) as' = true ∧ bytesIn as' = rest := by
  induction bs generalizing k as with
  | nil => exact ⟨as, rfl, hbetween, hbytes⟩
  | cons b bs ih =>
      cases as with
      | nil => cases hbytes
      | cons a as =>
          cases a with
          | byte b' =>
              obtain ⟨rfl, hbytes'⟩ := List.cons.inj hbytes
              have hinside' : ∀ j < bs.length, packetStart (k + 1 + j) = false := by
                intro j hj
                rw [Nat.add_assoc, Nat.add_comm 1 j]
                exact hinside (j + 1) (Nat.succ_lt_succ hj)
              obtain ⟨as', rfl, hbetween', hrest⟩ := ih hinside' hbetween hbytes'
              refine ⟨as', rfl, ?_, hrest⟩
              rwa [List.length_cons, Nat.add_comm bs.length 1, ← Nat.add_assoc]
          | eagain =>
              have hstart : packetStart k = false := hinside 0 (Nat.succ_pos _)
              rw [timeoutsBetween, hstart] at hbetween
              cases hbetween
          | eof => cases hbetween
          | error => cases hbetween

/-- What arrives of whole packets and a part of one, if the timeouts fall between packets. -/
theorem paced_of_packetsFrom {ps : List (List UInt8)} {cut : List UInt8} {k : Nat} {as : List Arrival}
    (hfrom : PacketsFrom k ps cut) (hbetween : timeoutsBetween k as = true)
    (hbytes : bytesIn as = ps.flatten ++ cut) : Paced ps cut as := by
  induction hn : as.length using Nat.strong_induction_on generalizing as k ps with
  | _ n ih =>
  subst hn
  cases as with
  | nil =>
      cases ps with
      | nil =>
          obtain rfl : [] = cut := hbytes
          exact .last []
      | cons p ps => exact absurd (List.append_eq_nil_iff.mp (List.append_eq_nil_iff.mp hbytes.symm).1).1 hfrom.1
  | cons a as =>
      cases a with
      | eof => cases hbetween
      | error => cases hbetween
      | eagain =>
          rw [timeoutsBetween, Bool.and_eq_true] at hbetween
          exact .timeout (ih as.length (Nat.lt_succ_self _) hfrom hbetween.2 hbytes rfl)
      | byte b =>
          cases ps with
          | nil =>
              obtain rfl : b :: bytesIn as = cut := hbytes
              have hinside : ∀ j < (bytesIn as).length, packetStart (k + 1 + j) = false := by
                intro j hj
                rw [Nat.add_assoc, Nat.add_comm 1 j]
                exact hfrom (j + 1) (Nat.succ_pos _) (Nat.succ_le_succ (Nat.le_of_lt hj))
              obtain ⟨as', has, hbetween', hrest⟩ := arrived_together hinside hbetween (List.append_nil _).symm
              have hnone : as' = [] := by
                cases as' with
                | nil => rfl
                | cons a' as' =>
                    cases a' with
                    | byte b' => cases hrest
                    | eof => cases hbetween'
                    | error => cases hbetween'
                    | eagain =>
                        -- no packet begins right behind the cut
                        have hend := hfrom ((bytesIn as).length + 1) (Nat.succ_pos _) (Nat.le_refl _)
                        rw [Nat.add_comm _ 1, ← Nat.add_assoc] at hend
                        rw [timeoutsBetween, hend] at hbetween'
                        cases hbetween'
              rw [hnone, List.append_nil] at has
              have hlast := Paced.last (b :: bytesIn as)
              rwa [List.map_cons, ← has] at hlast
          | cons p ps =>
              obtain ⟨hne, hstarts, hrest⟩ := hfrom
              obtain ⟨b', q, rfl⟩ := List.exists_cons_of_ne_nil hne
              rw [List.flatten_cons, List.append_assoc] at hbytes
              obtain ⟨rfl, hbytes'⟩ := List.cons.inj hbytes
              have hinside : ∀ j < q.length, packetStart (k + 1 + j) = false := by
                intro j hj
                rw [Nat.add_assoc, Nat.add_comm 1 j]
                exact hstarts (j + 1) (Nat.succ_pos _) (Nat.succ_lt_succ hj)
              obtain ⟨as', rfl, hbetween', hafter⟩ := arrived_together hinside hbetween hbytes'
              have hlt : as'.length < (Arrival.byte b :: (q.map .byte ++ as')).length := by
                rw [List.length_cons, List.length_append]
                omega
              rw [Nat.add_assoc, Nat.add_comm 1 q.length] at hbetween'
              exact .packet (b :: q) (ih as'.length hlt hrest hbetween' hafter rfl)

theorem packetsFrom_samples (j : Nat) (later : List Reading) (r : Reading) {n : Nat} (hn : n < 28) :
    PacketsFrom (20 + 28 * j) (later.map sensorPacket) ((sensorPacket r).take n) := by
  have hinside : ∀ j i, 0 < i → i < 28 → packetStart (20 + 28 * j + i) = false := by
    intro j i hpos hlt
    simp [packetStart]
    omega
  induction later generalizing j with
  | nil =>
      intro i hpos hle
      rw [List.length_take] at hle
      exact hinside j i hpos (by omega)
  | cons r₀ later ih =>
      refine ⟨fun hnil => ?_, fun i hpos hlt => hinside j i hpos (by rwa [length_sensorPacket] at hlt), ?_⟩
      · have hlen := length_sensorPacket r₀
        rw [hnil] at hlen
        cases hlen
      · rw [length_sensorPacket, Nat.add_assoc, ← Nat.mul_succ]
        exact ih (j + 1)

theorem packetStart_hello {i : Nat} (hpos : 0 < i) (hlt : i < 20) : packetStart (0 + i) = false := by
  simp [packetStart]
  omega

theorem packetsFrom_hello {n : Nat} (hn : n < 20) : PacketsFrom 0 [] (helloPacket.take n) := by
  intro i hpos hle
  rw [List.length_take] at hle
  exact packetStart_hello hpos (by omega)

theorem packetsFrom_stream (later : List Reading) (r : Reading) {n : Nat} (hn : n < 28) :
    PacketsFrom 0 (helloPacket :: later.map sensorPacket) ((sensorPacket r).take n) := by
  refine ⟨fun hnil => ?_, fun i hpos hlt => packetStart_hello hpos (by rwa [length_helloPacket] at hlt), ?_⟩
  · have hlen := length_helloPacket
    rw [hnil] at hlen
    cases hlen
  · rw [length_helloPacket]
    exact packetsFrom_samples 0 later r hn

/-- After `ticks` timeouts in a row, a worker does not come to the last it waits for before something else arrives. -/
def Patient (ticks : Nat) (as : List Arrival) : Prop :=
  ¬ List.replicate (DEAD_PEER_S / WORKER_TICK_S) .eagain <:+: List.replicate ticks .eagain ++ as

section Patience

variable {ticks : Nat} {as as' : List Arrival}

theorem Patient.wait (hpatient : Patient ticks (.eagain :: as)) : Patient (ticks + 1) as := by
  rw [Patient, List.replicate_succ', List.append_assoc]
  exact hpatient

theorem Patient.rest (hpatient : Patient ticks (as ++ as')) : Patient 0 as' := by
  intro hpart
  refine hpatient (hpart.trans ?_)
  rw [← List.append_assoc]
  exact (List.suffix_append _ as').isInfix

theorem Patient.early (hpatient : Patient ticks (.eagain :: as)) :
    (ticks + 1) * WORKER_TICK_S < DEAD_PEER_S := by
  by_contra hlate
  rw [WORKER_TICK_S, DEAD_PEER_S] at hlate
  refine hpatient.wait (List.IsPrefix.isInfix (List.IsPrefix.trans ?_ (List.prefix_append _ as)))
  rw [List.prefix_replicate_iff, List.length_replicate]
  exact ⟨show 15 ≤ ticks + 1 by omega, rfl⟩

end Patience

/-! ### A worker on a line from the device -/

/-- What a record keeps of a reading. -/
abbrev Stored := UInt32 × UInt32 × Int32 × Int32

/-- The records passed to the sink. -/
def storedOf (t : List (Event ServerSig)) : List Stored :=
  (recordsOf t).map fun rec => (rec.deviceId, rec.seq, rec.temperature, rec.humidity)

theorem storedOf_append (t t' : List (Event ServerSig)) : storedOf (t ++ t') = storedOf t ++ storedOf t' := by
  rw [storedOf, recordsOf_append, List.map_append]
  rfl

def asStored (r : Reading) : Stored := (DEVICE_ID, r.seq, r.temperature, r.humidity)

/-- What the line still holds for a worker: the readings `later`. Where there are any, and `few` is granted, the worker
is not kept waiting too long for them. -/
inductive Awaits (few : Prop) (l : Locals) : List Reading → List Arrival → Prop where
  | hello {as : List Arrival} {n : Nat} (hstate : l.state = .waitHello) (hn : n < 20)
      (hpaced : Paced [] (helloPacket.take n) as) : Awaits few l [] as
  | stream {later : List Reading} {r : Reading} {as : List Arrival} {n : Nat} (hstate : l.state = .waitHello)
      (hn : n < 28) (hpaced : Paced (helloPacket :: later.map sensorPacket) ((sensorPacket r).take n) as)
      (hfew : few → Patient l.idleTicks as) : Awaits few l later as
  | samples {later : List Reading} {r : Reading} {as : List Arrival} {n : Nat} (hstate : l.state = .active)
      (hn : n < 28) (hpaced : Paced (later.map sensorPacket) ((sensorPacket r).take n) as)
      (hfew : few → Patient l.idleTicks as) : Awaits few l later as
  | nothing (hstate : l.state ≠ .closing) : Awaits few l [] []

/-- The readings `rs` are those stored and those to come. -/
def Delivering (few : Prop) (rs : List Reading) (l : Locals) (t : List (Event ServerSig)) (line : Line) : Prop :=
  ∃ before later, rs = before ++ later ∧ storedOf t = before.map asStored ∧
    Awaits few l later (arrivals line.script)

/-- The records are the first of the readings, and all of them if the line has brought everything. -/
def Delivered (few : Prop) (rs : List Reading) (why : ExitReason) (t : List (Event ServerSig)) : Prop :=
  storedOf t <+: rs.map asStored ∧ (why ∈ peerGone → (why = .idle → few) → storedOf t = rs.map asStored)

/-- What a turn makes of it. -/
def DeliveringOn (few : Prop) (rs : List Reading) (t : List (Event ServerSig)) (line : Line) : Turn → Prop
  | .inl l => Delivering few rs l t line
  | .inr why => Delivered few rs why t

section Turn

variable {few : Prop} {cfg : Config} {rs before later : List Reading} {l : Locals} {t turn : List (Event ServerSig)}
  {x : Turn} {line line' : Line}

theorem storedOf_silent (hstored : storedOf t = before.map asStored) (hrecords : recordsOf turn = []) :
    storedOf (t ++ turn) = before.map asStored := by
  rw [storedOf_append, hstored, storedOf, hrecords, List.map_nil, List.append_nil]

/-- A worker that leaves with readings still to come. -/
theorem delivered_early (hrs : rs = before ++ later) (hstored : storedOf (t ++ turn) = before.map asStored)
    {why : ExitReason} (hwhy : why ∈ peerGone → (why = .idle → few) → later = []) :
    Delivered few rs why (t ++ turn) := by
  rw [Delivered, hstored, hrs, List.map_append]
  refine ⟨List.prefix_append _ _, fun hgone hidle => ?_⟩
  rw [hwhy hgone hidle, List.map_nil, List.append_nil]

/-- A timeout. -/
theorem delivers_timeout (hrs : rs = before ++ later) (hstored : storedOf t = before.map asStored)
    (hpath : (clientTurn cfg l).Path turn x) (hstate : l.state ≠ .closing)
    (haccepts : lineMonitor.Accepts line turn line') {as : List Arrival}
    (harrives : arrivals line.script = .eagain :: as)
    (hearly : few → later = [] ∨ (l.idleTicks + 1) * WORKER_TICK_S < DEAD_PEER_S)
    (hawaits : Awaits few { l with idleTicks := l.idleTicks + 1 } later as) :
    DeliveringOn few rs (t ++ turn) line' x := by
  obtain ⟨hrecords, rfl | ⟨rfl, hlate⟩ | ⟨rfl, hrest⟩⟩ := turn_waits hpath hstate haccepts harrives
  · exact delivered_early hrs (storedOf_silent hstored hrecords) fun hgone => absurd hgone (by decide)
  · refine delivered_early hrs (storedOf_silent hstored hrecords) fun _ hidle => ?_
    exact (hearly (hidle rfl)).resolve_right (Nat.not_lt.mpr hlate)
  · refine ⟨before, later, hrs, storedOf_silent hstored hrecords, ?_⟩
    rw [hrest]
    exact hawaits

/-- Less than a packet is left. -/
theorem delivers_short (hrs : rs = before ++ []) (hstored : storedOf t = before.map asStored)
    (hpath : (clientTurn cfg l).Path turn x) (hstate : l.state ≠ .closing)
    (haccepts : lineMonitor.Accepts line turn line') {type : UInt8} {payload : List UInt8}
    (hlen : payload.length ≤ 1100) {n : Nat} (hn : n < PL_HDR_SIZE + payload.length)
    (harrives : arrivals line.script = ((packetBytes type DEVICE_ID payload).take n).map .byte) :
    DeliveringOn few rs (t ++ turn) line' x := by
  obtain ⟨hrecords, ⟨l', rfl, hsame, hempty⟩ | ⟨why, rfl, -⟩⟩ := turn_short hpath hstate haccepts hlen hn harrives
  · refine ⟨before, [], hrs, storedOf_silent hstored hrecords, ?_⟩
    rw [hempty]
    exact .nothing (by rwa [hsame])
  · exact delivered_early hrs (storedOf_silent hstored hrecords) fun _ _ => rfl

/-- The HELLO is taken, and nothing is stored for it. -/
theorem delivers_hello (hrs : rs = before ++ later) (hstored : storedOf t = before.map asStored)
    (hpath : (clientTurn cfg l).Path turn x) (hstate : l.state = .waitHello)
    (haccepts : lineMonitor.Accepts line turn line') {r : Reading} {n : Nat} (hn : n < 28) {as : List Arrival}
    (hpaced : Paced (later.map sensorPacket) ((sensorPacket r).take n) as) (hfew : few → Patient 0 as)
    (harrives : arrivals line.script = helloPacket.map .byte ++ as) : DeliveringOn few rs (t ++ turn) line' x := by
  have hopen : l.state ≠ .closing := by
    rw [hstate]
    decide
  rw [helloPacket_eq] at harrives
  rcases turn_takes hpath hopen haccepts (by decide) (by decide) harrives with
    ⟨rfl, hrecords⟩ | ⟨t', hrecords, hdispatch, hrest⟩
  · exact delivered_early hrs (storedOf_silent hstored hrecords) fun hgone => absurd hgone (by decide)
  rw [dispatch_hello cfg (l := l.received (helloPayload FW_VERSION CAPABILITIES)) hstate] at hdispatch
  rcases handleHello_path hdispatch with ⟨htype, -⟩ | ⟨sid, dev, call, rest, -, rfl, hcall, hreply, hx⟩
  · exact absurd rfl htype
  have hnone : recordsOf turn = [] := by
    rw [hrecords]
    refine recordsOf_silent ?_
    intro e he
    rcases List.mem_cons.mp he with rfl | he
    · trivial
    rcases List.mem_append.mp he with he | he
    · have hlooks := (dtGetOrCreate_looksUp _ _).path hcall |>.1 e he
      obtain ⟨o, ans⟩ := e
      cases o <;> first | exact hlooks.elim | trivial
    · exact (hreply e he).silent
  rcases hx with rfl | rfl
  · exact delivered_early hrs (storedOf_silent hstored hnone) fun hgone => absurd hgone (by decide)
  · refine ⟨before, later, hrs, storedOf_silent hstored hnone, ?_⟩
    rw [hrest]
    exact .samples rfl hn hpaced hfew

/-- A reading is taken and stored. -/
theorem delivers_sample {r₀ : Reading} (hrs : rs = before ++ r₀ :: later) (hstored : storedOf t = before.map asStored)
    (hpath : (clientTurn cfg l).Path turn x) (hstate : l.state = .active)
    (haccepts : lineMonitor.Accepts line turn line') {r : Reading} {n : Nat} (hn : n < 28) {as : List Arrival}
    (hpaced : Paced (later.map sensorPacket) ((sensorPacket r).take n) as) (hfew : few → Patient 0 as)
    (harrives : arrivals line.script = (sensorPacket r₀).map .byte ++ as) :
    DeliveringOn few rs (t ++ turn) line' x := by
  have hopen : l.state ≠ .closing := by
    rw [hstate]
    decide
  rw [sensorPacket_eq] at harrives
  have hpayload : sensorPayload r₀ ≠ [] := List.cons_ne_nil _ _
  have hlen : (sensorPayload r₀).length ≤ 1100 := show 16 ≤ 1100 by decide
  rcases turn_takes hpath hopen haccepts hpayload hlen harrives with
    ⟨rfl, hrecords⟩ | ⟨t', hrecords, hdispatch, hrest⟩
  · exact delivered_early hrs (storedOf_silent hstored hrecords) fun hgone => absurd hgone (by decide)
  rw [dispatch_sensor cfg (l := l.received (sensorPayload r₀)) hstate rfl] at hdispatch
  rcases handleSensor_path hdispatch with ⟨-, rfl, rfl⟩ | ⟨p, now, ns, ok, acks, -, rfl, rfl, hacks⟩
  · exact delivered_early hrs (storedOf_silent hstored hrecords) fun hgone => absurd hgone (by decide)
  have hfields : readSensor cfg (l.received (sensorPayload r₀)).payload.bytes =
      ⟨r₀.seq, r₀.temperature, r₀.humidity⟩ := readSensor_sensorPayload cfg l.payload r₀
  have hacked : recordsOf acks = [] := by
    split_ifs at hacks
    · obtain ⟨sent, rfl⟩ := hacks
      rfl
    · rw [hacks]
      rfl
  have hone : storedOf turn = [asStored r₀] := by
    rw [storedOf, hrecords, recordsOf_append, hacked, List.append_nil, hfields]
    rfl
  refine ⟨before ++ [r₀], later, ?_, ?_, ?_⟩
  · rw [hrs, List.append_assoc]
    rfl
  · rw [storedOf_append, hstored, hone, List.map_append]
    rfl
  · rw [hrest]
    exact .samples hstate hn hpaced hfew

/-- **Every turn keeps it.** -/
theorem delivers_turn (hdelivering : Delivering few rs l t line) (hpath : (clientTurn cfg l).Path turn x)
    (haccepts : lineMonitor.Accepts line turn line') : DeliveringOn few rs (t ++ turn) line' x := by
  obtain ⟨before, later, hrs, hstored, hawaits⟩ := hdelivering
  generalize has : arrivals line.script = as at hawaits
  cases hawaits with
  | hello hstate hn hpaced =>
      have hopen : l.state ≠ .closing := by
        rw [hstate]
        decide
      generalize hcut : helloPacket.take _ = cut at hpaced
      cases hpaced with
      | last =>
          rw [← hcut, helloPacket_eq] at has
          exact delivers_short hrs hstored hpath hopen haccepts (by decide) hn has
      | timeout hpaced =>
          subst hcut
          exact delivers_timeout hrs hstored hpath hopen haccepts has (fun _ => .inl rfl) (.hello hstate hn hpaced)
  | stream hstate hn hpaced hfew =>
      have hopen : l.state ≠ .closing := by
        rw [hstate]
        decide
      cases hpaced with
      | timeout hpaced =>
          exact delivers_timeout hrs hstored hpath hopen haccepts has (fun h => .inr (hfew h).early)
            (.stream hstate hn hpaced fun h => (hfew h).wait)
      | packet _ hpaced =>
          exact delivers_hello hrs hstored hpath hstate haccepts hn hpaced (fun h => (hfew h).rest) has
  | @samples _ r _ n hstate hn hpaced hfew =>
      have hopen : l.state ≠ .closing := by
        rw [hstate]
        decide
      generalize hps : later.map sensorPacket = ps at hpaced
      generalize hcut : (sensorPacket r).take n = cut at hpaced
      cases hpaced with
      | last =>
          obtain rfl := List.map_eq_nil_iff.mp hps
          have hlen : (sensorPayload r).length ≤ 1100 := show 16 ≤ 1100 by decide
          rw [← hcut, sensorPacket_eq] at has
          exact delivers_short hrs hstored hpath hopen haccepts hlen hn has
      | timeout hpaced =>
          subst hps hcut
          exact delivers_timeout hrs hstored hpath hopen haccepts has (fun h => .inr (hfew h).early)
            (.samples hstate hn hpaced fun h => (hfew h).wait)
      | packet p hpaced =>
          obtain ⟨r₀, later, rfl, rfl, rfl⟩ := List.map_eq_cons_iff.mp hps
          subst hcut
          exact delivers_sample hrs hstored hpath hstate haccepts hn hpaced (fun h => (hfew h).rest) has
  | nothing hstate =>
      have hnone : arrivals line.script = ((packetBytes PktType.hello.code DEVICE_ID []).take 0).map .byte := has
      exact delivers_short hrs hstored hpath hstate haccepts (by decide) (by decide) hnone

end Turn

/-- A worker in front of a line that carries the samples `rs`. -/
theorem CarriesSamples.awaits {as : List Arrival} {rs : List Reading} (hcarries : CarriesSamples (bytesIn as) rs)
    (hbetween : timeoutsBetween 0 as = true) (payload : PayloadBuf) :
    Awaits (Patient 0 as) (.init payload) rs as := by
  generalize hbs : bytesIn as = bs at hcarries
  cases hcarries with
  | hello hn => exact .hello rfl hn (paced_of_packetsFrom (packetsFrom_hello hn) hbetween hbs)
  | samples _ r hn =>
      refine .stream rfl hn (paced_of_packetsFrom (packetsFrom_stream rs r hn) hbetween ?_) id
      rw [hbs, wholeStream, List.flatten_cons, List.flatMap]

/-- Every run of a worker on such a line. -/
theorem worker_delivers {cfg : Config} {payload : PayloadBuf} {line line' : Line} {rs : List Reading}
    (hbetween : timeoutsBetween 0 (arrivals line.script) = true)
    (hcarries : CarriesSamples (bytesOf line.script) rs) {t : List (Event ServerSig)} {why : ExitReason}
    (hpath : Loop.Path (clientWorker cfg) (.enter payload) t why) (haccepts : lineMonitor.Accepts line t line') :
    Delivered (Patient 0 (arrivals line.script)) rs why t := by
  generalize hfew : Patient 0 (arrivals line.script) = few
  refine worker_exit_rule (J := fun l t => ∀ line', lineMonitor.Accepts line t line' → Delivering few rs l t line')
    (E := fun why t => (∃ line', lineMonitor.Accepts line t line') → Delivered few rs why t) ?_ ?_ ?_ ?_ hpath
    ⟨line', haccepts⟩
  · intro line' haccepts
    cases haccepts with
    | cons hmove hrest =>
        cases hmove
        cases hrest
        rw [← bytesIn_arrivals] at hcarries
        exact ⟨[], rs, rfl, rfl, hfew ▸ hcarries.awaits hbetween payload⟩
  · intro l t turn l' hJ hturn line' haccepts
    obtain ⟨line₁, hfirst, hsecond⟩ := haccepts.split
    exact delivers_turn (hJ line₁ hfirst) hturn hsecond
  · rintro l t turn why hJ hturn ⟨line', haccepts⟩
    obtain ⟨line₁, hfirst, hsecond⟩ := haccepts.split
    exact delivers_turn (hJ line₁ hfirst) hturn hsecond
  · rintro why t t' hE hplain ⟨line', haccepts⟩
    obtain ⟨line₁, hfirst, -⟩ := haccepts.split
    have hnone : storedOf t' = [] := by
      rw [storedOf, recordsOf_silent fun e he => (hplain e he).silent]
      rfl
    have hdelivered := hE ⟨line₁, hfirst⟩
    rwa [Delivered, storedOf_append, hnone, List.append_nil]

/-- A worker of the server on such a line, at every moment and at its end. -/
theorem server_delivers (boot : Boot) (schedule : List Party) (cfd : Nat) {rs : List Reading}
    (hbetween : timeoutsBetween 0 (arrivals (boot.conns cfd).script) = true)
    (hcarries : CarriesSamples (bytesOf (boot.conns cfd).script) rs) :
    storedOf (clientEvents (boot.run schedule) cfd) <+: rs.map asStored ∧
      ∀ why ∈ peerGone, (why = .idle → Patient 0 (arrivals (boot.conns cfd).script)) →
        (boot.run schedule).threads (.worker cfd) = .done (.worker why) →
        storedOf (clientEvents (boot.run schedule) cfd) = rs.map asStored := by
  constructor
  · refine server_worker_moment boot schedule cfd (P := fun t => storedOf t <+: rs.map asStored) ?_ ?_
    · intro t t' hlonger
      rw [storedOf_append] at hlonger
      exact (List.prefix_append _ _).trans hlonger
    · intro t why line hpath haccepts
      exact (worker_delivers hbetween hcarries hpath haccepts).1
  · intro why hgone hidle hdone
    obtain ⟨why', hwhy, hpath⟩ := server_worker_path boot schedule hdone
    cases hwhy
    exact (worker_delivers hbetween hcarries hpath (server_line boot schedule cfd)).2 hgone hidle

/-- Bytes written to a connection bring the readings `rs` to any server. Whichever of its connections they reach,
all of them or only the first, cut in any way and with any number of timeouts between the packets: at every moment of
every run the records passed to the sink for that connection are the first of the readings, in order; and once the
worker has left because the line brought nothing more, they are all of them, if all the bytes arrived. (A worker that
left as idle may have waited in vain for the next packet, if there are as many timeouts in a row as it waits for.) -/
def Brings (bs : List UInt8) (rs : List Reading) : Prop :=
  ∀ (boot : Boot) (schedule : List Party) (cfd : Nat), timeoutsBetween 0 (arrivals (boot.conns cfd).script) = true →
    bytesOf (boot.conns cfd).script <+: bs →
    storedOf (clientEvents (boot.run schedule) cfd) <+: rs.map asStored ∧
      (bytesOf (boot.conns cfd).script = bs → ∀ why ∈ peerGone,
        (why = .idle → Patient 0 (arrivals (boot.conns cfd).script)) →
        (boot.run schedule).threads (.worker cfd) = .done (.worker why) →
        storedOf (clientEvents (boot.run schedule) cfd) = rs.map asStored)

theorem CarriesSamples.brings {bs : List UInt8} {rs : List Reading} (hcarries : CarriesSamples bs rs) :
    Brings bs rs := by
  intro boot schedule cfd hbetween hle
  constructor
  · obtain ⟨k, hpart⟩ := hcarries.shorter hle
    refine (server_delivers boot schedule cfd hbetween hpart).1.trans ?_
    rw [List.map_take]
    exact List.take_prefix _ _
  · rintro rfl
    exact (server_delivers boot schedule cfd hbetween hcarries).2

/-- **From the sensor to the sink.** In whatever order the tasks of the firmware take their steps and whatever fails
meanwhile, as long as `connected` is truthful, the samples it counts as written fall into batches, one for each of its
connections, and the bytes of each connection bring its batch to the sink of any server they reach. -/
theorem device_to_sink (choices : FwChoices) (tasks : List FwTask)
    (htrue : truthful .empty (fwRun choices tasks).log = true) :
    ∃ batches : List (List Reading), batches.flatten = (ledgerOf (fwRun choices tasks).log).written ∧
      List.Forall₂ Brings (uplinkOf (fwRun choices tasks).log).streams batches := by
  obtain ⟨b, done, cur, hfr⟩ := fw_batched choices tasks htrue
  obtain ⟨batches, hcarries, hflat⟩ := hfr.leave
  exact ⟨batches, hflat.trans hfr.written.symm, hcarries.imp fun bs rs hcarried => hcarried.brings⟩

/-- The second connection of `flakyLink`, byte by byte and with two timeouts between its packets. -/
def flakyArrivals : List Recv :=
  let bytes := ((uplinkOf (fwRun flakyLink twoSamples).log).streams.getD 1 []).map fun b => Recv.data b []
  bytes.take 20 ++ [.eagain, .eagain] ++ bytes.drop 20

/-- A server to which it comes. -/
def flakyServer : Boot := { oneHello with conns := fun _ => scripted flakyArrivals }

theorem device_to_sink_flaky :
    timeoutsBetween 0 (arrivals flakyArrivals) = true ∧
      storedOf (clientEvents (flakyServer.run (serveOne ++ serveOne)) 0) = [asStored ⟨2, 0, 2160, 4700⟩] ∧
      ∃ batches : List (List Reading), batches.flatten = [⟨2, 0, 2160, 4700⟩] ∧
        List.Forall₂ Brings (uplinkOf (fwRun flakyLink twoSamples).log).streams batches := by
  have htrue : truthful .empty (fwRun flakyLink twoSamples).log = true := by decide +kernel
  have hwritten : (ledgerOf (fwRun flakyLink twoSamples).log).written = [⟨2, 0, 2160, 4700⟩] := by decide +kernel
  obtain ⟨batches, hflat, hbrings⟩ := device_to_sink flakyLink twoSamples htrue
  exact ⟨by decide +kernel, by decide +kernel, batches, hflat.trans hwritten, hbrings⟩

end PulseLink
