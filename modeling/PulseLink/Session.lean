import PulseLink.WorkerRun

/-! A device session: HELLO, then SENSOR packets, under any segmentation of the stream. The worker stores
one record for each reading, acknowledges every eighth, and credits the device of the HELLO. -/

namespace PulseLink

open Bytes

/-! ### What a run shows to the outside -/

/-- A record passed to the sink, without the server's clock, or a packet sent to the peer. -/
inductive Output where
  | record (deviceId seq : UInt32) (temperature humidity : Int32)
  | reply (bs : List UInt8)
  deriving DecidableEq, Repr

def outputOf : Event ServerSig → Option Output
  | ⟨.writeRecord rec, _⟩ => some (.record rec.deviceId rec.seq rec.temperature rec.humidity)
  | ⟨.writeN bs, _⟩ => some (.reply bs)
  | _ => none

/-- The records and replies of a run, in order. -/
def outputs (t : List (Event ServerSig)) : List Output := t.filterMap outputOf

theorem outputs_append (t t' : List (Event ServerSig)) : outputs (t ++ t') = outputs t ++ outputs t' :=
  List.filterMap_append

theorem outputs_cons_of_none {e : Event ServerSig} {t : List (Event ServerSig)}
    (he : outputOf e = none) : outputs (e :: t) = outputs t :=
  List.filterMap_cons_none he

theorem outputs_readEvents (h : PlHeader) (payload : List UInt8) : outputs (readEvents h payload) = [] := by
  rw [readEvents, payloadEvents]
  split_ifs <;> rfl

def feedResultOf : Event ServerSig → Option FeedResult
  | ⟨.fed result, _⟩ => some result
  | _ => none

/-- What `frame_asm_feed` returned in a run, call by call. -/
def feedResults (t : List (Event ServerSig)) : List FeedResult := t.filterMap feedResultOf

theorem feedResults_append (t t' : List (Event ServerSig)) :
    feedResults (t ++ t') = feedResults t ++ feedResults t' :=
  List.filterMap_append

theorem feedResults_cons_of_none {e : Event ServerSig} {t : List (Event ServerSig)}
    (he : feedResultOf e = none) : feedResults (e :: t) = feedResults t :=
  List.filterMap_cons_none he

theorem feedResults_readEvents (h : PlHeader) (payload : List UInt8) :
    feedResults (readEvents h payload) = [] := by
  rw [readEvents, payloadEvents]
  split_ifs <;> rfl

/-! ### Counters of a device -/

namespace DeviceTable

/-- The device the table holds for `id`. -/
def get (t : DeviceTable) (id : UInt32) : Option Device := (t.lookup id).bind fun p => t.heap[p]?

/-- `packets_ok` of the device `id`, 0 while there is none. -/
def okOf (t : DeviceTable) (id : UInt32) : UInt64 := (t.get id).elim 0 Device.packetsOk

/-- `packets_bad` of the device `id`, 0 while there is none. -/
def badOf (t : DeviceTable) (id : UInt32) : UInt64 := (t.get id).elim 0 Device.packetsBad

variable {t : DeviceTable} {id : UInt32} {p : Nat}

theorem get_isSome (hp : t.lookup id = some p) : ∃ d, t.get id = some d := by
  have hid := (lookup_some hp).2
  rw [idAt, Option.map_eq_some_iff] at hid
  obtain ⟨d, hd, -⟩ := hid
  exact ⟨d, by rw [get, hp]; exact hd⟩

theorem get_atomic (hp : t.lookup id = some p) (a : DevAtomic) :
    (t.atomic p a).get id = (t.get id).map a.apply := by
  rw [get, get, atomic_lookup, hp]
  exact (atomic_heap p p a).trans (if_pos rfl)

theorem get_insert (sessionId : UInt32) (now : Int) :
    (t.insert id sessionId now).get id = some (newDevice id sessionId now) := by
  rw [get, insert_lookup]
  simp [insert]

/-- The stores of `dt_record_sensor`, one after the other. -/
def recordSensor (t : DeviceTable) (p : Nat) (s : SensorFields) (now : Int) : DeviceTable :=
  (((((t.atomic p (.storeSeq s.seq)).atomic p (.storeTemp s.temp)).atomic p
    (.storeHumid s.hum)).atomic p (.storeSeen now)).atomic p (.storeState .online)).atomic p .addOk

@[simp] theorem recordSensor_lookup (s : SensorFields) (now : Int) (id : UInt32) :
    (t.recordSensor p s now).lookup id = t.lookup id := by
  simp only [recordSensor, atomic_lookup]

/-- A recorded reading counts once as good and never as bad. -/
theorem recordSensor_counts (hp : t.lookup id = some p) (s : SensorFields) (now : Int) :
    (t.recordSensor p s now).okOf id = t.okOf id + 1 ∧
      (t.recordSensor p s now).badOf id = t.badOf id := by
  obtain ⟨d, hd⟩ := get_isSome hp
  simp only [okOf, badOf, recordSensor, get_atomic, atomic_lookup, hp, hd, Option.map_some,
    Option.elim_some]
  exact ⟨rfl, rfl⟩

end DeviceTable

/-! ### The two packets of a session -/

theorem PayloadBuf.fill_bytes (buf : PayloadBuf) {got : List UInt8} (hgot : got.length ≤ 1100) :
    (buf.fill got).bytes = got ++ buf.bytes.drop got.length := by
  have hsize := buf.size
  have hstore : storeAt buf.bytes 0 got = got ++ buf.bytes.drop got.length := by simp [storeAt]
  show (storeAt buf.bytes 0 got).take 1100 = _
  rw [hstore, List.take_of_length_le]
  rw [List.length_append, List.length_drop]
  omega

/-- The worker reads the fields the firmware wrote. -/
theorem readSensor_sensorPayload (cfg : Config) (buf : PayloadBuf) (r : Reading) :
    readSensor cfg (buf.fill (sensorPayload r)).bytes = ⟨r.seq, r.temperature, r.humidity⟩ := by
  obtain ⟨rest, hrest⟩ : ∃ rest, (buf.fill (sensorPayload r)).bytes = sensorPayload r ++ rest :=
    ⟨_, buf.fill_bytes (by show 16 ≤ 1100; decide)⟩
  have hseq : rdBe32 (sensorPayload r ++ rest) 0 = r.seq := rdBe32_append [] _ _ rfl
  have htemp : rdBe32 (sensorPayload r ++ rest) 8 = r.temperature.toUInt32 :=
    rdBe32_append (be32 r.seq ++ be32 r.timestampMs) _ _ rfl
  have hhum : rdBe32 (sensorPayload r ++ rest) 12 = r.humidity.toUInt32 :=
    rdBe32_append (be32 r.seq ++ be32 r.timestampMs ++ be32 r.temperature.toUInt32) _ _ rfl
  rw [hrest, readSensor, htonl_load32, htonl_load32, htonl_load32, hseq, htemp, hhum]
  simp

/-- What one SENSOR packet makes the worker do, as the packet number `k + 1` it accepts. -/
def sensorOutputs (k : UInt32) (deviceId : UInt32) (s : SensorFields) : List Output :=
  .record deviceId s.seq s.temp s.hum ::
    if (k + 1) % ACK_EVERY = 0 then [.reply (ackPacket deviceId s.seq)] else []

theorem does_storeReading (conn : Conn) (ctx : ServerCtx) (h : PlHeader) (p : Nat) (s : SensorFields) :
    ∃ ctx' t now, Does (storeReading h p s) (conn, ctx) () (conn, ctx') t ∧
      ctx'.devices = ctx.devices.recordSensor p s now ∧
      outputs t = [.record h.deviceId s.seq s.temp s.hum] :=
  ⟨_, _, _, rfl, rfl, rfl⟩

/-- A SENSOR packet in state ACTIVE. -/
theorem does_handleSensor {conn : Conn} {ctx : ServerCtx} (hcalm : Calm (conn, ctx)) (cfg : Config)
    {l : Locals} (h : PlHeader) {p : Nat} (hdev : l.dev = some p) {s : SensorFields}
    (hs : readSensor cfg l.payload.bytes = s) :
    ∃ w' t now, Does (handleSensor cfg l h) (conn, ctx)
        (.inl { l with sensorCount := l.sensorCount + 1, strikes := 0 }) w' t ∧
      w'.1.script = conn.script ∧ w'.1.after = conn.after ∧
      w'.2.devices = ctx.devices.recordSensor p s now ∧
      outputs t = sensorOutputs l.sensorCount h.deviceId s := by
  obtain ⟨ctx', t, now, hstore, hdevices, hout⟩ := does_storeReading conn ctx h p s
  have hcalm' : Calm (conn, ctx') := hcalm.runs hstore
  simp only [handleSensor, hdev, hs, sensorOutputs]
  by_cases hack : (l.sensorCount + 1) % ACK_EVERY = 0
  · obtain ⟨conn', hsend, hscript, hafter⟩ := does_sendPacket hcalm' cfg .ack h.deviceId
      (show (be32 s.seq).length = (4 : UInt16).toNat from rfl) (by decide)
    rw [if_pos hack, if_pos hack, mem32_htonl]
    refine ⟨_, _, now, hstore.bind (hsend.bind (.ret _ _)), hscript, hafter, hdevices, ?_⟩
    rw [outputs_append, hout]
    rfl
  · rw [if_neg hack, if_neg hack]
    refine ⟨_, _, now, hstore.bind (.ret _ _), rfl, rfl, hdevices, ?_⟩
    rw [outputs_append, hout]
    rfl

/-- With memory available `dt_get_or_create` returns the device of the id and leaves its counters. -/
theorem does_dtGetOrCreate {conn : Conn} {ctx : ServerCtx} (hcalm : Calm (conn, ctx))
    (id sessionId : UInt32) :
    ∃ ctx' t p, Does (dtGetOrCreate id sessionId) (conn, ctx) (some p) (conn, ctx') t ∧
      ctx'.devices.lookup id = some p ∧ ctx'.devices.okOf id = ctx.devices.okOf id ∧
      ctx'.devices.badOf id = ctx.devices.badOf id ∧ ctx'.files = ctx.files ∧
      outputs t = [] ∧ feedResults t = [] := by
  rw [dtGetOrCreate]
  cases hfind : ctx.devices.lookup id with
  | some p =>
      have hop : serverHandler (.find id) (conn, ctx) = (some p, conn, ctx) := by
        rw [serverHandler, hfind]
      exact ⟨ctx, _, p, .perform hop (.perform rfl (.ret _ _)), hfind, rfl, rfl, rfl, rfl, rfl⟩
  | none =>
      have hop : serverHandler (.find id) (conn, ctx) = (none, conn, ctx) := by
        rw [serverHandler, hfind]
      have hok : (draw true ctx.choices.callocs).1 = true :=
        (draw_all (P := fun ok => ok = true) rfl hcalm.callocs).1
      have hins : ∀ now, dtInsertLocked (draw true ctx.choices.callocs).1 id sessionId now ctx.devices =
          (.inserted ctx.devices.heap.length, ctx.devices.insert id sessionId now) := by
        intro now
        rw [dtInsertLocked, hfind, hok]
        rfl
      have hop' : ∃ ctx', serverHandler (.insert id sessionId) (conn, ctx) =
            (.inserted ctx.devices.heap.length, conn, ctx') ∧
          ctx'.devices = ctx.devices.insert id sessionId (draw 0 ctx.choices.times).1 ∧
          ctx'.files = ctx.files := by
        simp only [serverHandler, hins]
        exact ⟨_, rfl, rfl, rfl⟩
      obtain ⟨ctx', hop', hdevices, hfiles⟩ := hop'
      refine ⟨ctx', _, _, .perform hop (.perform hop' (.perform rfl (.ret _ _))), ?_, ?_, ?_, hfiles, rfl, rfl⟩
      · rw [hdevices, DeviceTable.insert_lookup]
      · rw [hdevices, DeviceTable.okOf, DeviceTable.get_insert, DeviceTable.okOf, DeviceTable.get, hfind]
        rfl
      · rw [hdevices, DeviceTable.badOf, DeviceTable.get_insert, DeviceTable.badOf, DeviceTable.get, hfind]
        rfl

/-- A HELLO packet in state WAIT_HELLO binds the device of its header. -/
theorem does_handleHello {conn : Conn} {ctx : ServerCtx} (hcalm : Calm (conn, ctx)) (cfg : Config)
    (l : Locals) {h : PlHeader} (htype : h.type = PktType.hello.code) :
    ∃ w' t p, Does (handleHello cfg l h) (conn, ctx)
        (.inl { l with sessionId := ctx.nextSession, dev := some p, state := .active, strikes := 0 })
        w' t ∧
      w'.1.script = conn.script ∧ w'.1.after = conn.after ∧
      w'.2.devices.lookup h.deviceId = some p ∧
      w'.2.devices.okOf h.deviceId = ctx.devices.okOf h.deviceId ∧
      w'.2.devices.badOf h.deviceId = ctx.devices.badOf h.deviceId ∧ w'.2.files = ctx.files ∧
      outputs t = [.reply (helloAckPacket h.deviceId ctx.nextSession)] ∧ feedResults t = [] := by
  have hcalm₁ : Calm (conn, { ctx with nextSession := ctx.nextSession + 1 }) := { hcalm with }
  obtain ⟨ctx₂, t, p, hcreate, hlookup, hok, hbad, hfiles, hout, hfed⟩ :=
    does_dtGetOrCreate hcalm₁ h.deviceId ctx.nextSession
  obtain ⟨conn', hsend, hscript, hafter⟩ := does_sendPacket (hcalm₁.runs hcreate) cfg .helloAck h.deviceId
    (show (be32 ctx.nextSession).length = (4 : UInt16).toNat from rfl) (by decide)
  rw [← mem32_htonl cfg.host] at hsend
  rw [handleHello, if_neg (fun hne => hne htype)]
  refine ⟨_, _, p, .perform rfl (hcreate.bind (hsend.bind (.ret _ _))), hscript, hafter, hlookup, hok, hbad,
    hfiles, ?_, ?_⟩
  · rw [outputs_cons_of_none rfl, outputs_append, hout, mem32_htonl]
    rfl
  · rw [feedResults_cons_of_none rfl, feedResults_append, hfed]
    rfl

/-! ### Whole sessions -/

/-- What the worker does for the SENSOR packets `sent`, each with the id in its header, when `k` have been
accepted before. -/
def sessionOutputs : UInt32 → List (UInt32 × Reading) → List Output
  | _, [] => []
  | k, (deviceId, r) :: sent =>
      sensorOutputs k deviceId ⟨r.seq, r.temperature, r.humidity⟩ ++ sessionOutputs (k + 1) sent

/-- The bytes of SENSOR packets, one after the other. -/
def sensorStream (sent : List (UInt32 × Reading)) : List UInt8 :=
  sent.flatMap fun x => packetBytes PktType.sensor.code x.1 (sensorPayload x.2)

/-- The end of a clean stream ends the connection. -/
theorem turn_end (cfg : Config) (l : Locals) {conn : Conn} {ctx : ServerCtx}
    (hstop : ctx.choices.stop = none) (hstate : l.state ≠ .closing) (hclean : Clean conn.script)
    (hnone : bytesOf conn.script = []) (hafter : conn.after = .eof) :
    Does (clientTurn cfg l) (conn, ctx) (.inr .closed) ({ conn with script := [] }, ctx)
      [⟨.loadRunning, true⟩, ⟨.readN PL_HDR_SIZE, .count []⟩] := by
  have hread : readN conn.after PL_HDR_SIZE [] conn.script = (.count [], []) := by
    rw [hafter]
    exact readN_clean_end PL_HDR_SIZE hclean hnone (by decide)
  exact turn_read cfg l hstop hstate hread (.ret _ _)

/-- A turn of the loop as a turn of the worker. -/
theorem does_running {cfg : Config} {l : Locals} {turn : Turn} {w w' : World}
    {t : List (Event ServerSig)} (hturn : Does (clientTurn cfg l) w turn w' t) :
    Does (clientWorker cfg (.running l)) w (WorkerPc.next turn) w' t := by
  have := hturn.bind (f := fun turn => .ret (WorkerPc.next turn)) (.ret _ _)
  rwa [List.append_nil] at this

/-- A turn in front of a SENSOR packet, in state ACTIVE. -/
theorem turn_sensor (cfg : Config) {l : Locals} {p : Nat} {conn : Conn} {ctx : ServerCtx}
    (hcalm : Calm (conn, ctx)) (hstate : l.state = .active) (hdev : l.dev = some p)
    (hclean : Clean conn.script) {deviceId : UInt32} {r : Reading} {rest : List UInt8}
    (hbytes : bytesOf conn.script =
      packetBytes PktType.sensor.code deviceId (sensorPayload r) ++ rest) :
    ∃ l' w' t now, Does (clientTurn cfg l) (conn, ctx) (.inl l') w' t ∧
      l'.state = .active ∧ l'.dev = some p ∧ l'.sensorCount = l.sensorCount + 1 ∧
      Clean w'.1.script ∧ bytesOf w'.1.script = rest ∧ w'.1.after = conn.after ∧
      w'.2.devices = ctx.devices.recordSensor p ⟨r.seq, r.temperature, r.humidity⟩ now ∧
      outputs t = sensorOutputs l.sensorCount deviceId ⟨r.seq, r.temperature, r.humidity⟩ := by
  have hlen : (sensorPayload r).length ≤ 1100 := by show 16 ≤ 1100; decide
  have hopen : l.state ≠ .closing := by rw [hstate]; decide
  obtain ⟨script, hclean', hbytes', hpacket⟩ := turn_packet cfg l hcalm hopen hclean hlen hbytes
  have hcalm₁ : Calm ({ conn with script := script }, ctx) := { hcalm with }
  obtain ⟨w', t, now, hsensor, hscript, hafter, hdevices, hout⟩ :=
    does_handleSensor hcalm₁ cfg (l := l.received (sensorPayload r))
      (builtHeader PktType.sensor.code deviceId (sensorPayload r)) hdev
      (readSensor_sensorPayload cfg l.payload r)
  rw [← dispatch_sensor cfg (l := l.received (sensorPayload r)) hstate rfl] at hsensor
  refine ⟨_, w', _, now, hpacket hsensor, hstate, hdev, rfl, ?_, ?_, hafter, hdevices, ?_⟩
  · rw [hscript]
    exact hclean'
  · rw [hscript]
    exact hbytes'
  · rw [outputs_append, outputs_readEvents, hout]
    rfl

/-- A turn in front of a HELLO packet, in state WAIT_HELLO. -/
theorem turn_hello (cfg : Config) {l : Locals} {conn : Conn} {ctx : ServerCtx}
    (hcalm : Calm (conn, ctx)) (hstate : l.state = .waitHello) (hclean : Clean conn.script)
    {deviceId : UInt32} {payload rest : List UInt8} (hlen : payload.length ≤ 1100)
    (hbytes : bytesOf conn.script = packetBytes PktType.hello.code deviceId payload ++ rest) :
    ∃ l' w' t p, Does (clientTurn cfg l) (conn, ctx) (.inl l') w' t ∧
      l'.state = .active ∧ l'.dev = some p ∧ l'.sensorCount = l.sensorCount ∧ l'.fa = l.fa ∧
      Clean w'.1.script ∧ bytesOf w'.1.script = rest ∧ w'.1.after = conn.after ∧
      w'.2.devices.lookup deviceId = some p ∧
      w'.2.devices.okOf deviceId = ctx.devices.okOf deviceId ∧
      w'.2.devices.badOf deviceId = ctx.devices.badOf deviceId ∧ w'.2.files = ctx.files ∧
      outputs t = [.reply (helloAckPacket deviceId ctx.nextSession)] ∧ feedResults t = [] := by
  have hopen : l.state ≠ .closing := by rw [hstate]; decide
  obtain ⟨script, hclean', hbytes', hpacket⟩ := turn_packet cfg l hcalm hopen hclean hlen hbytes
  have hcalm₁ : Calm ({ conn with script := script }, ctx) := { hcalm with }
  obtain ⟨w', t, p, hhello, hscript, hafter, hlookup, hok, hbad, hfiles, hout, hfed⟩ :=
    does_handleHello hcalm₁ cfg (l.received payload)
      (h := builtHeader PktType.hello.code deviceId payload) rfl
  rw [← dispatch_hello cfg (l := l.received payload) hstate] at hhello
  refine ⟨_, w', _, p, hpacket hhello, rfl, rfl, rfl, rfl, ?_, ?_, hafter, hlookup, hok, hbad, hfiles, ?_, ?_⟩
  · rw [hscript]
    exact hclean'
  · rw [hscript]
    exact hbytes'
  · rw [outputs_append, outputs_readEvents, hout]
    rfl
  · rw [feedResults_append, feedResults_readEvents, hfed]
    rfl

/-- The SENSOR part of a session, from any point of it on. -/
theorem session_sensors (cfg : Config) {id : UInt32} {p : Nat} (sent : List (UInt32 × Reading))
    {l : Locals} {conn : Conn} {ctx : ServerCtx} (hcalm : Calm (conn, ctx)) (hstate : l.state = .active)
    (hdev : l.dev = some p) (hlookup : ctx.devices.lookup id = some p) (hclean : Clean conn.script)
    (hbytes : bytesOf conn.script = sensorStream sent) (hafter : conn.after = .eof) :
    ∃ w' t, Loop.Ends (clientWorker cfg) serverHandler (.running l) (conn, ctx) ⟨.closed, w', t⟩ ∧
      outputs t = sessionOutputs l.sensorCount sent ∧
      w'.2.devices.okOf id = ctx.devices.okOf id + UInt64.ofNat sent.length ∧
      w'.2.devices.badOf id = ctx.devices.badOf id := by
  induction sent generalizing l conn ctx with
  | nil =>
      have hturn := turn_end cfg l hcalm.running (by rw [hstate]; decide) hclean hbytes hafter
      exact ⟨_, _, .turn (does_running hturn) (.stop rfl), rfl, (add_zero _).symm, rfl⟩
  | cons x sent ih =>
      obtain ⟨deviceId, r⟩ := x
      obtain ⟨l', ⟨conn', ctx'⟩, t, now, hturn, hstate', hdev', hcount, hclean', hbytes', hafter', hdevices,
        hout⟩ := turn_sensor cfg hcalm hstate hdev hclean hbytes
      have hcounts := DeviceTable.recordSensor_counts hlookup ⟨r.seq, r.temperature, r.humidity⟩ now
      have hlookup' : ctx'.devices.lookup id = some p := by
        rw [hdevices, DeviceTable.recordSensor_lookup, hlookup]
      obtain ⟨w', t', hends, hout', hok, hbad⟩ := ih (hcalm.runs hturn) hstate' hdev' hlookup' hclean'
        hbytes' (hafter'.trans hafter)
      refine ⟨w', _, .turn (does_running hturn) hends, ?_, ?_, ?_⟩
      · rw [outputs_append, hout, hout', hcount]
        rfl
      · rw [hok, hdevices, hcounts.1, List.length_cons, UInt64.ofNat_add]
        exact (add_assoc _ _ _).trans (congrArg _ (add_comm _ _))
      · rw [hbad, hdevices, hcounts.2]

/-- What the worker owes the SENSOR packet number `i + 1` of a connection: its record, and after each
eighth the acknowledgement of its sequence number. -/
def owedFor (i : Nat) (x : UInt32 × Reading) : List Output :=
  .record x.1 x.2.seq x.2.temperature x.2.humidity ::
    if (i + 1) % 8 = 0 then [.reply (ackPacket x.1 x.2.seq)] else []

theorem sensorOutputs_eq (i : Nat) (x : UInt32 × Reading) :
    sensorOutputs (UInt32.ofNat i) x.1 ⟨x.2.seq, x.2.temperature, x.2.humidity⟩ = owedFor i x := by
  simp only [sensorOutputs, owedFor, ack_due_iff]

theorem sessionOutputs_eq (k : Nat) (sent : List (UInt32 × Reading)) :
    sessionOutputs (UInt32.ofNat k) sent = (sent.mapIdx fun i x => owedFor (k + i) x).flatten := by
  induction sent generalizing k with
  | nil => rfl
  | cons x sent ih =>
      have hsucc : UInt32.ofNat k + 1 = UInt32.ofNat (k + 1) := (UInt32.ofNat_add k 1).symm
      rw [sessionOutputs, sensorOutputs_eq, hsucc, ih, List.mapIdx_cons, List.flatten_cons]
      simp only [Nat.add_zero, Nat.add_assoc, Nat.add_comm 1]

theorem sensorStream_eq {cap : Nat} {sent : List (UInt32 × Reading)} {packets : List (List UInt8)}
    (hbuild : List.Forall₂ (fun x bs => plBuildSensor cap x.1 x.2 = some bs) sent packets) :
    packets.flatten = sensorStream sent := by
  induction hbuild with
  | nil => rfl
  | cons hhead _ ih =>
      rw [List.flatten_cons, ih, fwPacket_some rfl hhead]
      rfl

/-- **A session is served under any segmentation.** A HELLO built by the firmware followed by any SENSOR
packets it builds, cut into arrivals in any way with interrupted calls between them and then closed, makes
the worker acknowledge the HELLO, pass one record for each reading to the sink in order, acknowledge each
eighth reading and nothing else, and credit the device with exactly the number of readings. -/
theorem session_any_segmentation (cfg : Config) (payload : PayloadBuf) {cap : Nat}
    {deviceId firmwareVersion capabilities : UInt32} {hello : List UInt8}
    (hhello : plBuildHello cap deviceId firmwareVersion capabilities = some hello)
    {sent : List (UInt32 × Reading)} {packets : List (List UInt8)}
    (hpackets : List.Forall₂ (fun x bs => plBuildSensor cap x.1 x.2 = some bs) sent packets)
    {conn : Conn} {ctx : ServerCtx} (hcalm : Calm (conn, ctx)) (hclean : Clean conn.script)
    (hbytes : bytesOf conn.script = hello ++ packets.flatten) (hafter : conn.after = .eof) :
    ∃ w' t, Loop.Ends (clientWorker cfg) serverHandler (.enter payload) (conn, ctx) ⟨.closed, w', t⟩ ∧
      outputs t = .reply (helloAckPacket deviceId ctx.nextSession) :: (sent.mapIdx owedFor).flatten ∧
      w'.2.devices.okOf deviceId = ctx.devices.okOf deviceId + UInt64.ofNat sent.length ∧
      w'.2.devices.badOf deviceId = ctx.devices.badOf deviceId := by
  have hcalm₀ : Calm (conn, { ctx with activeWorkers := ctx.activeWorkers + 1 }) := { hcalm with }
  rw [fwPacket_some rfl hhello, sensorStream_eq hpackets] at hbytes
  obtain ⟨l, ⟨conn₁, ctx₁⟩, t₁, p, hturn, hstate, hdev, hcount, -, hclean₁, hbytes₁, hafter₁, hlookup, hok₁,
    hbad₁, -, hout₁, -⟩ := turn_hello cfg (l := .init payload) hcalm₀ rfl hclean (by show 8 ≤ 1100; decide) hbytes
  obtain ⟨w', t₂, hends, hout₂, hok₂, hbad₂⟩ := session_sensors cfg sent (hcalm₀.runs hturn) hstate hdev
    hlookup hclean₁ hbytes₁ (hafter₁.trans hafter)
  refine ⟨w', _, .turn rfl (.turn (does_running hturn) hends), ?_, ?_, ?_⟩
  · have howed := sessionOutputs_eq 0 sent
    simp only [Nat.zero_add] at howed
    rw [outputs_append, outputs_append, hout₁, hout₂, hcount]
    exact congrArg (_ :: ·) howed
  · rw [hok₂, hok₁]
  · rw [hbad₂, hbad₁]

theorem calm_freshServer (script : List Recv) : Calm (scripted script, freshServer) where
  running := rfl
  sends := by simp [scripted]
  callocs := by simp [freshServer]
  frameAllocs := by simp [freshServer]
  imageAllocs := by simp [freshServer]

def zeroPayload : PayloadBuf := ⟨List.replicate 1100 0, List.length_replicate⟩

/-- Why a worker left and what it sent and stored, on a connection that is closed after the script. -/
def served (script : List Recv) : Option (ExitReason × List Output) :=
  (Loop.exec (clientWorker ⟨.little, none⟩) serverHandler 8 (.enter zeroPayload)
    (scripted script, freshServer)).map fun out => (out.value, outputs out.trace)

def oneReading : Reading := ⟨5, 90, -250, 4000⟩

/-- A HELLO and one reading. -/
def oneReadingStream : List UInt8 :=
  packetBytes PktType.hello.code 7 (helloPayload 1 0) ++
    [packetBytes PktType.sensor.code 7 (sensorPayload oneReading)].flatten

/-- The same in three pieces, cut inside both packets, with an interrupted call. -/
def oneReadingScript : List Recv :=
  unread (oneReadingStream.take 3) (.eintr :: unread ((oneReadingStream.drop 3).take 22)
    (unread ((oneReadingStream.drop 3).drop 22) []))

theorem session_any_segmentation_oneReading :
    ∃ w' t, Loop.Ends (clientWorker ⟨.little, none⟩) serverHandler (.enter zeroPayload)
        (scripted oneReadingScript, freshServer) ⟨.closed, w', t⟩ ∧
      outputs t = .reply (helloAckPacket 7 freshServer.nextSession) ::
        ([(7, oneReading)].mapIdx owedFor).flatten ∧
      w'.2.devices.okOf 7 = freshServer.devices.okOf 7 + UInt64.ofNat [(7, oneReading)].length ∧
      w'.2.devices.badOf 7 = freshServer.devices.badOf 7 := by
  have hclean : Clean oneReadingScript := by
    refine clean_unread ?_ _
    intro r hr
    rcases List.mem_cons.mp hr with rfl | hr
    · exact Or.inr rfl
    · exact clean_unread (clean_unread (by simp [Clean]) _) _ r hr
  have hbytes : bytesOf oneReadingScript = oneReadingStream := by
    simp only [oneReadingScript, bytesOf_unread, bytesOf, List.append_nil, List.take_append_drop]
  have hhello := plBuildHello_eq 7 1 0 (show 20 ≤ 28 by decide)
  have hsensor := plBuildSensor_eq 7 oneReading (le_refl 28)
  have hpackets : List.Forall₂ (fun x bs => plBuildSensor 28 x.1 x.2 = some bs) [(7, oneReading)]
      [packetBytes PktType.sensor.code 7 (sensorPayload oneReading)] := .cons hsensor .nil
  exact session_any_segmentation _ _ hhello hpackets (calm_freshServer _) hclean hbytes rfl

end PulseLink
