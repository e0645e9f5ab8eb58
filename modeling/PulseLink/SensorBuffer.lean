import PulseLink.Dialogue
import PulseLink.Session

/-! The buffer `payload` of a worker is shared by all packets of its connection and not initialised.
`case PKT_SENSOR` copies 16 bytes out of it however many the packet brought: a shorter packet is completed with
what the buffer held before. -/

namespace PulseLink

open Bytes

/-! ### A turn on one packet -/

/-- Under some answers of its environment, a turn from `l` reads and accepts the packet with this header and
payload and then performs `t`. -/
def ServesWith (cfg : Config) (l : Locals) (h : PlHeader) (payload : List UInt8) (t : List (Event ServerSig)) :
    Prop :=
  ∃ x, (clientTurn cfg l).Path (readEvents h payload ++ t) x

theorem path_ask_cons_iff {α : Type} {o : ServerOp} {f : o.Ans → ServerProc α} {ans : o.Ans}
    {t : List (Event ServerSig)} {value : α} :
    (ask o >>= f).Path (⟨o, ans⟩ :: t) value ↔ (f ans).Path t value := by
  rw [path_ask_iff]
  constructor
  · rintro ⟨ans', t', heq, hrest⟩
    cases heq
    exact hrest
  · intro hrest
    exact ⟨ans, t, rfl, hrest⟩

theorem Passes.checkHeader {h : PlHeader} {payload : List UInt8} (hpasses : Passes h payload) :
    checkHeader h = none :=
  checkHeader_eq_none.mpr ⟨hpasses.magic, hpasses.version, UInt16.le_iff_toNat_le.mp hpasses.length.1⟩

theorem Passes.length_le {h : PlHeader} {payload : List UInt8} (hpasses : Passes h payload) :
    payload.length ≤ 1100 :=
  hpasses.length.2.le.trans (UInt16.le_iff_toNat_le.mp hpasses.length.1)

/-- The payload of an acceptable header comes to the checksum test. -/
theorem handleHeader_path_iff {cfg : Config} {l : Locals} {h : PlHeader} {payload : List UInt8}
    (hpasses : Passes h payload) {t : List (Event ServerSig)} {x : Turn} :
    (handleHeader cfg { l with idleTicks := 0 } h).Path (payloadEvents payload ++ t) x ↔
      (checkPayload cfg (l.received payload) h).Path t x := by
  have hlen := hpasses.length.2
  rw [handleHeader, hpasses.checkHeader]
  simp only [recvPayload, payloadEvents]
  by_cases hnil : payload = []
  · subst hnil
    have hzero : ¬ h.payloadLen > 0 := by
      rw [gt_iff_lt, UInt16.lt_iff_toNat_lt, ← hlen]
      exact Nat.lt_irrefl 0
    rw [if_neg hzero, if_pos rfl, Locals.received, PayloadBuf.fill_nil]
    rfl
  · have hpos : h.payloadLen > 0 := by
      rw [gt_iff_lt, UInt16.lt_iff_toNat_lt, ← hlen]
      exact List.length_pos_iff.mpr hnil
    rw [if_pos hpos, if_neg hnil, hlen]
    refine path_ask_cons_iff.trans ?_
    simp only [if_pos hlen]
    rfl

/-- Reading a valid packet leads to its dispatch, with the payload in front of the buffer. -/
theorem servesWith_iff {cfg : Config} {l : Locals} (hstate : l.state ≠ .closing) {h : PlHeader}
    {payload : List UInt8} (hpasses : Passes h payload) {t : List (Event ServerSig)} :
    ServesWith cfg l h payload t ↔ ∃ x, (dispatch cfg (l.received payload) h).Path t x := by
  refine exists_congr fun x => ?_
  have hparse : plParseHeader cfg.host h.wire = h := by
    have := plParseHeader_wire cfg.host h []
    rwa [List.append_nil] at this
  have hheader : afterRead cfg l (.count h.wire) = handleHeader cfg { l with idleTicks := 0 } h := by
    simp only [afterRead, h.length_wire, hparse]
    rfl
  calc (clientTurn cfg l).Path (readEvents h payload ++ t) x
    _ ↔ (afterRead cfg l (.count h.wire)).Path
          (payloadEvents payload ++ (⟨.decided h (.accepted payload), ()⟩ :: t)) x := by
        rw [clientTurn_eq, readEvents, List.append_assoc, List.append_assoc]
        refine path_ask_cons_iff.trans ?_
        rw [if_neg (show ¬ true = false by decide), if_neg hstate]
        exact path_ask_cons_iff
    _ ↔ (checkPayload cfg (l.received payload) h).Path (⟨.decided h (.accepted payload), ()⟩ :: t) x := by
        rw [hheader]
        exact handleHeader_path_iff hpasses
    _ ↔ (dispatch cfg (l.received payload) h).Path t x := by
        rw [checkPayload_received cfg l hpasses.length.2 hpasses.length_le,
          if_neg (not_not_intro hpasses.checksum)]
        exact path_ask_cons_iff

/-! ### The fields of a reading -/

theorem readSensor_eq (cfg : Config) (bs : List UInt8) :
    readSensor cfg bs = ⟨rdBe32 bs 0, (rdBe32 bs 8).toInt32, (rdBe32 bs 12).toInt32⟩ := by
  rw [readSensor, htonl_load32, htonl_load32, htonl_load32]

/-- A packet of 16 bytes or more brings all fields itself. -/
theorem readSensor_fill (cfg : Config) (buf : PayloadBuf) {payload : List UInt8} (hlong : 16 ≤ payload.length)
    (hfits : payload.length ≤ 1100) : readSensor cfg (buf.fill payload).bytes = readSensor cfg payload := by
  rw [buf.fill_bytes hfits, readSensor_eq, readSensor_eq, rdBe32_append_left (by omega),
    rdBe32_append_left (by omega), rdBe32_append_left (by omega)]

/-- A buffer that holds one byte throughout. -/
def constPayload (b : UInt8) : PayloadBuf := ⟨List.replicate 1100 b, List.length_replicate⟩

/-- A shorter one takes the last byte of the humidity from the buffer. -/
theorem readSensor_short (cfg : Config) {payload : List UInt8} (hshort : payload.length < 16) {b b' : UInt8}
    (hsame : readSensor cfg ((constPayload b).fill payload).bytes =
      readSensor cfg ((constPayload b').fill payload).bytes) : b = b' := by
  have hlast : ∀ b, ((constPayload b).fill payload).bytes.getD 15 0 = b := by
    intro b
    rw [PayloadBuf.fill_bytes _ (by omega), List.getD_append_right _ _ _ _ (by omega), constPayload,
      List.drop_replicate, List.getD_replicate _ (by omega)]
  rw [readSensor_eq, readSensor_eq] at hsame
  have hhum := congrArg (fun s => be32 s.hum.toUInt32) hsame
  simp only [UInt32.toUInt32_toInt32, rdBe32, be32_word32, List.cons.injEq] at hhum
  have hbyte := hhum.2.2.2.1
  rwa [hlast, hlast] at hbyte

/-! ### The same packet on different buffers -/

/-- What a SENSOR packet does depends on the locals through the device, the count and the reading only. -/
theorem handleSensor_congr {cfg : Config} (l l' : Locals) {h : PlHeader} (hdev : l.dev = l'.dev)
    (hcount : l.sensorCount = l'.sensorCount)
    (hread : readSensor cfg l.payload.bytes = readSensor cfg l'.payload.bytes) {t : List (Event ServerSig)}
    {x : Turn}
    (hpath : (handleSensor cfg l h).Path t x) : ∃ x', (handleSensor cfg l' h).Path t x' := by
  rw [handleSensor, hdev, hread, hcount] at hpath
  rw [handleSensor]
  cases hdev' : l'.dev with
  | none =>
      rw [hdev'] at hpath
      obtain ⟨rfl, -⟩ := Proc.path_ret_iff.mp hpath
      exact ⟨_, .ret _⟩
  | some p =>
      rw [hdev'] at hpath
      obtain ⟨t₁, u, t₂, rfl, hstore, hrest⟩ := Proc.path_bind_iff.mp hpath
      by_cases hack : (l'.sensorCount + 1) % ACK_EVERY = 0
      · rw [if_pos hack] at hrest
        obtain ⟨t₃, ok, t₄, rfl, hsend, hret⟩ := Proc.path_bind_iff.mp hrest
        obtain ⟨rfl, -⟩ := Proc.path_ret_iff.mp hret
        refine ⟨.inl { l' with dev := some p, sensorCount := l'.sensorCount + 1, strikes := 0 },
          Proc.path_bind_iff.mpr ⟨t₁, u, t₃ ++ [], rfl, hstore, ?_⟩⟩
        rw [if_pos hack]
        exact Proc.path_bind_iff.mpr ⟨t₃, ok, [], rfl, hsend, .ret _⟩
      · rw [if_neg hack] at hrest
        obtain ⟨rfl, -⟩ := Proc.path_ret_iff.mp hrest
        refine ⟨.inl { l' with dev := some p, sensorCount := l'.sensorCount + 1, strikes := 0 },
          Proc.path_bind_iff.mpr ⟨t₁, u, [], rfl, hstore, ?_⟩⟩
        rw [if_neg hack]
        exact .ret _

/-- What is stored tells the reading. -/
theorem storeEvents_inj {h : PlHeader} {p p' : Nat} {s s' : SensorFields} {now now' : Int} {ns ns' : UInt64}
    {stored stored' : Bool} {t t' : List (Event ServerSig)}
    (hsame : storeEvents h p s now ns stored ++ t = storeEvents h p' s' now' ns' stored' ++ t') : s = s' := by
  have hops := congrArg (List.map Event.op) hsame
  simp only [storeEvents, List.cons_append, List.map_cons, List.cons.injEq, ServerOp.device.injEq,
    DevAtomic.storeSeq.injEq, DevAtomic.storeTemp.injEq, DevAtomic.storeHumid.injEq] at hops
  obtain ⟨-, ⟨-, hseq⟩, ⟨-, htemp⟩, ⟨-, hhum⟩, -⟩ := hops
  obtain ⟨seq, temp, hum⟩ := s
  cases hseq
  cases htemp
  cases hhum
  rfl

/-- The same locals on another buffer. -/
def Locals.over (l : Locals) (buf : PayloadBuf) : Locals := { l with payload := buf }

section Alike

variable {cfg : Config} {l : Locals} {h : PlHeader} {payload : List UInt8}

/-- Serving a SENSOR packet comes down to `handleSensor`. -/
theorem servesWith_sensor (hactive : l.state = .active) (htype : h.type = PktType.sensor.code)
    (hpasses : Passes h payload) (buf : PayloadBuf) (t : List (Event ServerSig)) :
    ServesWith cfg (l.over buf) h payload t ↔
      ∃ x, (handleSensor cfg ((l.over buf).received payload) h).Path t x := by
  have hstate : (l.over buf).state ≠ .closing := by
    rw [Locals.over, hactive]
    decide
  have hactive' : ((l.over buf).received payload).state = .active := hactive
  rw [servesWith_iff hstate hpasses, dispatch_sensor cfg hactive' htype]

/-- A run on a buffer of zeros would have to be one on a buffer of ones. -/
theorem short_sensor_differs (hshort : payload.length < 16) (hdev : l.dev ≠ none) :
    ∃ t x, (handleSensor cfg ((l.over (constPayload 0)).received payload) h).Path t x ∧
      ∀ x', ¬ (handleSensor cfg ((l.over (constPayload 1)).received payload) h).Path t x' := by
  have hzeros := Proc.exec_path serverHandler
    (handleSensor cfg ((l.over (constPayload 0)).received payload) h) (scripted [], freshServer)
  refine ⟨_, _, hzeros, fun x' hones => ?_⟩
  rcases handleSensor_path hzeros with ⟨hnone, -, -⟩ | ⟨_, _, _, _, _, -, ht, -, -⟩
  · exact hdev hnone
  rcases handleSensor_path hones with ⟨hnone, -, -⟩ | ⟨_, _, _, _, _, -, ht', -, -⟩
  · exact hdev hnone
  have hread := storeEvents_inj (ht.symm.trans ht')
  have hbyte := readSensor_short cfg hshort hread
  exact absurd hbyte (by decide)

theorem handleSensor_alike (hfits : payload.length ≤ 1100) (hcase : 16 ≤ payload.length ∨ l.dev = none)
    (buf buf' : PayloadBuf) {t : List (Event ServerSig)} {x : Turn}
    (hpath : (handleSensor cfg ((l.over buf).received payload) h).Path t x) :
    ∃ x', (handleSensor cfg ((l.over buf').received payload) h).Path t x' := by
  rcases hcase with hlong | hnone
  · refine handleSensor_congr ((l.over buf).received payload) ((l.over buf').received payload) rfl rfl ?_ hpath
    exact (readSensor_fill cfg buf hlong hfits).trans (readSensor_fill cfg buf' hlong hfits).symm
  · have hcrash : ∀ buf : PayloadBuf,
        handleSensor cfg ((l.over buf).received payload) h = .ret (.inr .crash) := by
      intro buf
      have hdev : ((l.over buf).received payload).dev = none := hnone
      rw [handleSensor, hdev]
      rfl
    rw [hcrash] at hpath
    rw [hcrash]
    exact ⟨x, hpath⟩

/-- What is recorded of a reading that is long enough. -/
theorem handleSensor_records (hfits : payload.length ≤ 1100) (hlong : 16 ≤ payload.length) (buf : PayloadBuf)
    {t : List (Event ServerSig)} {x : Turn}
    (hpath : (handleSensor cfg ((l.over buf).received payload) h).Path t x) {rec : SensorRecord}
    (hrec : rec ∈ recordsOf t) :
    ∃ ns, rec = ⟨h.deviceId, (readSensor cfg payload).seq, (readSensor cfg payload).temp,
      (readSensor cfg payload).hum, ns⟩ := by
  rcases handleSensor_path hpath with ⟨-, rfl, -⟩ | ⟨p, now, ns, stored, acks, -, rfl, -, hacks⟩
  · cases hrec
  refine ⟨ns, ?_⟩
  have hread : readSensor cfg ((l.over buf).received payload).payload.bytes = readSensor cfg payload :=
    readSensor_fill cfg buf hlong hfits
  rw [hread] at hrec
  have hquiet : recordsOf acks = [] := by
    split_ifs at hacks
    · obtain ⟨sent, rfl⟩ := hacks
      rfl
    · rw [hacks]
      rfl
  rw [recordsOf_append, hquiet] at hrec
  exact List.mem_singleton.mp hrec

end Alike

/-- **A reading depends on old bytes exactly when it is short.** Consider an ACTIVE worker and a valid SENSOR
packet. If the packet has 16 bytes or more, or the worker has no device, then whatever the environment and the
other threads answer, the worker does the same to the sink, the device and the peer on any two buffers, and
what it records is read off the packet. Otherwise there are two buffers on which it differs. -/
theorem sensor_alike_iff (cfg : Config) (l : Locals) (hactive : l.state = .active) (h : PlHeader)
    (payload : List UInt8) (htype : h.type = PktType.sensor.code) (hpasses : Passes h payload) :
    ((∀ (buf buf' : PayloadBuf) t, ServesWith cfg (l.over buf) h payload t →
        ServesWith cfg (l.over buf') h payload t) ↔ 16 ≤ h.payloadLen.toNat ∨ l.dev = none) ∧
    (16 ≤ h.payloadLen.toNat → ∀ (buf : PayloadBuf) t, ServesWith cfg (l.over buf) h payload t →
      ∀ rec ∈ recordsOf t, ∃ ns, rec = ⟨h.deviceId, (readSensor cfg payload).seq,
        (readSensor cfg payload).temp, (readSensor cfg payload).hum, ns⟩) := by
  have hfits := hpasses.length_le
  simp only [servesWith_sensor hactive htype hpasses, ← hpasses.length.2]
  refine ⟨⟨?_, ?_⟩, ?_⟩
  · intro halike
    by_contra hnot
    obtain ⟨hshort, hdev⟩ := not_or.mp hnot
    obtain ⟨t, x, hzeros, hones⟩ := short_sensor_differs (h := h) (Nat.not_le.mp hshort) hdev
    obtain ⟨x', hpath⟩ := halike _ (constPayload 1) t ⟨x, hzeros⟩
    exact hones x' hpath
  · rintro hcase buf buf' t ⟨x, hpath⟩
    exact handleSensor_alike hfits hcase buf buf' hpath
  · rintro hlong buf t ⟨x, hpath⟩ rec hrec
    exact handleSensor_records hfits hlong buf hpath hrec

/-- A HELLO without payload and a SENSOR packet without payload, in one arrival. -/
def shortScript : List Recv :=
  unread (packetBytes PktType.hello.code 7 [] ++ packetBytes PktType.sensor.code 7 []) []

/-- What the sink holds after a connection that carries them. -/
def storedOn (buf : PayloadBuf) : Option (List SensorRecord) :=
  (Loop.exec (clientWorker ⟨.little, none⟩) serverHandler 5 (.enter buf) (scripted shortScript, freshServer)).map
    fun out => out.world.2.stored

/-- The record is whatever the stack held. -/
theorem short_sensor_records_old_bytes :
    storedOn (constPayload 0) = some [⟨7, 0, 0, 0, 0⟩] ∧
      storedOn (constPayload 1) = some [⟨7, 0x01010101, 0x01010101, 0x01010101, 0⟩] := by
  decide +kernel

/-- An ACTIVE worker with a device, as after a HELLO. -/
def activeLocals : Locals := { Locals.init zeroPayload with state := .active, sessionId := 1, dev := some 0 }

theorem sensor_alike_iff_oneReading :
    let h := builtHeader PktType.sensor.code 7 (sensorPayload oneReading)
    Passes h (sensorPayload oneReading) ∧
      ∀ (buf buf' : PayloadBuf) t,
        ServesWith ⟨.little, none⟩ (activeLocals.over buf) h (sensorPayload oneReading) t →
        ServesWith ⟨.little, none⟩ (activeLocals.over buf') h (sensorPayload oneReading) t := by
  have hpasses : Passes (builtHeader PktType.sensor.code 7 (sensorPayload oneReading)) (sensorPayload oneReading) := by
    decide +kernel
  have halike := sensor_alike_iff ⟨.little, none⟩ activeLocals rfl
    (builtHeader PktType.sensor.code 7 (sensorPayload oneReading)) (sensorPayload oneReading) rfl hpasses
  exact ⟨hpasses, halike.1.mpr (Or.inl (by decide +kernel))⟩

end PulseLink
