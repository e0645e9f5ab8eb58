import PulseLink.BaseTwoRuns
import PulseLink.HostedWorkers
import PulseLink.Session

/-! Connections do not disturb each other. The workers share the device table, the session counter, the sink and
the semaphore, yet what a peer gets to see and what is stored for it depends on its own stream alone: in any two
runs of any two servers, a worker with the same connection decides about the same packets, stores the same
readings and sends the same replies, except for the session number in its HELLO_ACK. What the environment may
still decide is whether the server is stopped and whether memory runs out. -/

namespace PulseLink

open Bytes Proc

/-! ### The comparison -/

/-- The part of a connection that reading and writing is about. -/
structure Line where
  script : List Recv
  after : Afterwards
  sends : List Send
  sent : List UInt8
  deriving DecidableEq, Repr

def Conn.line (conn : Conn) : Line := ⟨conn.script, conn.after, conn.sends, conn.sent⟩

/-- What a line makes of the operations of its worker: the answers of `read_n` and `write_n` are its own. -/
def lineMonitor : Monitor ServerSig Line
  | line, ⟨.readN n, r⟩ =>
      if r = (readN line.after n [] line.script).1 then
        some { line with script := (readN line.after n [] line.script).2 }
      else none
  | line, ⟨.writeN bs, ok⟩ =>
      if ok = (writeN bs.length 0 line.sends).1 then
        some { line with
          sends := (writeN bs.length 0 line.sends).2.2
          sent := line.sent ++ bs.take (writeN bs.length 0 line.sends).2.1 }
      else none
  | line, _ => some line

/-- What is still to come on the two lines is the same. -/
structure SameAhead (line line' : Line) : Prop where
  script : line'.script = line.script
  after : line'.after = line.after
  sends : line'.sends = line.sends

/-- The server is not stopped, the device is found or allocated, and so are the buffers of a frame. -/
def Favourable : Event ServerSig → Bool
  | ⟨.loadRunning, running⟩ => running
  | ⟨.returned _ dev, _⟩ => dev.isSome
  | ⟨.frameAlloc, alloc⟩ => alloc.buf.isSome && (alloc.seen && alloc.img)
  | _ => true

/-- What shows of a worker: its decisions, the readings it stores, and its replies. -/
inductive Sign where
  | decision (h : PlHeader) (v : Verdict)
  | reading (deviceId seq : UInt32) (temperature humidity : Int32)
  | helloAck (deviceId : UInt32)
  | reply (bs : List UInt8)
  deriving DecidableEq, Repr

/-- A HELLO_ACK shows without its session number. -/
def signOf : Event ServerSig → Option Sign
  | ⟨.decided h v, _⟩ => some (.decision h v)
  | ⟨.writeRecord rec, _⟩ => some (.reading rec.deviceId rec.seq rec.temperature rec.humidity)
  | ⟨.writeN bs, _⟩ =>
      some (if bs.getD 3 0 = PktType.helloAck.code then .helloAck (rdBe32 bs 4) else .reply bs)
  | _ => none

def isolation : Comparison ServerSig Line Sign := ⟨lineMonitor, SameAhead, fun e => Favourable e = true, signOf⟩

/-- The operations on what the workers share. -/
def Sharing : ServerOp → Prop
  | .readN _ | .writeN _ | .decided _ _ | .writeRecord _ => False
  | _ => True

theorem Sharing.hidden {o : ServerOp} (ho : Sharing o) : Hidden isolation o := by
  intro ans
  cases o <;> first | exact ho.elim | exact ⟨rfl, fun _ => rfl⟩

theorem Proc.Within.hidden {α : Type} {P : ServerOp → Prop} {Q : α → Prop} (hP : ∀ o, P o → Sharing o)
    {p : ServerProc α} (hp : p.Within P Q) : p.Uses (Hidden isolation) :=
  hp.mono (fun o ho => (hP o ho).hidden) fun _ _ => trivial

/-- Programs that show nothing agree, whatever they return. -/
theorem hidden_agree {α α' : Type} {p : ServerProc α} {p' : ServerProc α'} (hp : p.Uses (Hidden isolation))
    (hp' : p'.Uses (Hidden isolation)) : Agree isolation (fun _ _ => True) p p' :=
  (Agree.hidden hp hp' (fun _ _ _ _ => trivial) fun _ _ _ _ => trivial).mono fun _ _ _ => trivial

/-- Both perform an operation on what is shared; the answers need not be the same. -/
theorem sharing_agree {α α' : Type} {Q : α → α' → Prop} (o : ServerOp) (ho : Sharing o) {f : o.Ans → ServerProc α}
    {f' : o.Ans → ServerProc α'}
    (hf : ∀ ans ans', Favourable ⟨o, ans⟩ = true → Favourable ⟨o, ans'⟩ = true → Agree isolation Q (f ans) (f' ans')) :
    Agree isolation Q (ask o >>= f) (ask o >>= f') := by
  refine Agree.op ?_
  intro ans ans' line line₁ line' line₁' hnear hfair hfair' hmove hmove'
  have hsame : line = line₁ := Option.some_inj.mp ((ho.hidden ans).2 line ▸ hmove)
  have hsame' : line' = line₁' := Option.some_inj.mp ((ho.hidden ans').2 line' ▸ hmove')
  rw [← hsame, ← hsame']
  exact ⟨hnear, (ho.hidden ans).1.trans (ho.hidden ans').1.symm, hf ans ans' hfair hfair'⟩

/-! ### Locals that differ only in what is shared -/

/-- The assemblers collect the same frame and differ in the bytes of its buffer. -/
def SameFrame (fa fa' : FrameAsm) : Prop := { fa' with buf := fa.buf } = fa

theorem SameFrame.eq {fa fa' : FrameAsm} (hsame : SameFrame fa fa') : ∃ buf, fa' = { fa with buf := buf } := by
  refine ⟨fa'.buf, ?_⟩
  rw [← hsame]

/-- The results tell the worker the same. -/
def SameResult : FeedResult → FeedResult → Prop
  | .malformed, .malformed => True
  | .more, .more => True
  | .complete _, .complete _ => True
  | _, _ => False

theorem sameFrame_store (fa : FrameAsm) (buf : List UInt8) (ch : Chunk) :
    SameFrame (fa.store ch) ({ fa with buf := buf }.store ch) := by
  simp only [FrameAsm.store]
  split_ifs <;> rfl

theorem collect_same {fa fa' : FrameAsm} (hsame : SameFrame fa fa') {alloc alloc' : FrameAlloc}
    (himg : alloc.img = true) (himg' : alloc'.img = true) (ch : Chunk) :
    SameResult (fa.collect alloc ch).1 (fa'.collect alloc' ch).1 ∧
      SameFrame (fa.collect alloc ch).2 (fa'.collect alloc' ch).2 := by
  obtain ⟨buf, rfl⟩ := hsame.eq
  obtain ⟨buf', hstored⟩ := (sameFrame_store fa buf ch).eq
  simp only [FrameAsm.collect, hstored, himg, himg']
  split_ifs
  · cases imageAlloc true ch.width.toNat ch.height.toNat with
    | none => exact ⟨trivial, rfl⟩
    | some out => exact ⟨trivial, rfl⟩
  · exact ⟨trivial, rfl⟩

/-- What a chunk is told and where it leaves the assembler does not depend on the contents of a new buffer. -/
theorem feed_siblings {fa fa' : FrameAsm} (hsame : SameFrame fa fa') {alloc alloc' : FrameAlloc}
    (hok : Favourable ⟨.frameAlloc, alloc⟩ = true) (hok' : Favourable ⟨.frameAlloc, alloc'⟩ = true)
    (payload : List UInt8) :
    SameResult (frameAsmFeed alloc fa payload).1 (frameAsmFeed alloc' fa' payload).1 ∧
      SameFrame (frameAsmFeed alloc fa payload).2 (frameAsmFeed alloc' fa' payload).2 := by
  simp only [Favourable, Bool.and_eq_true] at hok hok'
  obtain ⟨contents, hbuf⟩ := Option.isSome_iff_exists.mp hok.1
  obtain ⟨contents', hbuf'⟩ := Option.isSome_iff_exists.mp hok'.1
  rw [frameAsmFeed, frameAsmFeed]
  cases parseChunk payload with
  | none => exact ⟨trivial, hsame⟩
  | some ch =>
      have hother : fa'.otherFrame ch = fa.otherFrame ch := by
        obtain ⟨buf, rfl⟩ := hsame.eq
        rfl
      simp only [hother, hbuf, hbuf', hok.2.1, hok'.2.1]
      split_ifs
      · exact collect_same (show SameFrame (.begin contents ch) (.begin contents' ch) from rfl) hok.2.2 hok'.2.2 ch
      · exact collect_same hsame hok.2.2 hok'.2.2 ch

/-- The workers differ in their sessions, in where their devices lie and in the buffers of their frames. -/
structure Sibling (l l' : Locals) : Prop where
  state : l'.state = l.state
  strikes : l'.strikes = l.strikes
  idleTicks : l'.idleTicks = l.idleTicks
  sensorCount : l'.sensorCount = l.sensorCount
  payload : l'.payload = l.payload
  frame : SameFrame l.fa l'.fa
  known : l.state ≠ .waitHello → l.dev.isSome = true ∧ l'.dev.isSome = true

theorem kin_init (payload : PayloadBuf) : Sibling (.init payload) (.init payload) :=
  ⟨rfl, rfl, rfl, rfl, rfl, rfl, fun hstate => absurd rfl hstate⟩

/-- The loops go on with such locals, or both leave for the same reason. -/
abbrev KinTurn : Turn → Turn → Prop := Turned Sibling Eq

/-! ### One function after the other -/

section Functions

variable {cfg : Config} {l l' : Locals}

/-- Replies of the same length, of which the same shows, get the same answer. -/
theorem writeN_agree {bs bs' : List UInt8} (hlen : bs'.length = bs.length)
    (hshown : ∀ ok ok', signOf ⟨.writeN bs, ok⟩ = signOf ⟨.writeN bs', ok'⟩) :
    Agree isolation Eq (ask (.writeN bs)) (ask (.writeN bs')) := by
  refine Agree.op ?_
  intro ok ok' line line₁ line' line₁' hnear _ _ hmove hmove'
  simp only [isolation, lineMonitor] at hmove hmove'
  rw [hlen, hnear.sends] at hmove'
  split_ifs at hmove hmove' with hok hok'
  cases hmove
  cases hmove'
  refine ⟨⟨hnear.script, hnear.after, rfl⟩, hshown ok ok', .ret ?_⟩
  rw [hok, hok']

theorem sendError_agree (cfg : Config) (deviceId : UInt32) (e : PlError) :
    Agree isolation Eq (sendError cfg deviceId e) (sendError cfg deviceId e) := by
  rw [sendError_eq]
  exact writeN_agree rfl fun _ _ => rfl

theorem dtRecordBad_hidden (dev : Option Nat) : (dtRecordBad dev).Uses (Hidden isolation) := by
  cases dev with
  | none => trivial
  | some p => exact ⟨Sharing.hidden trivial, fun _ => trivial⟩

theorem reject_agree (l l' : Locals) (h : PlHeader) (e : PlError) :
    Agree isolation (fun l₁ l₁' => l₁ = { l with strikes := l.strikes + 1 } ∧
      l₁' = { l' with strikes := l'.strikes + 1 }) (reject cfg l h e) (reject cfg l' h e) := by
  refine (sendError_agree cfg h.deviceId e).bind fun _ _ _ => ?_
  exact (hidden_agree (dtRecordBad_hidden l.dev) (dtRecordBad_hidden l'.dev)).bind fun _ _ _ => .ret ⟨rfl, rfl⟩

/-- Both decide the same about the packet. -/
theorem decided_agree {α α' : Type} {Q : α → α' → Prop} {h : PlHeader} {v : Verdict}
    {f : Unit → ServerProc α} {f' : Unit → ServerProc α'} (hf : Agree isolation Q (f ()) (f' ())) :
    Agree isolation Q (ask (.decided h v) >>= f) (ask (.decided h v) >>= f') := by
  refine Agree.op ?_
  intro _ _ line line₁ line' line₁' hnear _ _ hmove hmove'
  cases hmove
  cases hmove'
  exact ⟨hnear, rfl, hf⟩

theorem strikeOut_agree (hkin : Sibling l l') (h : PlHeader) (e : PlError) :
    Agree isolation KinTurn (strikeOut cfg l h e) (strikeOut cfg l' h e) := by
  refine decided_agree ((reject_agree l l' h e).bind ?_)
  rintro _ _ ⟨rfl, rfl⟩
  simp only [hkin.strikes]
  split_ifs
  · exact .ret (.out rfl)
  · exact .ret (.on { hkin with strikes := rfl })

theorem strikeClose_agree (cfg : Config) (hkin : Sibling l l') (hstate : l.state ≠ .waitHello) (h : PlHeader)
    (e : PlError) :
    Agree isolation KinTurn (strikeClose cfg l h e) (strikeClose cfg l' h e) := by
  refine (reject_agree l l' h e).bind ?_
  rintro _ _ ⟨rfl, rfl⟩
  simp only [hkin.strikes]
  split_ifs
  · exact .ret (.on { hkin with state := rfl, strikes := rfl, known := fun _ => hkin.known hstate })
  · exact .ret (.on { hkin with strikes := rfl })

theorem dtGetOrCreate_agree (id sid sid' : UInt32) :
    Agree isolation (fun dev dev' => dev.isSome = true ∧ dev'.isSome = true) (dtGetOrCreate id sid)
      (dtGetOrCreate id sid') := by
  have huses : ∀ sid, (dtGetOrCreate id sid).Uses (Hidden isolation) := by
    intro sid
    refine (dtGetOrCreate_looksUp id sid).hidden ?_
    intro o ho
    cases o <;> first | exact ho.elim | trivial
  have hfound : ∀ sid t dev, (dtGetOrCreate id sid).Path t dev → (∀ e ∈ t, Favourable e = true) →
      dev.isSome = true := by
    intro sid t dev hpath hfair
    obtain ⟨hit, t₁, rfl, hrest⟩ := path_ask_iff.mp hpath
    cases hit with
    | some p =>
        obtain ⟨_, t₂, rfl, hret⟩ := path_ask_iff.mp hrest
        obtain ⟨rfl, rfl⟩ := path_ret_iff.mp hret
        rfl
    | none =>
        obtain ⟨r, t₂, rfl, hnamed⟩ := path_ask_iff.mp hrest
        obtain ⟨_, t₃, rfl, hret⟩ := path_ask_iff.mp hnamed
        obtain ⟨rfl, rfl⟩ := path_ret_iff.mp hret
        exact hfair ⟨.returned id r.device, ()⟩ (by simp)
  exact Agree.hidden (huses sid) (huses sid') (hfound sid) (hfound sid')

/-- Of a HELLO_ACK the device shows. -/
theorem signOf_helloAck (deviceId sessionId : UInt32) (ok : Bool) :
    signOf ⟨.writeN (helloAckPacket deviceId sessionId), ok⟩ = some (.helloAck deviceId) := by
  have hid : rdBe32 (helloAckPacket deviceId sessionId) 4 = deviceId :=
    rdBe32_append (be16 PL_MAGIC ++ [PL_VERSION, PktType.helloAck.code]) _ deviceId rfl
  show some (if (helloAckPacket deviceId sessionId).getD 3 0 = PktType.helloAck.code then
    Sign.helloAck (rdBe32 (helloAckPacket deviceId sessionId) 4) else _) = _
  rw [helloAckPacket, packetBytes_type, if_pos rfl, ← helloAckPacket, hid]

theorem handleHello_agree (hkin : Sibling l l') (h : PlHeader) :
    Agree isolation KinTurn (handleHello cfg l h) (handleHello cfg l' h) := by
  rw [handleHello, handleHello]
  split_ifs
  · exact (sendError_agree cfg h.deviceId .noHello).bind fun _ _ _ => .ret (.out rfl)
  · refine sharing_agree .nextSession trivial fun sid sid' _ _ => ?_
    refine (dtGetOrCreate_agree h.deviceId sid sid').bind fun dev dev' hdev => ?_
    rw [sendHelloAck_eq, sendHelloAck_eq]
    have hlen : (helloAckPacket h.deviceId sid').length = (helloAckPacket h.deviceId sid).length := by
      rw [helloAckPacket, helloAckPacket, length_packetBytes, length_packetBytes]
      rfl
    refine Agree.bind (writeN_agree hlen fun ok ok' => by rw [signOf_helloAck, signOf_helloAck]) ?_
    rintro ok _ rfl
    split_ifs
    · exact .ret (.on { hkin with state := rfl, strikes := rfl, known := fun _ => hdev })
    · exact .ret (.out rfl)

/-- Storing a reading shows the reading, and nothing of the clock. -/
theorem storeReading_agree (h : PlHeader) (p p' : Nat) (s : SensorFields) :
    Agree isolation (fun _ _ => True) (storeReading h p s) (storeReading h p' s) := by
  have hstores : ∀ (p : Nat) (now : Int), (dtRecordSensor p s.seq s.temp s.hum now).Uses (Hidden isolation) :=
    fun p now => ⟨Sharing.hidden trivial, fun _ => ⟨Sharing.hidden trivial, fun _ => ⟨Sharing.hidden trivial, fun _ =>
      ⟨Sharing.hidden trivial, fun _ => ⟨Sharing.hidden trivial, fun _ => ⟨Sharing.hidden trivial, fun _ =>
        trivial⟩⟩⟩⟩⟩⟩
  refine sharing_agree .time trivial fun now now' _ _ => ?_
  refine (hidden_agree (hstores p now) (hstores p' now')).bind fun _ _ _ => ?_
  refine sharing_agree .nowNs trivial fun ns ns' _ _ => Agree.op ?_
  intro _ _ line line₁ line' line₁' hnear _ _ hmove hmove'
  cases hmove
  cases hmove'
  exact ⟨hnear, rfl, .ret trivial⟩

theorem handleSensor_agree (hkin : Sibling l l') (hstate : l.state ≠ .waitHello) (h : PlHeader) :
    Agree isolation KinTurn (handleSensor cfg l h) (handleSensor cfg l' h) := by
  obtain ⟨hdev, hdev'⟩ := hkin.known hstate
  obtain ⟨p, hp⟩ := Option.isSome_iff_exists.mp hdev
  obtain ⟨p', hp'⟩ := Option.isSome_iff_exists.mp hdev'
  rw [handleSensor, handleSensor, hp, hp', hkin.payload]
  refine (storeReading_agree h p p' _).bind fun _ _ _ => ?_
  simp only [hkin.sensorCount]
  split_ifs
  · rw [sendAck_eq]
    refine Agree.bind (writeN_agree rfl fun _ _ => rfl) fun _ _ _ => .ret (.on ?_)
    exact { hkin with sensorCount := rfl, strikes := rfl, payload := rfl, known := fun _ => ⟨rfl, rfl⟩ }
  · exact .ret (.on { hkin with sensorCount := rfl, strikes := rfl, payload := rfl, known := fun _ => ⟨rfl, rfl⟩ })

theorem handleFrame_agree (hkin : Sibling l l') (hstate : l.state ≠ .waitHello) (h : PlHeader) :
    Agree isolation KinTurn (handleFrame cfg l h) (handleFrame cfg l' h) := by
  have hsaves : ∀ img, (saveFrame cfg h img).Uses (Hidden isolation) := by
    intro img
    refine (saveFrame_saves cfg h img).hidden ?_
    intro o ho
    cases o <;> first | exact ho.elim | trivial
  refine sharing_agree .frameAlloc trivial fun alloc alloc' hok hok' => ?_
  have hfeed := feed_siblings hkin.frame hok hok' (l.payload.bytes.take h.payloadLen.toNat)
  generalize frameAsmFeed alloc l.fa (l.payload.bytes.take h.payloadLen.toNat) = r at hfeed ⊢
  rw [← hkin.payload] at hfeed
  generalize frameAsmFeed alloc' l'.fa (l'.payload.bytes.take h.payloadLen.toNat) = r' at hfeed ⊢
  obtain ⟨hresult, hframe⟩ := hfeed
  obtain ⟨result, fa⟩ := r
  obtain ⟨result', fa'⟩ := r'
  have hfed : Sibling { l with fa := fa } { l' with fa := fa' } := { hkin with frame := hframe }
  have hcalm : Sibling { l with fa := fa, strikes := 0 } { l' with fa := fa', strikes := 0 } :=
    { hfed with strikes := rfl }
  -- what is noted about the feed differs, and shows nothing
  have hnoted : ∀ result : FeedResult, (ask (.fed result)).Uses (Hidden isolation) :=
    fun result => ⟨Sharing.hidden trivial, fun _ => trivial⟩
  refine (hidden_agree (hnoted result) (hnoted result')).bind fun _ _ _ => ?_
  cases result with
  | malformed =>
      cases result' with
      | malformed => exact strikeClose_agree cfg hfed hstate h .tooBig
      | more | complete img' => exact hresult.elim
  | more =>
      cases result' with
      | more => exact .ret (.on hcalm)
      | malformed | complete img' => exact hresult.elim
  | complete img =>
      cases result' with
      | complete img' =>
          exact (hidden_agree (hsaves img) (hsaves img')).bind fun _ _ _ => .ret (.on hcalm)
      | malformed | more => exact hresult.elim

theorem dispatch_agree (hkin : Sibling l l') (h : PlHeader) :
    Agree isolation KinTurn (dispatch cfg l h) (dispatch cfg l' h) := by
  rw [dispatch, dispatch, hkin.state]
  split_ifs with hstate
  · exact handleHello_agree hkin h
  · exact handleSensor_agree hkin hstate h
  · exact handleFrame_agree hkin hstate h
  · exact .ret (.on hkin)
  · exact strikeClose_agree cfg hkin hstate h .badType

theorem checkPayload_agree (hkin : Sibling l l') (h : PlHeader) :
    Agree isolation KinTurn (checkPayload cfg l h) (checkPayload cfg l' h) := by
  rw [checkPayload, checkPayload, hkin.payload]
  split_ifs
  · exact strikeOut_agree hkin h .badChecksum
  · exact decided_agree (dispatch_agree hkin h)

/-- Both read the same. -/
theorem readN_agree {α α' : Type} {Q : α → α' → Prop} {n : Nat} {f : ReadResult → ServerProc α}
    {f' : ReadResult → ServerProc α'} (hf : ∀ r, Agree isolation Q (f r) (f' r)) :
    Agree isolation Q (ask (.readN n) >>= f) (ask (.readN n) >>= f') := by
  refine Agree.op ?_
  intro r r' line line₁ line' line₁' hnear _ _ hmove hmove'
  simp only [isolation, lineMonitor] at hmove hmove'
  rw [hnear.script, hnear.after] at hmove'
  split_ifs at hmove hmove' with hr hr'
  cases hmove
  cases hmove'
  refine ⟨⟨rfl, rfl, hnear.sends⟩, rfl, ?_⟩
  rw [hr, hr']
  exact hf _

theorem handleHeader_agree (hkin : Sibling l l') (h : PlHeader) :
    Agree isolation KinTurn (handleHeader cfg l h) (handleHeader cfg l' h) := by
  rw [handleHeader, handleHeader]
  cases checkHeader h with
  | some e => exact strikeOut_agree hkin h e
  | none =>
      simp only [recvPayload]
      split_ifs
      · refine readN_agree fun r => ?_
        cases r with
        | count got =>
            simp only
            split_ifs
            · have hfilled : Sibling { l with payload := l.payload.fill got }
                  { l' with payload := l'.payload.fill got } :=
                { hkin with payload := congrArg (fun buf => buf.fill got) hkin.payload }
              exact checkPayload_agree hfilled h
            · exact .ret (.out rfl)
        | again got | failed got => exact .ret (.out rfl)
      · exact checkPayload_agree hkin h

theorem afterRead_agree (hkin : Sibling l l') (r : ReadResult) :
    Agree isolation KinTurn (afterRead cfg l r) (afterRead cfg l' r) := by
  cases r with
  | again got =>
      simp only [afterRead, hkin.idleTicks]
      split_ifs
      · exact .ret (.out rfl)
      · exact .ret (.on { hkin with idleTicks := rfl })
  | failed got => exact .ret (.out rfl)
  | count got =>
      simp only [afterRead]
      split_ifs
      · exact .ret (.out rfl)
      · exact .ret (.out rfl)
      · have hheard : Sibling { l with idleTicks := 0 } { l' with idleTicks := 0 } := { hkin with idleTicks := rfl }
        exact handleHeader_agree hheard _

theorem clientTurn_agree (hkin : Sibling l l') :
    Agree isolation KinTurn (clientTurn cfg l) (clientTurn cfg l') := by
  rw [clientTurn_eq, clientTurn_eq]
  refine sharing_agree .loadRunning trivial fun running running' hrunning hrunning' => ?_
  cases (show running = true from hrunning)
  cases (show running' = true from hrunning')
  have hgoes : ∀ α (p q : ServerProc α), (if true = false then p else q) = q := fun _ _ _ => if_neg (by decide)
  rw [hgoes, hgoes, hkin.state]
  split_ifs
  · exact .ret (.out rfl)
  · exact readN_agree fun r => afterRead_agree hkin r

end Functions

/-! ### Whole connections -/

/-- Two workers at the same point. -/
inductive KinPc : WorkerPc → WorkerPc → Prop where
  | enter (payload : PayloadBuf) : KinPc (.enter payload) (.enter payload)
  | running {l l' : Locals} (hkin : Sibling l l') : KinPc (.running l) (.running l')
  | leave (why : ExitReason) : KinPc (.leave why) (.leave why)

theorem clientWorker_agree (cfg : Config) {pc pc' : WorkerPc} (hkin : KinPc pc pc') :
    Agree isolation (Turned KinPc Eq) (clientWorker cfg pc) (clientWorker cfg pc') := by
  cases hkin with
  | enter payload => exact sharing_agree .activeAdd trivial fun _ _ _ _ => .ret (.on (.running (kin_init payload)))
  | running hkin =>
      refine (clientTurn_agree hkin).bind fun x x' hturned => .ret ?_
      cases hturned with
      | on hkin₁ => exact .on (.running hkin₁)
      | out hwhy =>
          subst hwhy
          rename_i why
          cases why <;> first | exact .on (.leave _) | exact .out rfl
  | leave why =>
      have hleaves : (clientWorker cfg (.leave why)).Uses (Hidden isolation) :=
        ⟨Sharing.hidden trivial, fun _ => ⟨Sharing.hidden trivial, fun _ => ⟨Sharing.hidden trivial, fun _ =>
          ⟨Sharing.hidden trivial, fun _ => trivial⟩⟩⟩⟩
      have hends : ∀ t x, (clientWorker cfg (.leave why)).Path t x → (∀ e ∈ t, Favourable e = true) → x = .inr why := by
        intro t x hpath _
        exact ((leave_plain cfg why).path hpath).2
      refine (Agree.hidden hleaves hleaves hends hends).mono ?_
      rintro _ _ ⟨rfl, rfl⟩
      exact .out rfl

/-- What the worker of connection `cfd` has performed, as operations of `client_worker`. -/
def clientEvents (pool : HostPool) (cfd : Nat) : List (Event ServerSig) :=
  (Pool.eventsOf pool.log (.worker cfd)).filterMap asClient

theorem lineMonitor_server (o : ServerOp) (conn : Conn) (ctx : ServerCtx) :
    lineMonitor conn.line ⟨o, (serverHandler o (conn, ctx)).1⟩ = some (serverHandler o (conn, ctx)).2.1.line := by
  cases o with
  | readN n => exact if_pos rfl
  | writeN bs => exact if_pos rfl
  | writeFile path bytes =>
      simp only [serverHandler]
      split <;> rfl
  | _ => rfl

/-- Whatever the other threads do, the line of a connection has gone through the operations of its worker. -/
theorem server_line (boot : Boot) (schedule : List Party) (cfd : Nat) :
    lineMonitor.Accepts (boot.conns cfd).line (clientEvents (boot.run schedule) cfd)
      ((boot.run schedule).locals (.worker cfd)).line := by
  have hseen : ∀ (o : HostOp) (conn : Conn) (s : Host) (e : Event ServerSig),
      asClient ⟨o, (hostHandler o (conn, s)).1⟩ = some e →
        lineMonitor conn.line e = some (hostHandler o (conn, s)).2.1.line := by
    intro o conn s e hview
    cases o with
    | serve cfd o =>
        cases hview
        cases o with
        | loadRunning => rfl
        | _ => exact lineMonitor_server _ conn s.ctx
    | activeAdd | activeSub | close | semPost | freeArg =>
        cases hview
        rfl
    | _ => cases hview
  have hunseen : ∀ (o : HostOp) (conn : Conn) (s : Host), asClient ⟨o, (hostHandler o (conn, s)).1⟩ = none →
      (hostHandler o (conn, s)).2.1.line = conn.line := by
    intro o conn s hview
    cases o with
    | serve cfd o => cases hview
    | poll =>
        simp only [hostHandler]
        split <;> rfl
    | accept | semTrywait =>
        simp only [hostHandler]
        split_ifs <;> rfl
    | _ => rfl
  exact Pool.gated_private (v := Conn.line) hseen hunseen boot.place boot.conn boot.host schedule (.worker cfd)

/-- **Connections are isolated.** Take any two runs of two servers with the same configuration, with any other
connections and under any schedules, and in each a worker that has ended on the same connection, with the same
bytes on its stack. If neither server was stopped and no memory ran out for the two, they left for the same
reason, having decided about the same packets, stored the same readings and sent the same replies in the same
order, up to the session number. -/
theorem connections_isolated (boot boot' : Boot) (hcfg : boot'.cfg = boot.cfg) (schedule schedule' : List Party)
    (cfd cfd' : Nat) (hconn : boot'.conns cfd' = boot.conns cfd) (hstack : boot'.payloads cfd' = boot.payloads cfd)
    (r r' : ThreadEnd) (hdone : (boot.run schedule).threads (.worker cfd) = .done r)
    (hdone' : (boot'.run schedule').threads (.worker cfd') = .done r')
    (hfair : ∀ e ∈ clientEvents (boot.run schedule) cfd, Favourable e = true)
    (hfair' : ∀ e ∈ clientEvents (boot'.run schedule') cfd', Favourable e = true) :
    r' = r ∧ (clientEvents (boot'.run schedule') cfd').filterMap signOf =
      (clientEvents (boot.run schedule) cfd).filterMap signOf := by
  obtain ⟨why, rfl, hpath⟩ := server_worker_path boot schedule hdone
  obtain ⟨why', rfl, hpath'⟩ := server_worker_path boot' schedule' hdone'
  rw [hcfg, hstack] at hpath'
  have hline' := server_line boot' schedule' cfd'
  rw [hconn] at hline'
  obtain ⟨hmatch, hwhy⟩ := Loop.Path.agree (c := isolation) (fun _ _ hkin => clientWorker_agree boot.cfg hkin)
    hpath hpath' (.enter (boot.payloads cfd)) ⟨rfl, rfl, rfl⟩ ⟨server_line boot schedule cfd, hfair⟩ ⟨hline', hfair'⟩
  exact ⟨congrArg ThreadEnd.worker hwhy.symm, hmatch.shows.symm⟩

/-- A client that says HELLO and closes the connection. -/
def helloClient (id : UInt32) : Conn := scripted (unread (packetBytes PktType.hello.code id (helloPayload 1 0)) [])

/-- One that sends a reading in between. -/
def oneReadingClient (id : UInt32) (r : Reading) : Conn :=
  scripted (unread (packetBytes PktType.hello.code id (helloPayload 1 0) ++
    packetBytes PktType.sensor.code id (sensorPayload r)) [])

def oneHello : Boot where
  cfg := ⟨.little, none⟩
  maxClients := 1
  payloads _ := zeroPayload
  conns _ := helloClient 7
  ctx := freshServer
  choices := ⟨[], [.ready false true], [], [], []⟩

def loneReading : Boot := { oneHello with conns := fun _ => oneReadingClient 7 ⟨5, 0, -250, 4000⟩ }

/-- The same client comes after another one, and gets the second session. -/
def readingsOfTwo : Boot :=
  { loneReading with
    maxClients := 2
    conns := fun cfd => if cfd = 0 then oneReadingClient 9 ⟨1, 0, 300, 100⟩ else oneReadingClient 7 ⟨5, 0, -250, 4000⟩
    choices := ⟨[], [.ready false true, .ready false true], [], [], []⟩ }

def serveOne : List Party := List.replicate 10 .listener ++ List.replicate 40 (.worker 0)

/-- The two workers take steps in turn. -/
def serveTwo : List Party :=
  List.replicate 20 .listener ++ (List.replicate 40 [.worker 0, .worker 1]).flatten

theorem connections_isolated_second :
    repliesOf (clientEvents (loneReading.run serveOne) 0) = [helloAckPacket 7 1] ∧
      repliesOf (clientEvents (readingsOfTwo.run serveTwo) 1) = [helloAckPacket 7 2] ∧
      (recordsOf (clientEvents (readingsOfTwo.run serveTwo) 1)).map (fun rec => (rec.deviceId, rec.seq)) = [(7, 5)] ∧
      (clientEvents (readingsOfTwo.run serveTwo) 1).filterMap signOf =
        (clientEvents (loneReading.run serveOne) 0).filterMap signOf := by
  obtain ⟨r, hdone⟩ := Thread.finished_iff.mp
    (show ((loneReading.run serveOne).threads (.worker 0)).finished = true by decide +kernel)
  obtain ⟨r', hdone'⟩ := Thread.finished_iff.mp
    (show ((readingsOfTwo.run serveTwo).threads (.worker 1)).finished = true by decide +kernel)
  exact ⟨by decide +kernel, by decide +kernel, by decide +kernel,
    (connections_isolated loneReading readingsOfTwo rfl serveOne serveTwo 0 1 rfl rfl
    r r' hdone hdone' (by decide +kernel) (by decide +kernel)).2⟩

end PulseLink
